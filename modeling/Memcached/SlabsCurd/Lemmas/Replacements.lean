import Memcached.SlabsCurd.Lemmas.Deltas

/-!
# What is stored when a delta succeeds

The item that is stored in the end, its text and its CAS: the old item in place, or the new one.
-/

namespace Memcached.SlabsCurd

open MemoryLru Decimal

/-- But for links, clocks, LRU and references, the same. -/
structure Alike (i j : MemoryLru.Item) : Prop where
  shape : j.shape = i.shape
  cas : j.cas = i.cas
  exptime : j.exptime = i.exptime

namespace Alike

variable {i j k : MemoryLru.Item}

theorem refl : Alike i i := ⟨rfl, rfl, rfl⟩

theorem trans (h : Alike i j) (h' : Alike j k) : Alike i k :=
  ⟨h'.shape.trans h.shape, h'.cas.trans h.cas, h'.exptime.trans h.exptime⟩

theorem of_core (h : j.core = i.core) : Alike i j :=
  ⟨Item.shape_of_core h, Item.core_congr Item.cas (fun _ => rfl) h, Item.core_congr Item.exptime (fun _ => rfl) h⟩

theorem key (h : Alike i j) : j.key = i.key := Item.shape_congr MemoryLru.Item.key (fun _ => rfl) h.shape

theorem nbytes (h : Alike i j) : j.nbytes = i.nbytes := Item.shape_congr Item.nbytes (fun _ => rfl) h.shape

theorem nsuffix (h : Alike i j) : j.nsuffix = i.nsuffix := Item.shape_congr Item.nsuffix (fun _ => rfl) h.shape

theorem linked (h : Alike i j) : j.it_flags.linked = i.it_flags.linked :=
  Item.shape_congr (·.it_flags.linked) (fun _ => rfl) h.shape

theorem slabbed (h : Alike i j) : j.it_flags.slabbed = i.it_flags.slabbed :=
  Item.shape_congr (·.it_flags.slabbed) (fun _ => rfl) h.shape

theorem get_cas (h : Alike i j) : j.get_cas = i.get_cas := by
  have hflag : j.it_flags.cas = i.it_flags.cas := Item.shape_congr (·.it_flags.cas) (fun _ => rfl) h.shape
  simp only [Item.get_cas, hflag, h.cas]

end Alike

section
variable {cfg : Settings} {s s' : Store} {p q : Ptr}

/-- An item that is linked is not changed when a reference is dropped, be it to this item or to another. -/
theorem release_alike (hl : (s.heap q).it_flags.linked) (h : s.release p = some s') :
    s'.table = s.table ∧ s'.cas_id = s.cas_id ∧ Alike (s.heap q) (s'.heap q) := by
  obtain ⟨-, hremove⟩ := Store.release_cases h
  have hid := Store.do_item_remove_cas_id hremove
  refine ⟨?_, hid, ?_⟩
  · obtain ⟨-, ⟨-, -, rfl⟩ | ⟨-, -, rfl⟩⟩ := Store.do_item_remove_cases hremove <;> rfl
  by_cases hq : q = p
  · subst hq
    obtain rfl := Store.do_item_remove_linked hremove hl
    simp only [Store.refcount_decr, Store.modify_self]
    exact ⟨rfl, rfl, rfl⟩
  · have hsame := Pull.do_item_remove_core hremove hq
    dsimp only at hsame
    rw [hsame]
    exact .refl

theorem release_in_use (h : s.release p = some s') : (s.heap p).it_flags.slabbed = false := by
  obtain ⟨-, hremove⟩ := Store.release_cases h
  simpa using (Store.do_item_remove_cases hremove).1

theorem do_item_link_alike (h : s.do_item_link cfg p = some s') :
    s'.table = Function.update s.table (s.heap p).key (some p) ∧
      s'.cas_id = (if cfg.use_cas then s.cas_id + 1 else s.cas_id) ∧
      Alike { s.heap p with
        it_flags := { (s.heap p).it_flags with linked := true }
        cas := if (s.heap p).it_flags.cas then if cfg.use_cas then s.cas_id + 1 else 0 else (s.heap p).cas } (s'.heap p) := by
  obtain ⟨-, -, s₁, hlink, rfl⟩ := Store.do_item_link_linking h
  have hcore := Store.do_item_link_q_core hlink
  have halike := Alike.of_core (hcore.core p)
  refine ⟨?_, ?_, Alike.trans (j := s₁.heap p) ?_ ?_⟩
  · simp only [Store.refcount_incr, Store.modify]
    rw [hcore.rest]
    rfl
  · simp only [Store.refcount_incr, Store.modify]
    rw [hcore.rest]
    rfl
  · refine Alike.trans ?_ halike
    simp only [Store.linking, Function.update_self]
    exact ⟨rfl, rfl, rfl⟩
  · simp only [Store.refcount_incr, Store.modify_self]
    exact ⟨rfl, rfl, rfl⟩

theorem do_item_replace_alike (hl : ¬ (s.heap q).it_flags.linked) (h : s.do_item_replace cfg p q = some s') :
    s'.table (s.heap q).key = some q ∧ s'.cas_id = (if cfg.use_cas then s.cas_id + 1 else s.cas_id) ∧
      Alike { s.heap q with
        it_flags := { (s.heap q).it_flags with linked := true }
        cas := if (s.heap q).it_flags.cas then if cfg.use_cas then s.cas_id + 1 else 0 else (s.heap q).cas } (s'.heap q) := by
  simp only [Store.do_item_replace] at h
  split at h
  · cases h
  obtain ⟨s₁, hunlink, hlink⟩ := Option.bind_eq_some_iff.mp h
  have hcas := Store.do_item_unlink_cas_id hunlink
  have hcore : (s₁.heap q).core = (s.heap q).core := by
    by_cases hq : q = p
    · subst hq
      obtain ⟨-, rfl⟩ | ⟨hlinked, -⟩ := Store.do_item_unlink_cases hunlink
      · rfl
      · exact absurd hlinked hl
    · exact Pull.do_item_unlink_core hunlink hq
  have halike := Alike.of_core hcore
  have hflag : (s₁.heap q).it_flags = (s.heap q).it_flags := Item.core_congr Item.it_flags (fun _ => rfl) hcore
  obtain ⟨htable, hid, hitem⟩ := do_item_link_alike hlink
  refine ⟨?_, by rw [hid, hcas], Alike.trans ?_ hitem⟩
  · rw [htable, halike.key, Function.update_self]
  · rw [hflag, hcas]
    exact ⟨Item.core_congr (fun i : MemoryLru.Item => Item.shape { i with it_flags := { (s.heap q).it_flags with linked := true } })
      (fun _ => rfl) hcore, by simp only [halike.cas], halike.exptime⟩

end

/-! ## The stored number -/

/-- The CAS that an item gets when the counter was `cas_id`. -/
def fresh_cas (cfg : Settings) (cas_id : UInt64) : UInt64 := if cfg.use_cas then cas_id + 1 else 0

/-- From the cache `c` with the old item `it`, the text is stored in the item `p` of `c'`. -/
structure Stored (cfg : Settings) (c : Cache) (it : Ptr) (buf : List UInt8) (c' : Cache) (p : Ptr) : Prop where
  table : c'.store.table (c.store.heap it).key = some p
  linked : (c'.store.heap p).it_flags.linked
  bytes : ∃ k, c'.bytes p = buf ++ (List.replicate k 32 ++ [13, 10])
  key : (c'.store.heap p).key = (c.store.heap it).key
  exptime : (c'.store.heap p).exptime = (c.store.heap it).exptime
  flags : c'.flags cfg p = c.flags cfg it
  cas : (c'.store.heap p).get_cas = fresh_cas cfg c.store.cas_id
  returned : (c'.store.heap it).it_flags.slabbed = false → (c'.store.heap it).get_cas = fresh_cas cfg c.store.cas_id

section
variable {cfg : Settings} {c c' : Cache} {it : Ptr} {n : Nat} {buf pre : List UInt8} {rounds : List Round}

theorem in_use_tagged {i : MemoryLru.Item} (htag : Store.Tagged cfg i) (hused : i.it_flags.slabbed = false) :
    i.it_flags.cas = cfg.use_cas := by
  rw [htag, hused]
  simp

theorem get_cas_set_cas {i : MemoryLru.Item} {v : UInt64} : (i.set_cas v).get_cas = if i.it_flags.cas then v else 0 := by
  cases h : i.it_flags.cas <;> simp [Item.set_cas, Item.get_cas, h]

theorem set_cas_item {i : MemoryLru.Item} {v : UInt64} : (i.set_cas v).key = i.key ∧ (i.set_cas v).exptime = i.exptime ∧
    (i.set_cas v).nbytes = i.nbytes ∧ (i.set_cas v).nsuffix = i.nsuffix ∧ (i.set_cas v).it_flags = i.it_flags := by
  simp only [Item.set_cas]
  split <;> exact ⟨rfl, rfl, rfl, rfl, rfl⟩

theorem line_end {k : Nat} {f : Nat → UInt8} (h : (List.range k).map f = pre ++ [13, 10]) :
    k = pre.length + 2 ∧ ∀ i (hi : i < [(13 : UInt8), 10].length), f (pre.length + i) = [(13 : UInt8), 10][i] := by
  have hlen := congrArg List.length h
  simp only [List.length_map, List.length_range, List.length_append, List.length_cons, List.length_nil] at hlen
  refine ⟨hlen, fun i hi => ?_⟩
  have hlt : i < 2 := hi
  have hget : ((List.range k).map f)[pre.length + i]? = (pre ++ [13, 10])[pre.length + i]? := by rw [h]
  rw [List.getElem?_append_right (by omega), Nat.add_sub_cancel_left, List.getElem?_map, List.getElem?_range (by omega),
    List.getElem?_eq_getElem hi] at hget
  exact Option.some.inj hget

theorem replace_in_place_stored (htag : Store.Tagged cfg (c.store.heap it))
    (hused : (c.store.heap it).it_flags.slabbed = false) (hl : (c.store.heap it).it_flags.linked)
    (ht : c.store.table (c.store.heap it).key = some it) (hline : c.bytes it = pre ++ [13, 10])
    (hfits : buf.length + 2 ≤ (c.store.heap it).nbytes) (h : c.replace_in_place cfg it buf = some c') :
    Stored cfg c it buf c' it := by
  obtain ⟨s₁, hupdate, rfl⟩ := replace_in_place_cases h
  have hkept := (Store.do_item_update_kept hupdate).1
  have halike : Alike ((c.store.heap it).set_cas (fresh_cas cfg c.store.cas_id)) (s₁.heap it) := by
    have hshape := hkept.shape
    have hcas := hkept.cas
    have hexptime := hkept.exptime
    rw [Store.modify_self] at hshape hcas hexptime
    exact ⟨hshape, hcas, hexptime⟩
  obtain ⟨hkey, hexptime, hnbytes, hnsuffix, hflags⟩ := @set_cas_item (c.store.heap it) (fresh_cas cfg c.store.cas_id)
  have hcas : (s₁.heap it).get_cas = fresh_cas cfg c.store.cas_id := by
    rw [halike.get_cas, get_cas_set_cas, in_use_tagged htag hused, fresh_cas]
    cases cfg.use_cas <;> rfl
  obtain ⟨hlen, hend⟩ := line_end hline
  refine ⟨?_, ?_, ⟨(c.store.heap it).nbytes - buf.length - 2, ?_⟩, halike.key.trans hkey, halike.exptime.trans hexptime, ?_,
    hcas, fun _ => hcas⟩
  · change s₁.table _ = _
    rw [hkept.rest]
    exact ht
  · change (s₁.heap it).it_flags.linked = true
    rw [halike.linked, hflags]
    exact hl
  · have hbytes := @write_write_bytes (List.replicate ((c.store.heap it).nbytes - buf.length - 2) 32) [13, 10] c it buf
      fun i hi => by
        rw [← hend i hi, List.length_replicate]
        congr 1
        omega
    rw [← hbytes]
    simp only [Cache.bytes, halike.nbytes, hnbytes, List.length_replicate, List.length_cons, List.length_nil]
    congr 2
    omega
  · change (if _ then _ else if (s₁.heap it).nsuffix > 0 then _ else _) = _
    rw [halike.nsuffix, hnsuffix]
    rfl

theorem set_cas_same {i : MemoryLru.Item} (hflag : i.it_flags.cas = cfg.use_cas) :
    i.set_cas (if cfg.use_cas then i.get_cas else 0) = i := by
  cases huse : cfg.use_cas with
  | true => simp [Item.set_cas, Item.get_cas, hflag, huse]
  | false => simp [Item.set_cas, hflag, huse]

/-- The item of an allocation. -/
structure MadeItem (cfg : Settings) (new : NewItem) (i : MemoryLru.Item) : Prop where
  key : i.key = new.key
  nbytes : i.nbytes = new.nbytes
  exptime : i.exptime = new.exptime
  nsuffix : i.nsuffix = new.nsuffix cfg
  linked : i.it_flags.linked = false
  cas : i.it_flags.cas = cfg.use_cas

theorem Allocates.item {new : NewItem} {s₀ : Store} (h : Allocates cfg c new c' s₀ n)
    (htag : ∀ n, Store.Tagged cfg (c.store.heap (.item n))) : MadeItem cfg new (c'.store.heap (.item n)) := by
  obtain ⟨large, clsid, hstore⟩ := h.store
  have hheap : c'.store.heap (.item n) = Store.made cfg new large clsid (s₀.heap (.item n)) := by
    rw [hstore]
    simp
  have hslabbed := h.slabbed
  have hlinked : (s₀.heap (.item n)).it_flags.linked = false := by
    obtain ⟨l, hc⟩ := h.sound
    by_contra hl
    exact (hc.placed (.item n)).kind.2 (by simpa using hl) hslabbed
  have hcas := in_use_tagged (h.keeps _ (Store.tagged_rule cfg) htag n) (by rw [hheap]; rfl)
  rw [hheap] at hcas ⊢
  exact ⟨rfl, rfl, rfl, rfl, hlinked, hcas⟩

theorem Allocates.cas_id {new : NewItem} {s₀ : Store} (h : Allocates cfg c new c' s₀ n) :
    c'.store.cas_id = c.store.cas_id := by
  obtain ⟨large, clsid, hstore⟩ := h.store
  rw [hstore]
  exact h.framed.cas_id

/-- After the new item `n` is linked, and the old one `k` has its CAS. -/
theorem replaced_items {s s₁ s₂ : Store} {k : Nat} (htag : ∀ n, Store.Tagged cfg (s.heap (.item n)))
    (hflag : (s.heap (.item n)).it_flags.cas = cfg.use_cas) (hl : (s.heap (.item n)).it_flags.linked = false)
    (hreplace : s.do_item_replace cfg (.item k) (.item n) = some s₁)
    (hrelease : (s₁.modify (.item k) fun i =>
      i.set_cas (if cfg.use_cas then (s₁.heap (.item n)).get_cas else 0)).release (.item n) = some s₂) :
    s₂.table (s.heap (.item n)).key = some (.item n) ∧
      Alike { s.heap (.item n) with
        it_flags := { (s.heap (.item n)).it_flags with linked := true }
        cas := if cfg.use_cas then s.cas_id + 1 else (s.heap (.item n)).cas } (s₂.heap (.item n)) ∧
      ((s₂.heap (.item k)).it_flags.slabbed = false → (s₂.heap (.item k)).get_cas = fresh_cas cfg s.cas_id) := by
  obtain ⟨htable, -, halike⟩ := do_item_replace_alike (by simp [hl]) hreplace
  have hcas_eq : (if (s.heap (.item n)).it_flags.cas then if cfg.use_cas then s.cas_id + 1 else 0
      else (s.heap (.item n)).cas) = if cfg.use_cas then s.cas_id + 1 else (s.heap (.item n)).cas := by
    rw [hflag]
    cases cfg.use_cas <;> rfl
  rw [hcas_eq] at halike
  have hflag₁ : (s₁.heap (.item n)).it_flags.cas = cfg.use_cas :=
    (Item.shape_congr (·.it_flags.cas) (fun _ => rfl) halike.shape).trans hflag
  have hfresh : (s₁.heap (.item n)).get_cas = fresh_cas cfg s.cas_id := by
    simp only [Item.get_cas, hflag₁, halike.cas, fresh_cas]
    cases cfg.use_cas <;> rfl
  have hvalue : (if cfg.use_cas then (s₁.heap (.item n)).get_cas else 0) = fresh_cas cfg s.cas_id := by
    rw [hfresh, fresh_cas]
    cases cfg.use_cas <;> rfl
  -- the store with the CAS of the new item in the old one
  have hset : (s₁.modify (.item k) fun i => i.set_cas (if cfg.use_cas then (s₁.heap (.item n)).get_cas else 0)).heap
      (.item n) = s₁.heap (.item n) := by
    by_cases hkn : (Ptr.item n) = .item k
    · rw [← hkn, Store.modify_self, set_cas_same hflag₁]
    · rw [Store.modify_of_ne hkn]
  obtain ⟨htable₂, -, halike₂⟩ := release_alike (by rw [hset, halike.linked]) hrelease
  rw [hset] at halike₂
  have hn := halike.trans halike₂
  refine ⟨by rw [htable₂]; exact htable, hn, fun hused => ?_⟩
  by_cases hkn : (Ptr.item k) = .item n
  · rw [hkn, halike₂.get_cas, hfresh]
  · have hsame := Pull.do_item_remove_core (Store.release_cases hrelease).2 hkn
    dsimp only at hsame
    rw [hsame, Store.modify_self] at hused ⊢
    have htag₁ := (Store.tagged_rule cfg).do_item_replace hreplace htag k
    rw [set_cas_item.2.2.2.2] at hused
    rw [get_cas_set_cas, in_use_tagged htag₁ hused, hvalue, fresh_cas]
    cases cfg.use_cas <;> rfl

theorem replace_item_stored {k : Nat} (hs : c.store.Sound) (htag : ∀ n, Store.Tagged cfg (c.store.heap (.item n)))
    (h : c.replace_item cfg (.item k) buf rounds = some (c', true)) : ∃ n, Stored cfg c (.item k) buf c' (.item n) := by
  obtain ⟨c₁, s₀, n, s₁, s₂, ha, hreplace, hrelease, rfl⟩ := replace_item_some hs h
  have hitem := ha.item htag
  obtain ⟨htable, halike, hreturned⟩ :=
    replaced_items (ha.keeps _ (Store.tagged_rule cfg) htag) hitem.cas hitem.linked hreplace hrelease
  rw [hitem.key] at htable
  rw [ha.cas_id] at halike hreturned
  have hflag : (s₂.heap (.item n)).it_flags.cas = cfg.use_cas :=
    (Item.shape_congr (·.it_flags.cas) (fun _ => rfl) halike.shape).trans hitem.cas
  refine ⟨n, htable, halike.linked, ⟨0, ?_⟩, halike.key.trans hitem.key, halike.exptime.trans hitem.exptime, ?_, ?_, hreturned⟩
  · have hbytes := @write_write_bytes [13, 10] [] c₁ (.item n) buf fun i hi => by cases hi
    rw [List.append_nil] at hbytes
    rw [List.replicate_zero, List.nil_append, ← hbytes]
    simp only [Cache.bytes, halike.nbytes, hitem.nbytes, Cache.delta_item_args]
    rfl
  · have hflags := item_suffix_flags cfg (c.delta_item_args cfg (.item k) buf) (c.suffix (.item n))
    simp only [Cache.flags, Cache.write, halike.nsuffix, hitem.nsuffix, ha.suffix, Function.update_self]
    exact hflags
  · simp only [Item.get_cas, hflag, halike.cas, fresh_cas]
    cases cfg.use_cas <;> rfl

end

end Memcached.SlabsCurd

import Memcached.MemoryLru.Lemmas.ItemFrames
import Memcached.MemoryLru.Lemmas.ItemRules
import Memcached.SlabsCurd.Lemmas.Numbers

/-!
# The ways through do_add_delta
-/

namespace Memcached.MemoryLru.Store

/-- Expired or flushed, for `do_item_get`. -/
def dead (s : Store) (it : Ptr) : Prop :=
  s.item_is_flushed (s.heap it) ∨ (s.heap it).exptime ≠ 0 ∧ (s.heap it).exptime ≤ s.current_time

end Memcached.MemoryLru.Store

namespace Memcached.SlabsCurd

open MemoryLru Decimal

/-- The text of the new value, in `buf`. -/
def delta_text (incr : Bool) (delta : Int64) (value : UInt64) : List UInt8 := digits (apply_delta incr delta value).toNat

theorem take_digits (v : UInt64) : (digits v.toNat).take (INCR_MAX_STORAGE_LEN - 1) = digits v.toNat := by
  refine List.take_of_length_le ?_
  have hlt := v.toNat_lt
  exact (length_digits_le (k := 20) (by decide) (by omega)).trans (by decide)

section
variable {cfg : Settings} {c c' : Cache} {key : MemoryLru.Key} {incr : Bool} {delta : Int64} {buf : List UInt8}
  {cas : Option UInt64} {rounds : List Round} {it : Ptr} {reply : Reply}

/-- The cache after `do_item_get`. -/
def Cache.taken (c : Cache) (it : Ptr) : Cache := { c with store := (c.store.refcount_incr it).hold it }

/-- How `do_add_delta` may end for an item that `do_item_get` returned, from the cache `c` after it. -/
inductive Ends (cfg : Settings) (c : Cache) (it : Ptr) (incr : Bool) (delta : Int64) (buf : List UInt8)
    (cas : Option UInt64) (rounds : List Round) : Reply → Prop
  | not_a_number (hnot : c.not_a_number it = true) : Ends cfg c it incr delta buf cas rounds ⟨c, .NON_NUMERIC, buf, cas⟩
  | cas_mismatch {c' : Cache} (hmismatch : c.cas_mismatch it cas = true) (hremove : c.do_item_remove it = some c') :
      Ends cfg c it incr delta buf cas rounds ⟨c', .DELTA_ITEM_CAS_MISMATCH, buf, cas⟩
  | non_numeric {c' : Cache} (hread : safe_strtoull (c.memory it) = none) (hremove : c.do_item_remove it = some c') :
      Ends cfg c it incr delta buf cas rounds ⟨c', .NON_NUMERIC, buf, cas⟩
  | in_place {c₁ c' : Cache} {value : UInt64} (hread : safe_strtoull (c.memory it) = some value)
      (hfits : (delta_text incr delta value).length + 2 ≤ (c.store.heap it).nbytes)
      (hwrite : c.replace_in_place cfg it (delta_text incr delta value) = some c₁)
      (hremove : c₁.do_item_remove it = some c') :
      Ends cfg c it incr delta buf cas rounds
        ⟨c', .OK, delta_text incr delta value, cas.map fun _ => (c₁.store.heap it).get_cas⟩
  | replaced {c₁ c' : Cache} {value : UInt64} (hread : safe_strtoull (c.memory it) = some value)
      (hreplace : c.replace_item cfg it (delta_text incr delta value) rounds = some (c₁, true))
      (hremove : c₁.do_item_remove it = some c') :
      Ends cfg c it incr delta buf cas rounds
        ⟨c', .OK, delta_text incr delta value, cas.map fun _ => (c₁.store.heap it).get_cas⟩
  | no_memory {c₁ c' : Cache} {value : UInt64}
      (hreplace : c.replace_item cfg it (delta_text incr delta value) rounds = some (c₁, false))
      (hremove : c₁.do_item_remove it = some c') :
      Ends cfg c it incr delta buf cas rounds ⟨c', .EOM, delta_text incr delta value, cas⟩
  | last {c' : Cache} {value : UInt64} (hrefs : (c.store.heap it).refcount = 1) (hremove : c.do_item_remove it = some c') :
      Ends cfg c it incr delta buf cas rounds ⟨c', .DELTA_ITEM_NOT_FOUND, delta_text incr delta value, cas⟩
  | wrapped {value : UInt64} (hnumber : c.not_a_number it = false) (hmatch : c.cas_mismatch it cas = false)
      (hread : safe_strtoull (c.memory it) = some value) (hrefs : (c.store.heap it).refcount = 0) :
      Ends cfg c it incr delta buf cas rounds ⟨c, .DELTA_ITEM_NOT_FOUND, delta_text incr delta value, cas⟩

theorem finish_delta_cases (h : c.finish_delta it buf cas = some reply) : ∃ c', c.do_item_remove it = some c' ∧
    reply = ⟨c', .OK, buf, cas.map fun _ => (c.store.heap it).get_cas⟩ := by
  obtain ⟨c', hremove, h⟩ := Option.bind_eq_some_iff.mp h
  exact ⟨c', hremove, (Option.some.inj h).symm⟩

theorem delta_item_cases (h : c.delta_item cfg it incr delta buf cas rounds = some reply) :
    Ends cfg c it incr delta buf cas rounds reply := by
  simp only [Cache.delta_item] at h
  split at h
  · next hnot => cases h; exact .not_a_number hnot
  next hnumber =>
  split at h
  · next hmismatch =>
    obtain ⟨c', hremove, h⟩ := Option.bind_eq_some_iff.mp h
    cases h
    exact .cas_mismatch hmismatch hremove
  next hmatch =>
  split at h
  · next hread =>
    obtain ⟨c', hremove, h⟩ := Option.bind_eq_some_iff.mp h
    cases h
    exact .non_numeric hread hremove
  next value hread =>
  simp only [Cache.store_delta, take_digits] at h
  rw [← delta_text] at h
  split at h
  · next hfits =>
    obtain ⟨c₁, hwrite, h⟩ := Option.bind_eq_some_iff.mp h
    obtain ⟨c', hremove, rfl⟩ := finish_delta_cases h
    exact .in_place hread hfits.1 hwrite hremove
  split at h
  · obtain ⟨⟨c₁, replaced⟩, hreplace, h⟩ := Option.bind_eq_some_iff.mp h
    cases replaced with
    | true =>
        obtain ⟨c', hremove, rfl⟩ := finish_delta_cases h
        exact .replaced hread hreplace hremove
    | false =>
        obtain ⟨c', hremove, h⟩ := Option.bind_eq_some_iff.mp h
        cases h
        exact .no_memory hreplace hremove
  next hrefs =>
  split at h
  · next hone =>
    obtain ⟨c', hremove, h⟩ := Option.bind_eq_some_iff.mp h
    cases h
    exact .last hone hremove
  · next hone =>
    cases h
    refine .wrapped (by simpa using hnumber) (by simpa using hmatch) hread ?_
    rw [← UInt16.toNat_inj]
    rw [gt_iff_lt, UInt16.lt_iff_toNat_lt] at hrefs
    rw [← UInt16.toNat_inj] at hone
    simp only [UInt16.reduceToNat] at hrefs hone ⊢
    omega

theorem do_add_delta_cases (h : do_add_delta cfg c key incr delta buf cas rounds = some reply) :
    (c.store.table key = none ∧ reply = ⟨c, .DELTA_ITEM_NOT_FOUND, buf, cas⟩) ∨
      ∃ it, c.store.table key = some it ∧
        ((c.store.dead it ∧ ∃ s₁ s', (c.store.refcount_incr it).do_item_unlink it = some s₁ ∧
            s₁.do_item_remove it = some s' ∧ reply = ⟨{ c with store := s' }, .DELTA_ITEM_NOT_FOUND, buf, cas⟩) ∨
          ¬ c.store.dead it ∧ Ends cfg (c.taken it) it incr delta buf cas rounds reply) := by
  obtain ⟨⟨s, r⟩, hget, h⟩ := Option.bind_eq_some_iff.mp h
  obtain ⟨htable, rfl, rfl⟩ | ⟨it, htable, ⟨hdead, rfl, s₁, hunlink, hremove⟩ | ⟨hlive, rfl, s₁, rfl, hs₁⟩⟩ :=
    Store.do_item_get_cases hget
  · exact .inl ⟨htable, (Option.some.inj h).symm⟩
  · exact .inr ⟨it, htable, .inl ⟨hdead, s₁, s, hunlink, hremove, (Option.some.inj h).symm⟩⟩
  · obtain ⟨-, rfl⟩ | ⟨hfalse, -⟩ := hs₁
    · exact .inr ⟨it, htable, .inr ⟨hlive, delta_item_cases h⟩⟩
    · cases hfalse

/-! ## References -/

theorem entry_linked (hs : c.store.Sound) (ht : c.store.table key = some it) :
    (∃ n, it = .item n) ∧ (c.store.heap it).it_flags.linked ∧ (c.store.heap it).key = key := by
  refine ⟨hs.is_item ht, ?_⟩
  obtain ⟨l, hc⟩ := hs
  exact (((hc.placed it).table key).mp ht).2

theorem remove_taken (hl : (c.store.heap it).it_flags.linked) (h : (c.taken it).do_item_remove it = some c') :
    c' = c := by
  obtain ⟨s', hrelease, h⟩ := Option.bind_eq_some_iff.mp h
  cases h
  obtain ⟨-, hremove⟩ := Store.release_cases hrelease
  obtain rfl := Store.do_item_remove_linked hremove (by simpa [Cache.taken, Store.hold, Store.refcount_incr] using hl)
  simp [Cache.taken, Store.hold, Store.refcount_incr, Store.refcount_decr, Store.modify]

/-- What pulls leave of an item to which there is a reference, and of all others. -/
theorem release_framed {s s₁ s' : Store} (hl : (s.heap it).it_flags.linked)
    (hf : Store.Framed ((s.refcount_incr it).hold it) s₁) (h : s₁.release it = some s') : Store.Framed s s' := by
  obtain ⟨-, hremove⟩ := Store.release_cases h
  refine ⟨fun p => ?_, (Store.do_item_remove_cas_id hremove).trans hf.cas_id⟩
  by_cases hp : p = it
  · subst hp
    by_cases hnow : (s₁.heap p).it_flags.linked
    · obtain rfl := Store.do_item_remove_linked hremove hnow
      obtain ⟨hshape, hcas, hexptime, hrefs⟩ := hf.linked hnow
      simp only [Store.hold, Store.refcount_incr, Store.modify_self] at hshape hcas hexptime hrefs
      refine .inl ⟨?_, ?_, ?_, ?_⟩
      · simpa [Store.refcount_decr, Item.shape] using hshape
      · simpa [Store.refcount_decr] using hcas
      · simpa [Store.refcount_decr] using hexptime
      · simp [Store.refcount_decr, hrefs]
    · exact .inr ⟨hl, Store.do_item_remove_unlinked hremove hnow⟩
  · have hother := Pull.do_item_remove_core hremove hp
    dsimp only at hother
    have htaken : ((s.refcount_incr it).hold it).heap p = s.heap p := by simp [Store.hold, Store.refcount_incr, Store.modify, hp]
    rcases hf.items p with hs | hr
    · exact .inl ⟨by rw [hother, hs.shape, htaken], by rw [hother, hs.cas, htaken], by rw [hother, hs.exptime, htaken],
        by rw [hother, hs.refcount, htaken]⟩
    · exact .inr ⟨htaken ▸ hr.linked, by rw [hother]; exact hr.unlinked⟩

theorem dead_framed {s s₁ s' : Store} (hl : (s.heap it).it_flags.linked)
    (hunlink : (s.refcount_incr it).do_item_unlink it = some s₁) (hremove : s₁.do_item_remove it = some s') :
    (∀ p, p ≠ it → Store.Stays s s' p) ∧ Store.Removed s s' it := by
  refine ⟨fun p hp => .of_core ?_, hl, Store.do_item_remove_unlinked hremove (Store.do_item_unlink_unlinked hunlink)⟩
  rw [Pull.do_item_remove_core hremove hp, Pull.do_item_unlink_core hunlink hp, Store.refcount_incr_kept.core p hp]

theorem do_item_alloc_none {new : NewItem} (hs : c.store.Sound)
    (h : c.do_item_alloc cfg new rounds = some (c', none)) :
    ∃ s, s.Sound ∧ Store.Framed c.store s ∧ c' = { c with store := s } := by
  obtain ⟨⟨s, r⟩, halloc, h⟩ := Option.bind_eq_some_iff.mp h
  obtain ⟨rfl, hs', hf⟩ | ⟨s₀, n, large, clsid, -, rfl, -⟩ :=
    Store.do_item_alloc_made (I := fun t => t.Sound ∧ Store.Framed c.store t)
      (fun ht hflag hp => ⟨ht.1.lru_pull_tail hp, ht.2.lru_pull_tail ht.1 hflag hp⟩) ⟨hs, .refl⟩ halloc
  · cases h; exact ⟨s, hs', hf, rfl⟩
  · cases h

theorem replace_item_none (hs : c.store.Sound) (h : c.replace_item cfg it buf rounds = some (c', false)) :
    ∃ s, s.Sound ∧ Store.Framed c.store s ∧ c' = { c with store := s } := by
  obtain ⟨⟨c₁, r⟩, halloc, h⟩ := Option.bind_eq_some_iff.mp h
  cases r with
  | none => cases h; exact do_item_alloc_none hs halloc
  | some new_it =>
      obtain ⟨s, -, h⟩ := Option.bind_eq_some_iff.mp h
      obtain ⟨c₂, -, h⟩ := Option.bind_eq_some_iff.mp h
      cases h

/-! ## The new item -/

/-- The arguments with which `do_add_delta` allocates. -/
def Cache.delta_item_args (cfg : Settings) (c : Cache) (it : Ptr) (buf : List UInt8) : NewItem :=
  ⟨(c.store.heap it).key, c.flags cfg it, (c.store.heap it).exptime, buf.length + 2⟩

/-- The new item `n` was allocated in `s₀`, which differs from the store before by pulls alone. -/
structure Allocates (cfg : Settings) (c : Cache) (new : NewItem) (c' : Cache) (s₀ : Store) (n : Nat) : Prop where
  sound : s₀.Sound
  framed : Store.Framed c.store s₀
  slabbed : (s₀.heap (.item n)).it_flags.slabbed
  store : ∃ large clsid, c'.store = { s₀ with
    heap := Function.update s₀.heap (.item n) (Store.made cfg new large clsid (s₀.heap (.item n)))
    allocs := .item n :: s₀.allocs
    held := Function.update s₀.held (.item n) (s₀.held (.item n) + 1) }
  sound' : c'.store.Sound
  keeps : ∀ I, Store.ItemRule cfg I → Store.Keeps I c.store c'.store
  data : c'.data = c.data
  suffix : c'.suffix = Function.update c.suffix (.item n) (item_suffix cfg new (c.suffix (.item n)))

theorem do_item_alloc_some {new : NewItem} {p : Ptr} (hs : c.store.Sound)
    (h : c.do_item_alloc cfg new rounds = some (c', some p)) :
    ∃ s₀ n, p = .item n ∧ Allocates cfg c new c' s₀ n := by
  obtain ⟨⟨s, r⟩, halloc, h⟩ := Option.bind_eq_some_iff.mp h
  have hsound := hs.do_item_alloc halloc
  obtain ⟨rfl, -⟩ | ⟨s₀, n, large, clsid, ⟨hs₀, hf⟩, rfl, hslabbed, -, rfl⟩ :=
    Store.do_item_alloc_made (I := fun t => t.Sound ∧ Store.Framed c.store t)
      (fun ht hflag hp => ⟨ht.1.lru_pull_tail hp, ht.2.lru_pull_tail ht.1 hflag hp⟩) ⟨hs, .refl⟩ halloc
  · cases h
  · cases h
    exact ⟨s₀, n, rfl, hs₀, hf, hslabbed, ⟨large, clsid, rfl⟩, hsound, fun _ hI => hI.do_item_alloc hs halloc, rfl, rfl⟩

theorem replace_item_some (hs : c.store.Sound) (h : c.replace_item cfg it buf rounds = some (c', true)) :
    ∃ c₁ s₀ n s₁ s₂, Allocates cfg c (c.delta_item_args cfg it buf) c₁ s₀ n ∧
      c₁.store.do_item_replace cfg it (.item n) = some s₁ ∧
      (s₁.modify it fun i => i.set_cas (if cfg.use_cas then (s₁.heap (.item n)).get_cas else 0)).release (.item n) =
        some s₂ ∧
      c' = { (c₁.write (.item n) 0 buf).write (.item n) buf.length [13, 10] with store := s₂ } := by
  obtain ⟨⟨c₁, r⟩, halloc, h⟩ := Option.bind_eq_some_iff.mp h
  cases r with
  | none => cases h
  | some p =>
      obtain ⟨s₀, n, rfl, ha⟩ := do_item_alloc_some hs halloc
      obtain ⟨s₁, hreplace, h⟩ := Option.bind_eq_some_iff.mp h
      obtain ⟨c₂, hremove, h⟩ := Option.bind_eq_some_iff.mp h
      obtain ⟨s₂, hrelease, hremove⟩ := Option.bind_eq_some_iff.mp hremove
      cases hremove
      cases h
      exact ⟨c₁, s₀, n, s₁, s₂, ha, hreplace, hrelease, rfl⟩

theorem replace_in_place_cases (h : c.replace_in_place cfg it buf = some c') : ∃ s₁,
    Store.do_item_update cfg ({ c.store with cas_id := if cfg.use_cas then c.store.cas_id + 1 else c.store.cas_id }.modify it
      fun i => i.set_cas (if cfg.use_cas then c.store.cas_id + 1 else 0)) it = some s₁ ∧
      c' = { (c.write it 0 buf).write it buf.length
        (List.replicate ((c.store.heap it).nbytes - buf.length - 2) 32) with store := s₁ } := by
  obtain ⟨s₁, hupdate, h⟩ := Option.bind_eq_some_iff.mp h
  have hnbytes {v : UInt64} : ((c.store.heap it).set_cas v).nbytes = (c.store.heap it).nbytes := by
    simp only [Item.set_cas]
    split <;> rfl
  cases huse : cfg.use_cas with
  | true =>
      rw [huse] at hupdate h
      refine ⟨s₁, hupdate, ?_⟩
      rw [← Option.some.inj h]
      simp [Cache.write, hnbytes]
  | false =>
      rw [huse] at hupdate h
      refine ⟨s₁, hupdate, ?_⟩
      rw [← Option.some.inj h]
      simp [Cache.write, hnbytes]

/-! ## Invariants -/

theorem set_cas_shape {i : MemoryLru.Item} {v : UInt64} : (i.set_cas v).shape = i.shape := by
  simp only [Item.set_cas]
  split <;> rfl

theorem set_cas_links {i : MemoryLru.Item} {v : UInt64} : (i.set_cas v).next = i.next ∧ (i.set_cas v).prev = i.prev ∧
    (i.set_cas v).slabs_clsid = i.slabs_clsid := by
  simp only [Item.set_cas]
  split <;> exact ⟨rfl, rfl, rfl⟩

/-- Sound stores stay sound, and so does what holds of single items. -/
def Advances (cfg : Settings) (s s' : Store) : Prop :=
  s.Sound → s'.Sound ∧ ∀ I, Store.ItemRule cfg I → Store.Keeps I s s'

theorem Advances.trans {s s' s'' : Store} (h : Advances cfg s s') (h' : Advances cfg s' s'') : Advances cfg s s'' := by
  intro hs
  obtain ⟨hs', hkeep⟩ := h hs
  obtain ⟨hs'', hkeep'⟩ := h' hs'
  exact ⟨hs'', fun I hI => (hkeep I hI).trans (hkeep' I hI)⟩

variable {n : Nat} {s s' : Store}

theorem release_advances (h : s.release (.item n) = some s') : Advances cfg s s' :=
  fun hs => ⟨hs.release h, fun _ hI => hI.release h⟩

theorem remove_advances (h : c.do_item_remove (.item n) = some c') : Advances cfg c.store c'.store := by
  obtain ⟨s', hrelease, h⟩ := Option.bind_eq_some_iff.mp h
  cases h
  exact release_advances hrelease

theorem set_cas_advances {v cas_id : UInt64} :
    Advances cfg s ({ s with cas_id := cas_id }.modify (.item n) fun i => i.set_cas v) := by
  intro hs
  have hid : ({ s with cas_id := cas_id } : Store).Sound := hs.congr rfl
  refine ⟨hid.modify fun i => ⟨set_cas_shape, set_cas_links⟩, fun I hI => ?_⟩
  refine hI.one (p := .item n) (fun hp => hI.shape ?_ hp) fun q hq => ?_
  · rw [Store.modify_self]
    exact set_cas_shape
  · rw [Store.modify_of_ne hq]

theorem replace_in_place_advances (h : c.replace_in_place cfg (.item n) buf = some c') :
    Advances cfg c.store c'.store := by
  obtain ⟨s₁, hupdate, rfl⟩ := replace_in_place_cases h
  exact set_cas_advances.trans fun hs => ⟨hs.do_item_update hupdate, fun _ hI => hI.do_item_update hupdate⟩

theorem Allocates.free_key {new : NewItem} {s₀ : Store} {k : Nat} (h : Allocates cfg c new c' s₀ n) (hs : c.store.Sound)
    (ht : c.store.table new.key = some (.item k)) :
    c'.store.table (c'.store.heap (.item n)).key = none ∨ c'.store.table (c'.store.heap (.item n)).key = some (.item k) := by
  obtain ⟨large, clsid, hstore⟩ := h.store
  rw [hstore]
  simp only [Function.update_self, Store.made]
  rcases h.framed.table hs h.sound new.key with heq | ⟨-, -, -, hnone⟩
  · exact .inr (heq.trans ht)
  · exact .inl hnone

theorem replace_item_advances {k : Nat} {replaced : Bool} (ht : c.store.table (c.store.heap (.item k)).key = some (.item k))
    (h : c.replace_item cfg (.item k) buf rounds = some (c', replaced)) : Advances cfg c.store c'.store := by
  intro hs
  cases replaced with
  | true =>
      obtain ⟨c₁, s₀, n, s₁, s₂, ha, hreplace, hrelease, rfl⟩ := replace_item_some hs h
      have hsound := ha.sound'.do_item_replace (ha.free_key hs ht) hreplace
      obtain ⟨hs₂, hkeeps⟩ := (set_cas_advances.trans (release_advances hrelease)) hsound
      exact ⟨hs₂, fun I hI => (ha.keeps I hI).trans ((hI.do_item_replace hreplace).trans (hkeeps I hI))⟩
  | false =>
      obtain ⟨⟨c₁, r⟩, halloc, h⟩ := Option.bind_eq_some_iff.mp h
      cases r with
      | none =>
          cases h
          obtain ⟨⟨s, r⟩, halloc', h⟩ := Option.bind_eq_some_iff.mp halloc
          cases r with
          | none => cases h; exact ⟨hs.do_item_alloc halloc', fun _ hI => hI.do_item_alloc hs halloc'⟩
          | some p => cases h
      | some p =>
          obtain ⟨s, -, h⟩ := Option.bind_eq_some_iff.mp h
          obtain ⟨c₂, -, h⟩ := Option.bind_eq_some_iff.mp h
          cases h

theorem taken_advances {k : Nat} : Advances cfg c.store (c.taken (.item k)).store := by
  intro hs
  have hincr : (c.store.refcount_incr (.item k)).Sound := hs.refcount_incr
  exact ⟨hincr.congr rfl, fun I hI => (hI.kept Store.refcount_incr_kept).trans (.of_heap rfl)⟩

theorem do_add_delta_advances (h : do_add_delta cfg c key incr delta buf cas rounds = some reply) :
    Advances cfg c.store reply.cache.store := by
  intro hs
  obtain ⟨-, rfl⟩ | ⟨it, ht, hends⟩ := do_add_delta_cases h
  · exact ⟨hs, fun _ _ => .refl⟩
  obtain ⟨⟨k, rfl⟩, -, hkey⟩ := entry_linked hs ht
  obtain ⟨-, s₁, s', hunlink, hremove, rfl⟩ | ⟨-, hends⟩ := hends
  · exact ⟨(hs.refcount_incr.do_item_unlink hunlink).do_item_remove hremove, fun I hI =>
      (hI.kept Store.refcount_incr_kept).trans ((hI.do_item_unlink hunlink).trans (hI.do_item_remove hremove))⟩
  have htaken : (c.taken (.item k)).store.table ((c.taken (.item k)).store.heap (.item k)).key = some (.item k) := by
    have hsame : ((c.taken (.item k)).store.heap (.item k)).key = key := by
      simp [Cache.taken, Store.hold, Store.refcount_incr, hkey]
    rw [hsame]
    exact ht
  have hadv : Advances cfg c.store (c.taken (.item k)).store := taken_advances
  cases hends with
  | not_a_number _ => exact hadv hs
  | cas_mismatch _ hremove => exact (hadv.trans (remove_advances hremove)) hs
  | non_numeric _ hremove => exact (hadv.trans (remove_advances hremove)) hs
  | in_place _ _ hwrite hremove =>
      exact (hadv.trans ((replace_in_place_advances hwrite).trans (remove_advances hremove))) hs
  | replaced _ hreplace hremove =>
      exact (hadv.trans ((replace_item_advances htaken hreplace).trans (remove_advances hremove))) hs
  | no_memory hreplace hremove =>
      exact (hadv.trans ((replace_item_advances htaken hreplace).trans (remove_advances hremove))) hs
  | last _ hremove => exact (hadv.trans (remove_advances hremove)) hs
  | wrapped _ _ _ _ => exact hadv hs

end

end Memcached.SlabsCurd

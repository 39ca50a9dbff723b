import Memcached.MemoryLru.Lemmas.ItemEffects

/-!
# Every function on items keeps the store consistent
-/

namespace Memcached.MemoryLru

namespace Store

/-- Some lists make the store consistent. -/
def Sound (s : Store) : Prop := ∃ l, Consistent s l

section
variable {s s' : Store} {l : UInt8 → List Ptr} {it p : Ptr} {n : Nat} {id : UInt8} {cfg : Settings}

/-! ## Lists -/

theorem mem_update_cons (hp : p ≠ it) (j : UInt8) : p ∈ Function.update l id (it :: l id) j ↔ p ∈ l j := by
  by_cases hj : j = id
  · subst hj; simp [hp]
  · simp [hj]

theorem mem_update_erase (hp : p ≠ it) (j : UInt8) : p ∈ Function.update l id ((l id).erase it) j ↔ p ∈ l j := by
  by_cases hj : j = id
  · subst hj; simp [List.mem_erase_of_ne hp]
  · simp [hj]

theorem Counted.not_mem_erase (hc : Counted s l) (hmem : it ∈ l id) (j : UInt8) :
    it ∉ Function.update l id ((l id).erase it) j := by
  by_cases hj : j = id
  · subst hj
    simpa using (hc.holds j).nodup.not_mem_erase
  · intro hm
    exact hj (hc.unique (by simpa [hj] using hm) hmem)

/-! ## Changes to one item -/

theorem Sound.modify {f : Item → Item} (h : Sound s)
    (hf : ∀ i, (f i).shape = i.shape ∧ (f i).next = i.next ∧ (f i).prev = i.prev ∧ (f i).slabs_clsid = i.slabs_clsid) :
    Sound (s.modify (.item n) f) := by
  obtain ⟨l, hc⟩ := h
  exact ⟨l, hc.modify hf⟩

theorem Sound.refcount_incr (h : Sound s) : Sound (s.refcount_incr (.item n)) := h.modify fun _ => ⟨rfl, rfl, rfl, rfl⟩

theorem Sound.refcount_decr (h : Sound s) : Sound (s.refcount_decr (.item n)) := h.modify fun _ => ⟨rfl, rfl, rfl, rfl⟩

theorem Sound.set_time (h : Sound s) : Sound (s.set_time (.item n)) := h.modify fun _ => ⟨rfl, rfl, rfl, rfl⟩

theorem Sound.mark {fetched active : Bool} (h : Sound s) : Sound (s.mark (.item n) fetched active) :=
  h.modify fun _ => ⟨rfl, rfl, rfl, rfl⟩

theorem Sound.set_active {active : Bool} (h : Sound s) : Sound (s.set_active (.item n) active) :=
  h.modify fun _ => ⟨rfl, rfl, rfl, rfl⟩

theorem Sound.congr (h : Sound s) (hs : s' = { s with
    cas_id := s'.cas_id, current_time := s'.current_time, oldest_live := s'.oldest_live, oldest_cas := s'.oldest_cas
    remaining := s'.remaining, bump_bufs := s'.bump_bufs, held := s'.held, allocs := s'.allocs, frees := s'.frees, log := s'.log }) : Sound s' := by
  obtain ⟨l, hc⟩ := h
  rw [hs]
  exact ⟨l, { hc with placed := fun p => ⟨(hc.placed p).linked, (hc.placed p).table, (hc.placed p).kind⟩ }⟩

theorem Consistent.modify_unlinked {f : Item → Item} (hc : Consistent s l) (hold : ¬ (s.heap (.item n)).it_flags.linked)
    (hnew : ¬ (f (s.heap (.item n))).it_flags.linked)
    (hlive : ¬ (f (s.heap (.item n))).it_flags.slabbed → 2 ≤ (f (s.heap (.item n))).nbytes) :
    Consistent (s.modify (.item n) f) l := by
  have hnone := hc.not_mem hold
  have hne (id) (p) (hp : p ∈ l id) : p ≠ .item n := fun he => hnone id (he ▸ hp)
  have htotal {g : Item → UInt64} : (s.modify (.item n) f).total g l = s.total g l :=
    total_congr fun id p hp => by rw [modify_of_ne (hne id p hp)]
  refine hc.of_one (q := .item n) (hc.toCounted.modify fun id hm => absurd hm (hnone id)) ?_
    (fun p hp => by rw [modify_of_ne hp]) (fun _ _ _ => Iff.rfl) (fun _ _ _ => Iff.rfl) ?_ ?_
  · refine ⟨?_, fun k => ?_, ?_⟩
    · rw [modify_self]
      exact iff_of_false (hnone _) hnew
    · rw [modify_self]
      exact iff_of_false (fun he => hold (((hc.placed _).table k).mp he).2.1) fun he => hnew he.2.1
    · rw [modify_self]
      exact ⟨hlive, fun hl => absurd hl hnew⟩
  · rw [htotal]
    exact hc.curr_items
  · rw [htotal]
    exact hc.curr_bytes

theorem Sound.modify_unlinked {f : Item → Item} (h : Sound s) (hold : ¬ (s.heap (.item n)).it_flags.linked)
    (hnew : ¬ (f (s.heap (.item n))).it_flags.linked)
    (hlive : ¬ (f (s.heap (.item n))).it_flags.slabbed → 2 ≤ (f (s.heap (.item n))).nbytes) :
    Sound (s.modify (.item n) f) := by
  obtain ⟨l, hc⟩ := h
  exact ⟨l, hc.modify_unlinked hold hnew hlive⟩

theorem Sound.do_item_remove (h : Sound s) (hr : s.do_item_remove (.item n) = some s') : Sound s' := by
  obtain ⟨-, ⟨-, -, rfl⟩ | ⟨-, hl, rfl⟩⟩ := do_item_remove_cases hr
  · exact h.refcount_decr
  · exact (h.modify_unlinked (n := n) hl (by simp [Flags.zero]) (by simp)).congr rfl

/-! ## Queues -/

/-- Between `do_item_unlink_q` and `do_item_link_q` an item is linked, but in no queue. -/
def Loose (s : Store) (it : Ptr) : Prop :=
  ∃ s₀, Sound s₀ ∧ (s₀.heap it).it_flags.linked ∧ s₀.do_item_unlink_q it = some s

theorem Kept.total {f : Item → UInt64} (h : Kept s s' it) (hf : ∀ i : Item, f i.shape = f i) :
    s'.total f l = s.total f l := by
  refine total_congr fun id p _ => ?_
  by_cases hp : p = it
  · subst hp; exact Item.shape_congr f hf h.shape
  · exact Item.shape_congr f hf (Item.shape_of_core (h.core p hp))

theorem Loose.link {f : Item → Item} (h : Loose s (.item n)) (hf : Kept s (s.modify (.item n) f) (.item n))
    (hlink : (s.modify (.item n) f).do_item_link_q (.item n) = some s') : Sound s' := by
  obtain ⟨s₀, ⟨l, hc⟩, hl, hunlink⟩ := h
  have hmem := (hc.placed _).linked.mpr hl
  have hcount := do_item_unlink_q_counted hc.toCounted rfl hmem hunlink
  have hnew := hc.not_mem_erase hmem
  have herase {g : Item → UInt64} : s'.total g _ = s'.total g l - g (s'.heap (.item n)) := total_erase rfl hmem
  have hother (p) (hp : p ≠ .item n) (j) : p ∈ Function.update l (s₀.heap (.item n)).slabs_clsid _ j ↔ p ∈ l j :=
    mem_update_erase hp j
  generalize Function.update l _ _ = l₁ at hcount hnew herase hother
  have hcount' := do_item_link_q_counted (hcount.modify (f := f) fun id hm => absurd hm (hnew id)) rfl hnew hlink
  have hcore := do_item_link_q_core hlink
  have hkept : Kept s₀ s' (.item n) := (((do_item_unlink_q_core hunlink).kept _).trans hf).trans (hcore.kept _)
  have htotal {g : Item → UInt64} (hg : ∀ i : Item, g i.shape = g i) (id : UInt8) :
      s'.total g (Function.update l₁ id (.item n :: l₁ id)) = s₀.total g l := by
    rw [total_cons rfl, herase, hkept.total hg]
    exact sub_add_cancel _ _
  refine ⟨_, hc.of_one (q := .item n) hcount' ?_ hkept.core (fun p hp j => ?_) (fun p _ k => by rw [hkept.rest]) ?_ ?_⟩
  · refine (hc.placed _).of_shape hkept.shape (iff_of_true ?_ hmem) fun k => by rw [hkept.rest]
    have hclsid : (s'.heap (.item n)).slabs_clsid = ((s.modify (.item n) f).heap (.item n)).slabs_clsid :=
      Item.core_congr Item.slabs_clsid (fun _ => rfl) (hcore.core _)
    simp [hclsid]
  · rw [mem_update_cons hp, hother p hp]
  · rw [htotal fun _ => rfl, ← hc.curr_items, hkept.rest]
  · rw [htotal fun _ => rfl, ← hc.curr_bytes, hkept.rest]

theorem Sound.relinked (h : Sound s) (hl : (s.heap (.item n)).it_flags.linked) (hr : Relinked s s' (.item n)) :
    Sound s' := by
  obtain ⟨s₁, f, hunlink, hkept, -, hlink⟩ := hr
  exact Loose.link ⟨s, h, hl, hunlink⟩ hkept hlink

theorem Sound.do_item_update_nolock (h : Sound s) (hu : s.do_item_update_nolock (.item n) = some s') : Sound s' := by
  rcases do_item_update_nolock_cases hu with rfl | ⟨hl, hr⟩
  · exact h
  · exact h.relinked hl hr

theorem Sound.do_item_update (h : Sound s) (hu : s.do_item_update cfg (.item n) = some s') : Sound s' := by
  rcases do_item_update_cases hu with rfl | rfl | ⟨hl, hr⟩
  · exact h
  · exact h.set_time
  · exact h.set_time.relinked (by simpa [Store.set_time] using hl) hr

/-! ## Links -/

theorem Counted.congr (hc : Counted s l) (hheap : s'.heap = s.heap) (hheads : s'.heads = s.heads)
    (htails : s'.tails = s.tails) (hsizes : s'.sizes = s.sizes) (hbytes : s'.sizes_bytes = s.sizes_bytes) :
    Counted s' l := by
  refine ⟨fun id => ?_, fun id p hp => ?_, fun id => ?_, fun id => ?_⟩
  · simpa [queue, hheap, hheads, htails] using hc.holds id
  · rw [hheap]; exact hc.clsid id p hp
  · rw [hsizes]; exact hc.sizes id
  · rw [hbytes, hc.sizes_bytes, bytes, bytes, hheap]

theorem linking_kept {cas cas_id : UInt64} (hp : p ≠ it) : ((s.linking it cas cas_id).heap p) = s.heap p := by
  simp [linking, hp]

theorem unlinking_kept (hp : p ≠ it) : ((s.unlinking it).heap p) = s.heap p := by simp [unlinking, hp]

theorem Sound.do_item_link (h : Sound s) (hkey : s.table (s.heap (.item n)).key = none)
    (hl : s.do_item_link cfg (.item n) = some s') : Sound s' := by
  obtain ⟨l, hc⟩ := h
  obtain ⟨hnot, hslabbed, cas, cas_id, s₁, hlink, rfl⟩ := do_item_link_cases hl
  refine Sound.refcount_incr ?_
  have hnone := hc.not_mem hnot
  have hcount : Counted (s.linking (.item n) cas cas_id) l :=
    (hc.toCounted.modify (p := .item n) (f := fun _ => (s.linking (.item n) cas cas_id).heap (.item n))
      fun id hm => absurd hm (hnone id)).congr (by simp [linking, Store.modify]) rfl rfl rfl rfl
  have hcount' := do_item_link_q_counted hcount rfl hnone hlink
  have hcore := do_item_link_q_core hlink
  have hother (p) (hp : p ≠ .item n) : (s₁.heap p).core = (s.heap p).core := by rw [hcore.core, linking_kept hp]
  have htotal {g : Item → UInt64} (hg : ∀ i : Item, g i.core = g i) : s₁.total g l = s.total g l :=
    total_congr fun id p hp => Item.core_congr g hg (hother p fun he => hnone id (he ▸ hp))
  have hit : (s₁.heap (.item n)).core = ((s.linking (.item n) cas cas_id).heap (.item n)).core := hcore.core _
  have hlinked : (s₁.heap (.item n)).it_flags.linked = true := by
    rw [Item.core_congr (·.it_flags.linked) (fun _ => rfl) hit]; simp [linking]
  have hkey' : (s₁.heap (.item n)).key = (s.heap (.item n)).key := by
    rw [Item.core_congr Item.key (fun _ => rfl) hit]; simp [linking]
  have htable : s₁.table = Function.update s.table (s.heap (.item n)).key (some (.item n)) := by rw [hcore.rest]; rfl
  refine ⟨_, hc.of_one (q := .item n) hcount' ⟨?_, fun k => ?_, ?_⟩ hother (fun p hp j => mem_update_cons hp j)
    (fun p hp k => ?_) ?_ ?_⟩
  · refine iff_of_true ?_ hlinked
    simp [Item.core_congr Item.slabs_clsid (fun _ => rfl) hit]
  · rw [htable, hlinked, hkey']
    by_cases hk : k = (s.heap (.item n)).key
    · subst hk; simp
    · simp only [Function.update_of_ne hk]
      exact iff_of_false (fun he => hnot (((hc.placed _).table k).mp he).2.1) fun he => hk he.2.2.symm
  · have hflags : (s₁.heap (.item n)).it_flags.slabbed = (s.heap (.item n)).it_flags.slabbed := by
      rw [Item.core_congr (·.it_flags.slabbed) (fun _ => rfl) hit]; simp [linking]
    have hnbytes : (s₁.heap (.item n)).nbytes = (s.heap (.item n)).nbytes := by
      rw [Item.core_congr Item.nbytes (fun _ => rfl) hit]; simp [linking]
    refine ⟨fun _ => ?_, fun _ => by rwa [hflags]⟩
    rw [hnbytes]
    exact (hc.placed (.item n)).kind.1 hslabbed
  · rw [htable]
    by_cases hk : k = (s.heap (.item n)).key
    · subst hk; simp [hkey, hp.symm]
    · rw [Function.update_of_ne hk]
  · rw [total_cons rfl, htotal fun _ => rfl, ← hc.curr_items, hcore.rest]
    rfl
  · have hntotal : (s₁.heap (.item n)).ntotal = (s.heap (.item n)).ntotal := by
      rw [Item.core_congr Item.ntotal (fun _ => rfl) hit]; simp [linking, Item.ntotal]
    rw [total_cons rfl, htotal fun _ => rfl, ← hc.curr_bytes, hcore.rest, hntotal]
    rfl

theorem Sound.unlinked {s₁ : Store} (h : Sound s) (hlinked : (s.heap (.item n)).it_flags.linked)
    (hunlink : (s.unlinking (.item n)).do_item_unlink_q (.item n) = some s₁) : Sound s₁ := by
  obtain ⟨l, hc⟩ := h
  have hclsid : ((s.unlinking (.item n)).heap (.item n)).slabs_clsid = (s.heap (.item n)).slabs_clsid := by
    simp [unlinking]
  have hmem := hclsid.symm ▸ (hc.placed (.item n)).linked.mpr hlinked
  have hcount : Counted (s.unlinking (.item n)) l :=
    (hc.toCounted.modify (p := .item n) (f := fun i => { i with it_flags := { i.it_flags with linked := false } })
      fun id hm => ⟨rfl, rfl, rfl, rfl⟩).congr rfl rfl rfl rfl rfl
  have hcount' := do_item_unlink_q_counted hcount rfl hmem hunlink
  have hnone := hc.toCounted.not_mem_erase hmem
  have hcore := do_item_unlink_q_core hunlink
  have hother (p) (hp : p ≠ .item n) : (s₁.heap p).core = (s.heap p).core := by rw [hcore.core, unlinking_kept hp]
  have hit : (s₁.heap (.item n)).core = ((s.unlinking (.item n)).heap (.item n)).core := hcore.core _
  have hlinked' : (s₁.heap (.item n)).it_flags.linked = false := by
    rw [Item.core_congr (·.it_flags.linked) (fun _ => rfl) hit]; simp [unlinking]
  have htable : s₁.table = Function.update s.table (s.heap (.item n)).key none := by rw [hcore.rest]; rfl
  have hentry := ((hc.placed (.item n)).table (s.heap (.item n)).key).mpr ⟨rfl, hlinked, rfl⟩
  have hntotal (p) : (s₁.heap p).ntotal = (s.heap p).ntotal := by
    by_cases hp : p = .item n
    · subst hp
      rw [Item.core_congr Item.ntotal (fun _ => rfl) hit]; simp [unlinking, Item.ntotal]
    · exact Item.core_congr Item.ntotal (fun _ => rfl) (hother p hp)
  refine ⟨_, hc.of_one (q := .item n) hcount' ⟨?_, fun k => ?_, ?_⟩ hother (fun p hp j => mem_update_erase hp j)
    (fun p hp k => ?_) ?_ ?_⟩
  · exact iff_of_false (hnone _) (by simp [hlinked'])
  · rw [htable, hlinked']
    refine iff_of_false (fun he => ?_) (by simp)
    by_cases hk : k = (s.heap (.item n)).key
    · subst hk; simp at he
    · rw [Function.update_of_ne hk] at he
      exact hk (((hc.placed _).table k).mp he).2.2.symm
  · have hflags : (s₁.heap (.item n)).it_flags.slabbed = (s.heap (.item n)).it_flags.slabbed := by
      rw [Item.core_congr (·.it_flags.slabbed) (fun _ => rfl) hit]; simp [unlinking]
    have hnbytes : (s₁.heap (.item n)).nbytes = (s.heap (.item n)).nbytes := by
      rw [Item.core_congr Item.nbytes (fun _ => rfl) hit]; simp [unlinking]
    have hkind := (hc.placed (.item n)).kind
    refine ⟨fun hs => ?_, fun hl => by simp [hlinked'] at hl⟩
    rw [hnbytes]
    exact hkind.1 (hkind.2 hlinked)
  · rw [htable]
    by_cases hk : k = (s.heap (.item n)).key
    · subst hk; simp [hentry, hp.symm]
    · rw [Function.update_of_ne hk]
  · have hones : s₁.total (fun _ => 1) l = s.total (fun _ => 1) l := total_congr fun _ _ _ => rfl
    rw [total_erase rfl hmem, hones, ← hc.curr_items, hcore.rest]
    rfl
  · rw [total_erase rfl hmem, total_congr (s := s) fun id p _ => hntotal p, ← hc.curr_bytes, hcore.rest, hntotal]
    rfl

theorem Sound.do_item_unlink (h : Sound s) (hu : s.do_item_unlink (.item n) = some s') : Sound s' := by
  obtain ⟨-, rfl⟩ | ⟨hlinked, s₁, hunlink, hremove⟩ := do_item_unlink_cases hu
  · exact h
  · exact (h.unlinked hlinked hunlink).do_item_remove hremove

/-- What an unlink does to the hash table; keys stay, also in an item that is freed. -/
theorem do_item_unlink_table (hu : s.do_item_unlink it = some s') :
    (∀ p, (s'.heap p).key = (s.heap p).key) ∧
      s'.table = if (s.heap it).it_flags.linked then Function.update s.table (s.heap it).key none else s.table := by
  obtain ⟨hl, rfl⟩ | ⟨hl, s₁, hunlink, hremove⟩ := do_item_unlink_cases hu
  · simp [hl]
  · have hcore := do_item_unlink_q_core hunlink
    have htable : s₁.table = Function.update s.table (s.heap it).key none := by rw [hcore.rest]; rfl
    have hkey (p) : (s₁.heap p).key = (s.heap p).key := by
      rw [Item.core_congr Item.key (fun _ => rfl) (hcore.core p)]
      by_cases hp : p = it
      · subst hp; simp [unlinking]
      · rw [unlinking_kept hp]
    have hremoved (g : Item → Item) (hg : ∀ i, (g i).key = i.key) (p) :
        ((s₁.modify it g).heap p).key = (s.heap p).key := by
      by_cases hp : p = it
      · subst hp; rw [modify_self, hg, hkey]
      · rw [modify_of_ne hp, hkey]
    rw [if_pos hl, ← htable]
    obtain ⟨-, ⟨-, -, rfl⟩ | ⟨-, -, rfl⟩⟩ := do_item_remove_cases hremove
    · exact ⟨hremoved (fun i => { i with refcount := i.refcount - 1 }) fun _ => rfl, rfl⟩
    · exact ⟨hremoved (fun i => { i with
        refcount := 0, it_flags := { Flags.zero with slabbed := true }, slabs_clsid := 0, prev := none, next := none })
        fun _ => rfl, rfl⟩

theorem Sound.do_item_replace {m : Nat} (h : Sound s)
    (hkey : s.table (s.heap (.item m)).key = none ∨ s.table (s.heap (.item m)).key = some (.item n))
    (hr : s.do_item_replace cfg (.item n) (.item m) = some s') : Sound s' := by
  simp only [Store.do_item_replace] at hr
  split at hr
  · cases hr
  obtain ⟨s₁, hunlink, hlink⟩ := Option.bind_eq_some_iff.mp hr
  refine (h.do_item_unlink hunlink).do_item_link ?_ hlink
  obtain ⟨hkeys, htable⟩ := do_item_unlink_table hunlink
  rw [hkeys, htable]
  rcases hkey with hnone | hsome
  · split
    · by_cases hk : (s.heap (.item m)).key = (s.heap (.item n)).key
      · rw [hk, Function.update_self]
      · rw [Function.update_of_ne hk, hnone]
    · exact hnone
  · obtain ⟨l, hc⟩ := h
    obtain ⟨-, hlinked, hk⟩ := ((hc.placed _).table _).mp hsome
    rw [if_pos hlinked, hk, Function.update_self]

/-! ## Get -/

theorem Sound.mark_fetched {room : Bool} (h : Sound s) (hm : s.mark_fetched cfg (.item n) room = some s') : Sound s' := by
  obtain ⟨fetched, active, ⟨-, rfl | hu⟩ | ⟨-, rfl⟩⟩ := mark_fetched_cases hm
  · exact h.mark
  · exact h.mark.do_item_update hu
  · exact (h.mark (n := n)).refcount_incr.congr rfl

theorem Sound.is_item (h : Sound s) {k : Key} (ht : s.table k = some it) : ∃ n, it = .item n := by
  obtain ⟨l, hc⟩ := h
  obtain ⟨hit, -⟩ := ((hc.placed it).table k).mp ht
  cases it with
  | item n => exact ⟨n, rfl⟩
  | crawler i => simp at hit

theorem Sound.do_item_get {key : Key} {do_update room : Bool} {r : Option Ptr} (h : Sound s)
    (hg : s.do_item_get cfg key do_update room = some (s', r)) : Sound s' := by
  obtain ⟨-, rfl, -⟩ | ⟨it, htable, hcases⟩ := do_item_get_cases hg
  · exact h
  obtain ⟨n, rfl⟩ := h.is_item htable
  obtain ⟨-, -, s₁, hunlink, hremove⟩ | ⟨-, -, s₁, rfl, ⟨-, rfl⟩ | ⟨-, hmark⟩⟩ := hcases
  · exact (h.refcount_incr.do_item_unlink hunlink).do_item_remove hremove
  · exact (h.refcount_incr (n := n)).congr rfl
  · exact (h.refcount_incr.mark_fetched hmark).congr rfl

theorem do_item_touch_cases {key : Key} {exptime : UInt32} {room : Bool} {r : Option Ptr}
    (h : s.do_item_touch cfg key exptime room = some (s', r)) :
    ∃ s₁, s.do_item_get cfg key true room = some (s₁, r) ∧ s' = s₁.modify? r fun i => { i with exptime := exptime } := by
  obtain ⟨⟨s₁, it⟩, hget, h⟩ := Option.bind_eq_some_iff.mp h
  obtain ⟨rfl, rfl⟩ := Prod.mk.inj (Option.some.inj h)
  exact ⟨s₁, hget, rfl⟩

theorem do_item_get_is_item {key : Key} {do_update room : Bool} (h : Sound s)
    (hg : s.do_item_get cfg key do_update room = some (s', some it)) : ∃ n, it = .item n := by
  obtain ⟨-, -, hr⟩ | ⟨it', htable, hcases⟩ := do_item_get_cases hg
  · cases hr
  obtain ⟨-, hr, -⟩ | ⟨-, hr, -⟩ := hcases
  · cases hr
  · obtain rfl := Option.some.inj hr
    exact h.is_item htable

theorem Sound.do_item_touch {key : Key} {exptime : UInt32} {room : Bool} {r : Option Ptr} (h : Sound s)
    (ht : s.do_item_touch cfg key exptime room = some (s', r)) : Sound s' := by
  obtain ⟨s₁, hget, rfl⟩ := do_item_touch_cases ht
  cases r with
  | none => exact h.do_item_get hget
  | some it =>
      obtain ⟨n, rfl⟩ := do_item_get_is_item h hget
      exact (h.do_item_get hget).modify (f := fun i => { i with exptime := exptime }) fun _ => ⟨rfl, rfl, rfl, rfl⟩

theorem lru_maintainer_bump_cases (h : s.lru_maintainer_bump cfg it = some s') :
    it ∈ s.bump_bufs ∧ ∃ s₁, { s with bump_bufs := s.bump_bufs.erase it }.do_item_update cfg it = some s₁ ∧
      s₁.do_item_remove it = some s' := by
  simp only [lru_maintainer_bump] at h
  split at h
  · next hmem =>
    obtain ⟨s₁, hupdate, hremove⟩ := Option.bind_eq_some_iff.mp h
    exact ⟨hmem, s₁, hupdate, hremove⟩
  · cases h

theorem Sound.lru_maintainer_bump (h : Sound s) (hb : s.lru_maintainer_bump cfg (.item n) = some s') : Sound s' := by
  obtain ⟨-, s₁, hupdate, hremove⟩ := lru_maintainer_bump_cases hb
  exact (Sound.do_item_update (h.congr rfl) hupdate).do_item_remove hremove

theorem release_cases (h : s.release it = some s') :
    s.held it ≠ 0 ∧ { s with held := Function.update s.held it (s.held it - 1) }.do_item_remove it = some s' := by
  simp only [release] at h
  split at h
  · cases h
  · next hheld => exact ⟨hheld, h⟩

theorem Sound.release (h : Sound s) (hr : s.release (.item n) = some s') : Sound s' :=
  Sound.do_item_remove (h.congr rfl) (release_cases hr).2

end

end Store

end Memcached.MemoryLru

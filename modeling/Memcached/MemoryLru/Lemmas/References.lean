import Memcached.MemoryLru.Lemmas.Crawls

/-!
# References to items

An item is referenced once if it is linked, by the callers that hold it, and by its entries in the bump buffers. In the
middle of a function some references to one item are in hand.
-/

namespace Memcached.MemoryLru

namespace Store

def refs (s : Store) (n : Nat) : Nat :=
  (s.heap (.item n)).it_flags.linked.toNat + s.held (.item n) + s.bump_bufs.count (.item n)

/-- The references, with those to the item `n` that are in hand. -/
def sum (s : Store) (n k m : Nat) : Nat := s.refs m + if m = n then k else 0

/-- The items are referenced as their counts say, with `k` references to the item `n` in hand. -/
structure Referenced (s : Store) (n k : Nat) : Prop where
  refcount : ∀ m, (s.heap (.item m)).refcount.toNat = s.sum n k m
  slabbed : ∀ m, (s.heap (.item m)).it_flags.slabbed = true ↔ s.sum n k m = 0
  freed : ∀ m, s.allocs.count (.item m) = s.frees.count (.item m) + if s.sum n k m = 0 then 0 else 1

/-- No item got more references. -/
def Fewer (s s' : Store) : Prop := ∀ n, s'.refs n ≤ s.refs n

section
variable {s s' s'' : Store} {n m k : Nat} {cfg : Settings}

theorem Fewer.refl : Fewer s s := fun _ => le_rfl

theorem Fewer.trans (h : Fewer s s') (h' : Fewer s' s'') : Fewer s s'' := fun n => (h' n).trans (h n)

theorem sum_zero : s.sum n 0 m = s.refs m := by simp [sum]

theorem Referenced.of_zero (h : Referenced s n 0) : Referenced s m 0 := by
  have heq (i) : s.sum m 0 i = s.sum n 0 i := by rw [sum_zero, sum_zero]
  exact ⟨fun i => by rw [heq]; exact h.refcount i, fun i => by rw [heq]; exact h.slabbed i,
    fun i => by rw [heq]; exact h.freed i⟩

/-! ## Changes that are not to references -/

/-- The flags and the references of items are as they were. -/
structure SameRefs (s s' : Store) : Prop where
  refcount : ∀ n, (s'.heap (.item n)).refcount = (s.heap (.item n)).refcount
  linked : ∀ n, (s'.heap (.item n)).it_flags.linked = (s.heap (.item n)).it_flags.linked
  slabbed : ∀ n, (s'.heap (.item n)).it_flags.slabbed = (s.heap (.item n)).it_flags.slabbed
  held : s'.held = s.held
  bump_bufs : s'.bump_bufs = s.bump_bufs
  allocs : s'.allocs = s.allocs
  frees : s'.frees = s.frees

theorem SameRefs.refs (h : SameRefs s s') (n : Nat) : s'.refs n = s.refs n := by
  simp only [Store.refs, h.linked, h.held, h.bump_bufs]

theorem SameRefs.fewer (h : SameRefs s s') : Fewer s s' := fun n => (h.refs n).le

theorem SameRefs.trans (h : SameRefs s s') (h' : SameRefs s' s'') : SameRefs s s'' :=
  ⟨fun n => (h'.refcount n).trans (h.refcount n), fun n => (h'.linked n).trans (h.linked n),
    fun n => (h'.slabbed n).trans (h.slabbed n), h'.held.trans h.held, h'.bump_bufs.trans h.bump_bufs,
    h'.allocs.trans h.allocs, h'.frees.trans h.frees⟩

theorem Referenced.same (h : Referenced s n k) (hs : SameRefs s s') : Referenced s' n k := by
  have hsum (m) : s'.sum n k m = s.sum n k m := by rw [sum, sum, hs.refs]
  refine ⟨fun m => ?_, fun m => ?_, fun m => ?_⟩
  · rw [hs.refcount, hsum]; exact h.refcount m
  · rw [hs.slabbed, hsum]; exact h.slabbed m
  · rw [hs.allocs, hs.frees, hsum]; exact h.freed m

theorem SameCore.same (h : SameCore s s') : SameRefs s s' where
  refcount n := h.refcount _
  linked n := Item.core_congr (·.it_flags.linked) (fun _ => rfl) (h.core _)
  slabbed n := Item.core_congr (·.it_flags.slabbed) (fun _ => rfl) (h.core _)
  held := by rw [h.rest]
  bump_bufs := by rw [h.rest]
  allocs := by rw [h.rest]
  frees := by rw [h.rest]

theorem Crawled.same (h : Crawled s s') : SameRefs s s' where
  refcount n := Item.core_congr Item.refcount (fun _ => rfl) (h.core n)
  linked n := Item.core_congr (·.it_flags.linked) (fun _ => rfl) (h.core n)
  slabbed n := Item.core_congr (·.it_flags.slabbed) (fun _ => rfl) (h.core n)
  held := by rw [h.rest]
  bump_bufs := by rw [h.rest]
  allocs := by rw [h.rest]
  frees := by rw [h.rest]

theorem Kept.same (h : Kept s s' (.item n)) (hrefs : (s'.heap (.item n)).refcount = (s.heap (.item n)).refcount) :
    SameRefs s s' := by
  have hshape (m) : (s'.heap (.item m)).shape = (s.heap (.item m)).shape := by
    by_cases hm : Ptr.item m = .item n
    · rw [hm]; exact h.shape
    · exact Item.shape_of_core (h.core _ hm)
  refine ⟨fun m => ?_, fun m => Item.shape_congr (·.it_flags.linked) (fun _ => rfl) (hshape m),
    fun m => Item.shape_congr (·.it_flags.slabbed) (fun _ => rfl) (hshape m), by rw [h.rest], by rw [h.rest],
    by rw [h.rest], by rw [h.rest]⟩
  by_cases hm : Ptr.item m = .item n
  · rw [hm]; exact hrefs
  · exact Item.core_congr Item.refcount (fun _ => rfl) (h.core _ hm)

theorem set_active_same {active : Bool} : SameRefs s (s.set_active (.item n) active) :=
  set_active_kept.same (by simp [set_active])

theorem mark_same_refs {fetched active : Bool} : SameRefs s (s.mark (.item n) fetched active) :=
  mark_kept.same (by simp [mark])

theorem move_lru_same {lru : Lru} : SameRefs s (s.move_lru (.item n) lru) := move_lru_kept.same (by simp [move_lru])

theorem do_item_update_same (h : s.do_item_update cfg (.item n) = some s') : SameRefs s s' :=
  (do_item_update_kept h).1.same (do_item_update_kept h).2

theorem do_item_update_nolock_same (h : s.do_item_update_nolock (.item n) = some s') : SameRefs s s' :=
  (Pull.do_item_update_nolock_kept h).1.same (Pull.do_item_update_nolock_kept h).2

/-! ## References in hand -/

/-- What changes at the item `n`, whose references with those in hand were `j` and are `j'`. -/
structure Recounted (s s' : Store) (n j j' : Nat) : Prop where
  other : ∀ m, m ≠ n → (s'.heap (.item m)).refcount = (s.heap (.item m)).refcount ∧
    (s'.heap (.item m)).it_flags.slabbed = (s.heap (.item m)).it_flags.slabbed ∧ s'.refs m = s.refs m ∧
    s'.allocs.count (.item m) = s.allocs.count (.item m) ∧ s'.frees.count (.item m) = s.frees.count (.item m)
  refcount : (s'.heap (.item n)).refcount.toNat = j'
  slabbed : (s'.heap (.item n)).it_flags.slabbed = true ↔ j' = 0
  freed : s.allocs.count (.item n) = s.frees.count (.item n) + (if j = 0 then 0 else 1) →
    s'.allocs.count (.item n) = s'.frees.count (.item n) + if j' = 0 then 0 else 1

theorem Referenced.recounted {k' : Nat} (h : Referenced s n k) (hc : Recounted s s' n (s.refs n + k) (s'.refs n + k')) :
    Referenced s' n k' := by
  have hsum {t : Store} {i : Nat} : t.sum n i n = t.refs n + i := by simp [sum]
  have hother {t : Store} {i m : Nat} (hm : m ≠ n) : t.sum n i m = t.refs m := by simp [sum, hm]
  refine ⟨fun m => ?_, fun m => ?_, fun m => ?_⟩ <;> by_cases hm : m = n
  · rw [hm, hsum]; exact hc.refcount
  · rw [hother hm, (hc.other m hm).1, (hc.other m hm).2.2.1, ← hother hm]
    exact h.refcount m
  · rw [hm, hsum]; exact hc.slabbed
  · rw [hother hm, (hc.other m hm).2.1, (hc.other m hm).2.2.1, ← hother hm]
    exact h.slabbed m
  · rw [hm, hsum]
    apply hc.freed
    rw [← hsum]
    exact h.freed n
  · rw [hother hm, (hc.other m hm).2.2.2.1, (hc.other m hm).2.2.2.2, (hc.other m hm).2.2.1, ← hother hm]
    exact h.freed m

theorem Referenced.refcount_self (h : Referenced s n k) : (s.heap (.item n)).refcount.toNat = s.refs n + k := by
  rw [h.refcount]; simp [sum]

theorem Referenced.slabbed_self (h : Referenced s n k) : (s.heap (.item n)).it_flags.slabbed = true ↔ s.refs n + k = 0 := by
  rw [h.slabbed]; simp [sum]

@[simp] theorem modify_held {p : Ptr} {f : Item → Item} : (s.modify p f).held = s.held := rfl

@[simp] theorem modify_bump_bufs {p : Ptr} {f : Item → Item} : (s.modify p f).bump_bufs = s.bump_bufs := rfl

@[simp] theorem modify_allocs {p : Ptr} {f : Item → Item} : (s.modify p f).allocs = s.allocs := rfl

@[simp] theorem modify_frees {p : Ptr} {f : Item → Item} : (s.modify p f).frees = s.frees := rfl

theorem refs_modify {f : Item → Item} (hf : ∀ i, (f i).it_flags.linked = i.it_flags.linked) :
    (s.modify (.item n) f).refs m = s.refs m := by
  by_cases hm : m = n
  · subst hm; simp [refs, hf]
  · have hne : Ptr.item m ≠ .item n := by simpa using hm
    simp [refs, modify_of_ne hne]

theorem refcount_incr_refs : (s.refcount_incr (.item n)).refs m = s.refs m := refs_modify fun _ => rfl

theorem refcount_decr_refs : (s.refcount_decr (.item n)).refs m = s.refs m := refs_modify fun _ => rfl

theorem toNat_add_one {c : UInt16} (h : c.toNat + 1 < 2 ^ 16) : (c + 1).toNat = c.toNat + 1 := by
  rw [UInt16.toNat_add]
  exact Nat.mod_eq_of_lt h

theorem toNat_sub_one {c : UInt16} (h : 0 < c.toNat) : (c - 1).toNat = c.toNat - 1 := by
  have hle : (1 : UInt16) ≤ c := h
  rw [UInt16.toNat_sub_of_le _ _ hle]
  rfl

theorem Referenced.refcount_incr (h : Referenced s n k) (hlive : 0 < s.refs n + k) (hroom : s.refs n + k + 1 < 2 ^ 16) :
    Referenced (s.refcount_incr (.item n)) n (k + 1) := by
  refine h.recounted ⟨fun m hm => ?_, ?_, ?_, ?_⟩
  · have hne : Ptr.item m ≠ .item n := by simpa using hm
    simp [Store.refcount_incr, modify_of_ne hne, refs_modify]
  · rw [refcount_incr_refs, Store.refcount_incr, modify_self, toNat_add_one (by rw [h.refcount_self]; exact hroom), h.refcount_self]
    omega
  · rw [refcount_incr_refs, Store.refcount_incr, modify_self, h.slabbed_self]
    omega
  · rw [refcount_incr_refs, if_neg (by omega), if_neg (by omega)]
    exact id

theorem Referenced.refcount_decr (h : Referenced s n (k + 1)) (hlive : 0 < s.refs n + k) :
    Referenced (s.refcount_decr (.item n)) n k := by
  refine h.recounted ⟨fun m hm => ?_, ?_, ?_, ?_⟩
  · have hne : Ptr.item m ≠ .item n := by simpa using hm
    simp [Store.refcount_decr, modify_of_ne hne, refs_modify]
  · rw [refcount_decr_refs, Store.refcount_decr, modify_self, toNat_sub_one (by rw [h.refcount_self]; omega), h.refcount_self]
    omega
  · rw [refcount_decr_refs, Store.refcount_decr, modify_self, h.slabbed_self]
    omega
  · rw [refcount_decr_refs, if_neg (by omega), if_neg (by omega)]
    exact id

theorem Fewer.refcount_incr : Fewer s (s.refcount_incr (.item n)) := fun _ => refcount_incr_refs.le

/-- A reference in hand is given back; with the last one the item is freed. -/
theorem Referenced.do_item_remove (h : Referenced s n (k + 1)) (hr : s.do_item_remove (.item n) = some s') :
    Referenced s' n k ∧ Fewer s s' := by
  obtain ⟨hslabbed, ⟨hzero, hone, rfl⟩ | ⟨hone, hl, rfl⟩⟩ := do_item_remove_cases hr
  · have hcount := h.refcount_self
    have hne : s.refs n + (k + 1) ≠ 1 := fun he => hone (UInt16.toNat_inj.mp (hcount.trans he))
    exact ⟨h.refcount_decr (by omega), fun _ => refcount_decr_refs.le⟩
  · have hcount := h.refcount_self
    rw [hone] at hcount
    have hsum : s.refs n = 0 ∧ k = 0 := by
      have hval : (1 : UInt16).toNat = 1 := rfl
      omega
    obtain ⟨hrefs, rfl⟩ := hsum
    have hsame (m) : (s.freed (.item n)).refs m = s.refs m := by
      by_cases hm : m = n
      · subst hm; simp [refs, Store.freed, Flags.zero, hl]
      · have hne : Ptr.item m ≠ .item n := by simpa using hm
        simp [refs, Store.freed, modify_of_ne hne]
    refine ⟨h.recounted ⟨fun m hm => ?_, ?_, ?_, ?_⟩, fun m => (hsame m).le⟩
    · have hne : Ptr.item m ≠ .item n := by simpa using hm
      refine ⟨by simp [Store.freed, modify_of_ne hne], by simp [Store.freed, modify_of_ne hne], hsame m, rfl, ?_⟩
      exact List.count_cons_of_ne hne.symm
    · rw [hsame, hrefs]; simp [Store.freed]
    · rw [hsame, hrefs]; simp [Store.freed, Flags.zero]
    · rw [hsame, hrefs]
      intro hfreed
      simpa [Store.freed] using hfreed

/-! ## Links -/

theorem refs_of_linked (h : (s.heap (.item n)).it_flags.linked = true) : 0 < s.refs n := by
  simp only [refs, h, Bool.toNat_true]
  omega

theorem Referenced.do_item_unlink (h : Referenced s n k) (hu : s.do_item_unlink (.item n) = some s') :
    Referenced s' n k ∧ Fewer s s' := by
  obtain ⟨-, rfl⟩ | ⟨hl, s₁, hunlink, hremove⟩ := do_item_unlink_cases hu
  · exact ⟨h, .refl⟩
  have hrefs : (s.unlinking (.item n)).refs n + 1 = s.refs n := by
    simp [refs, unlinking, hl]
    omega
  have hother (m) (hm : m ≠ n) : (s.unlinking (.item n)).refs m = s.refs m := by
    have hne : Ptr.item m ≠ .item n := by simpa using hm
    simp [refs, unlinking, hne]
  have hunlinking : Referenced (s.unlinking (.item n)) n (k + 1) := by
    refine h.recounted ⟨fun m hm => ?_, ?_, ?_, ?_⟩
    · have hne : Ptr.item m ≠ .item n := by simpa using hm
      exact ⟨by simp [unlinking, hne], by simp [unlinking, hne], hother m hm, rfl, rfl⟩
    · have hcount := h.refcount_self
      simp only [unlinking, Function.update_self] at hrefs ⊢
      omega
    · have hslabbed := h.slabbed_self
      simp only [unlinking, Function.update_self] at hrefs ⊢
      rw [hslabbed]
      omega
    · rw [if_neg (by omega), if_neg (by omega)]
      exact id
  have hfewer : Fewer s (s.unlinking (.item n)) := by
    intro m
    by_cases hm : m = n
    · subst hm; omega
    · exact (hother m hm).le
  have hcore := (do_item_unlink_q_core hunlink).same
  obtain ⟨hremoved, hless⟩ := (hunlinking.same hcore).do_item_remove hremove
  exact ⟨hremoved, hfewer.trans (hcore.fewer.trans hless)⟩

theorem Referenced.do_item_link (h : Referenced s n 0) (hroom : s.refs n + 1 < 2 ^ 16)
    (hl : s.do_item_link cfg (.item n) = some s') : Referenced s' n 0 := by
  obtain ⟨hnot, hslabbed, cas, cas_id, s₁, hlink, rfl⟩ := do_item_link_cases hl
  have hsame := (do_item_link_q_core hlink).same
  have hrefs : s₁.refs n = s.refs n + 1 := by
    rw [hsame.refs]
    simp [refs, linking, hnot]
    omega
  have hother (m) (hm : m ≠ n) : s₁.refs m = s.refs m := by
    have hne : Ptr.item m ≠ .item n := by simpa using hm
    rw [hsame.refs]
    simp [refs, linking, hne]
  have hcount : (s₁.heap (.item n)).refcount = (s.heap (.item n)).refcount := by
    rw [hsame.refcount]; simp [linking]
  have hflag : (s₁.heap (.item n)).it_flags.slabbed = (s.heap (.item n)).it_flags.slabbed := by
    rw [hsame.slabbed]; simp [linking]
  have hpos : ¬ s.refs n + 0 = 0 := fun hzero => hslabbed (h.slabbed_self.mpr hzero)
  have hallocs : (s₁.refcount_incr (.item n)).allocs = s.allocs := hsame.allocs
  have hfrees : (s₁.refcount_incr (.item n)).frees = s.frees := hsame.frees
  refine h.recounted ⟨fun m hm => ?_, ?_, ?_, ?_⟩
  · have hne : Ptr.item m ≠ .item n := by simpa using hm
    refine ⟨?_, ?_, refcount_incr_refs.trans (hother m hm), by rw [hallocs], by rw [hfrees]⟩
    · rw [Store.refcount_incr, modify_of_ne hne, hsame.refcount]; simp [linking, hne]
    · rw [Store.refcount_incr, modify_of_ne hne, hsame.slabbed]; simp [linking, hne]
  · have hself := h.refcount_self
    rw [refcount_incr_refs, hrefs, Store.refcount_incr, modify_self, hcount, toNat_add_one (by omega)]
    omega
  · have hincr : ((s₁.refcount_incr (.item n)).heap (.item n)).it_flags.slabbed = (s.heap (.item n)).it_flags.slabbed := by
      rw [← hflag, Store.refcount_incr, modify_self]
    rw [refcount_incr_refs, hrefs, hincr, h.slabbed_self]
    omega
  · rw [refcount_incr_refs, hrefs, if_neg (by omega), if_neg (by omega), hallocs, hfrees]
    exact id

end

end Store

end Memcached.MemoryLru

import Mathlib.Algebra.BigOperators.Group.Finset.Piecewise
import Memcached.Exstore.Lemmas.Init

/-!
# Pages are interleaved between devices

The search for a device with pages left goes round the list, and as long as pages are left it finds one. So each file
gets its pages, one behind the other.
-/

namespace Memcached.Exstore

open Function (update update_self update_of_ne)

variable {fh : List ConfFile} {d d' : Devices} {left : Nat → Nat} {page_size n k p j : Nat} {f : Option Nat}

/-- How many pages there are. -/
def total_pages (fh : List ConfFile) : Nat := (fh.map fun f => f.page_count.toNat).sum

/-- The file whose `fd` page `p` got. -/
def device (fh : List ConfFile) (page_size p : Nat) : Option Nat := (init_pages fh page_size (p + 1)).bind (·.f)

/-- The pages of file `j` among the first `n`, in order. -/
def pages_of (fh : List ConfFile) (page_size j n : Nat) : List Nat :=
  (List.range n).filter fun p => device fh page_size p = some j

structure Interleaved (fh : List ConfFile) (page_size : Nat) (d : Devices) : Prop where
  placed : ∀ p < total_pages fh, ∃ j h, device fh page_size p = some j ∧ fh[j]? = some h ∧ (d.pages p).fd = h.file
  count : ∀ j h, fh[j]? = some h → (pages_of fh page_size j (total_pages fh)).length = h.page_count.toNat
  offsets : ∀ j h, fh[j]? = some h →
    ((pages_of fh page_size j (total_pages fh)).map fun p => (d.pages p).offset) =
      (List.range h.page_count.toNat).map (· * page_size)
  apart : ∀ p < total_pages fh, ∀ q < total_pages fh, p ≠ q → device fh page_size p = device fh page_size q →
    (d.pages p).offset + page_size ≤ (d.pages q).offset ∨ (d.pages q).offset + page_size ≤ (d.pages p).offset

/-! ## The search -/

/-- The device that the search looks at first, as a residue. -/
def first : Option Nat → Nat
  | none => 0
  | some f => f + 1

theorem find_device_succ (hf : ∀ g, f = some g → g < n) : find_device left n (k + 1) f =
    if left (first f % n) ≠ 0 then some (first f % n) else find_device left n k (some (first f % n)) := by
  cases f with
  | none =>
      simp only [find_device, first, Nat.zero_mod]
      rfl
  | some f =>
      have hlt := hf f rfl
      by_cases hlast : f + 1 < n
      · simp only [find_device, first, if_pos hlast, Nat.mod_eq_of_lt hlast]
      · have hround : f + 1 = n := Nat.le_antisymm hlt (Nat.le_of_not_lt hlast)
        simp only [find_device, first, hround, Nat.lt_irrefl, if_false, Nat.mod_self]

theorem first_mod_lt (hn : 0 < n) : ∀ g, some (first f % n) = some g → g < n := by
  rintro _ ⟨⟩
  exact Nat.mod_lt _ hn

theorem find_device_none (hn : 0 < n) (hf : ∀ g, f = some g → g < n) (h : find_device left n k f = none) :
    ∀ i < k, left ((first f + i) % n) = 0 := by
  induction k generalizing f with
  | zero =>
      intro i hi
      omega
  | succ k ih =>
      intro i hi
      rw [find_device_succ hf] at h
      split at h
      · cases h
      next hleft =>
      rw [not_not] at hleft
      cases i with
      | zero => exact hleft
      | succ i =>
          have hrest := ih (first_mod_lt hn) h i (by omega)
          rwa [first, Nat.add_assoc, Nat.mod_add_mod, Nat.add_comm 1 i] at hrest

theorem find_device_isSome (hf : ∀ g, f = some g → g < n) (hj : j < n) (hleft : left j ≠ 0) :
    ∃ g, find_device left n n f = some g := by
  cases h : find_device left n n f with
  | some g => exact ⟨g, rfl⟩
  | none =>
      have hnone := find_device_none (by omega) hf h
      refine absurd ?_ hleft
      have hle : first f ≤ n := by
        cases f with
        | none => exact Nat.zero_le n
        | some f => exact hf f rfl
      by_cases hij : first f ≤ j
      · have hi := hnone (j - first f) (by omega)
        rwa [Nat.add_sub_cancel' hij, Nat.mod_eq_of_lt hj] at hi
      · have hi := hnone (n + j - first f) (by omega)
        rwa [Nat.add_sub_cancel' (by omega), Nat.add_mod_left, Nat.mod_eq_of_lt hj] at hi

theorem find_device_spec {g : Nat} (hn : 0 < n) (hf : ∀ g, f = some g → g < n) (h : find_device left n k f = some g) :
    left g ≠ 0 ∧ g < n := by
  induction k generalizing f with
  | zero => cases h
  | succ k ih =>
      rw [find_device_succ hf] at h
      split at h
      next hleft =>
        cases h
        exact ⟨hleft, Nat.mod_lt _ hn⟩
      · exact ih (first_mod_lt hn) h

/-! ## One page after the other -/

/-- What the first `n` pages have been given. -/
structure Dealt (fh : List ConfFile) (page_size n : Nat) (d : Devices) : Prop where
  f : ∀ g, d.f = some g → g < fh.length
  left : ∀ j, d.left j + (pages_of fh page_size j n).length = (fh[j]?).elim 0 fun h => h.page_count.toNat
  rest : ∑ j ∈ Finset.range fh.length, d.left j + n = total_pages fh
  offset : ∀ j, d.offset j = (pages_of fh page_size j n).length * page_size
  placed : ∀ p < n, ∃ j h, device fh page_size p = some j ∧ fh[j]? = some h ∧ (d.pages p).fd = h.file
  offsets : ∀ j, ((pages_of fh page_size j n).map fun p => (d.pages p).offset) =
    (List.range (pages_of fh page_size j n).length).map (· * page_size)

theorem pages_of_succ : pages_of fh page_size j (n + 1) =
    if device fh page_size n = some j then pages_of fh page_size j n ++ [n] else pages_of fh page_size j n := by
  simp only [pages_of, List.range_succ, List.filter_append, List.filter_singleton]
  split <;> simp_all

theorem lt_of_mem_pages_of (h : p ∈ pages_of fh page_size j n) : p < n :=
  List.mem_range.mp (List.mem_filter.mp h).1

theorem sum_page_count : ∑ j ∈ Finset.range fh.length, ((fh[j]?).elim 0 fun h => h.page_count.toNat) = total_pages fh := by
  induction fh with
  | nil => rfl
  | cons h fh ih =>
      rw [List.length_cons, Finset.sum_range_succ']
      simp only [List.getElem?_cons_succ, List.getElem?_cons_zero, Option.elim_some]
      rw [ih, total_pages, total_pages, List.map_cons, List.sum_cons, Nat.add_comm]

theorem dealt_zero : ∃ d, init_pages fh page_size 0 = some d ∧ Dealt fh page_size 0 d := by
  refine ⟨_, rfl, fun g hg => (nomatch hg), fun j => rfl, sum_page_count, fun j => ?_, fun p hp => absurd hp (Nat.not_lt_zero p),
    fun j => rfl⟩
  simp [pages_of]

/-- While pages are left the next one goes to a device, behind the pages that the device has. -/
theorem Dealt.succ (h : Dealt fh page_size n d) (hd : init_pages fh page_size n = some d) (hn : n < total_pages fh) :
    ∃ d', init_pages fh page_size (n + 1) = some d' ∧ Dealt fh page_size (n + 1) d' := by
  obtain ⟨j, hj, hleft⟩ : ∃ j ∈ Finset.range fh.length, d.left j ≠ 0 := by
    apply Finset.exists_ne_zero_of_sum_ne_zero
    have hrest := h.rest
    omega
  obtain ⟨g, hg⟩ := find_device_isSome h.f (Finset.mem_range.mp hj) hleft
  obtain ⟨hgleft, hglt⟩ := find_device_spec (by have := Finset.mem_range.mp hj; omega) h.f hg
  have hget : fh[g]? = some fh[g] := List.getElem?_eq_getElem hglt
  have hinit : init_pages fh page_size (n + 1) = some
      { f := some g
        left := update d.left g (d.left g - 1)
        offset := update d.offset g (d.offset g + page_size)
        pages := update d.pages n { Page.zero with
          fd := fh[g].file, free_bucket := fh[g].free_bucket.toNat, offset := d.offset g, free := true } } := by
    simp [init_pages, hd, init_page, hg, hget]
  have hdev : device fh page_size n = some g := by simp [device, hinit]
  have hlength (i : Nat) : (pages_of fh page_size i (n + 1)).length =
      (pages_of fh page_size i n).length + if i = g then 1 else 0 := by
    rw [pages_of_succ, hdev]
    by_cases hi : i = g
    · simp [hi]
    · simp [hi, Ne.symm hi]
  refine ⟨_, hinit, ?_, fun i => ?_, ?_, fun i => ?_, fun p hp => ?_, fun i => ?_⟩
  · rintro _ ⟨⟩
    exact hglt
  · rw [hlength]
    have hi := h.left i
    by_cases hig : i = g
    · subst hig
      simp only [update_self, if_true]
      omega
    · simpa [hig] using hi
  · have hsum := Finset.sum_update_of_mem (Finset.mem_range.mpr hglt) d.left (d.left g - 1)
    have hsplit := Finset.add_sum_erase (Finset.range fh.length) d.left (Finset.mem_range.mpr hglt)
    have hrest := h.rest
    rw [← Finset.sdiff_singleton_eq_erase] at hsplit
    simp only [hsum]
    omega
  · rw [hlength]
    by_cases hig : i = g
    · subst hig
      simp only [update_self, if_true, h.offset, Nat.succ_mul]
    · simp [hig, h.offset]
  · by_cases hpn : p = n
    · subst hpn
      exact ⟨g, fh[g], hdev, hget, by simp⟩
    · simpa [hpn] using h.placed p (by omega)
  · have hsame (k : Nat) : ((pages_of fh page_size k n).map fun p => (update d.pages n { Page.zero with
          fd := fh[g].file, free_bucket := fh[g].free_bucket.toNat, offset := d.offset g, free := true } p).offset) =
        (List.range (pages_of fh page_size k n).length).map (· * page_size) := by
      rw [← h.offsets k]
      apply List.map_congr_left
      intro p hp
      simp [(lt_of_mem_pages_of hp).ne]
    rw [hlength]
    by_cases hig : i = g
    · subst hig
      rw [pages_of_succ, if_pos hdev, List.map_append, hsame, if_pos rfl, List.range_succ, List.map_append]
      simp [h.offset]
    · rw [pages_of_succ, if_neg (by simpa [hdev] using Ne.symm hig), hsame, if_neg hig, Nat.add_zero]

theorem dealt (hn : n ≤ total_pages fh) : ∃ d, init_pages fh page_size n = some d ∧ Dealt fh page_size n d := by
  induction n with
  | zero => exact dealt_zero
  | succ n ih =>
      obtain ⟨d, hd, h⟩ := ih (by omega)
      exact h.succ hd (by omega)

/-! ## All pages -/

theorem Dealt.count {h : ConfFile} (hd : Dealt fh page_size (total_pages fh) d) (hj : fh[j]? = some h) :
    (pages_of fh page_size j (total_pages fh)).length = h.page_count.toNat := by
  have hlt : j < fh.length := (List.getElem?_eq_some_iff.mp hj).1
  have hzero : ∑ j ∈ Finset.range fh.length, d.left j = 0 := by
    have hrest := hd.rest
    omega
  have hleft := hd.left j
  rw [Finset.sum_eq_zero_iff.mp hzero j (Finset.mem_range.mpr hlt), hj] at hleft
  simpa using hleft

theorem Dealt.apart {q : Nat} (hd : Dealt fh page_size n d) (hp : p < n) (hq : q < n) (hpq : p ≠ q)
    (hdev : device fh page_size p = device fh page_size q) :
    (d.pages p).offset + page_size ≤ (d.pages q).offset ∨ (d.pages q).offset + page_size ≤ (d.pages p).offset := by
  obtain ⟨j, -, hj, -⟩ := hd.placed p hp
  have hmem {i : Nat} (hi : i < n) (hij : device fh page_size i = some j) : ∃ k, ∃ hk : k < (pages_of fh page_size j n).length,
      (pages_of fh page_size j n)[k] = i ∧ (d.pages i).offset = k * page_size := by
    have hmem : i ∈ pages_of fh page_size j n := List.mem_filter.mpr ⟨List.mem_range.mpr hi, by simpa using hij⟩
    obtain ⟨k, hk, he⟩ := List.getElem_of_mem hmem
    refine ⟨k, hk, he, ?_⟩
    have hoff : ((pages_of fh page_size j n).map fun p => (d.pages p).offset)[k]? =
        ((List.range (pages_of fh page_size j n).length).map (· * page_size))[k]? := by
      rw [hd.offsets j]
    rw [List.getElem?_map, List.getElem?_map, List.getElem?_eq_getElem hk, List.getElem?_range hk, he] at hoff
    exact Option.some.inj hoff
  obtain ⟨k, hk, hkp, hoffp⟩ := hmem hp hj
  obtain ⟨l, hl, hlq, hoffq⟩ := hmem hq (hdev ▸ hj)
  have hkl : k ≠ l := by
    rintro rfl
    exact hpq (hkp.symm.trans hlq)
  rw [hoffp, hoffq, ← Nat.succ_mul, ← Nat.succ_mul]
  rcases Nat.lt_or_gt_of_ne hkl with hlt | hlt
  · exact .inl (Nat.mul_le_mul_right _ hlt)
  · exact .inr (Nat.mul_le_mul_right _ hlt)

/-- The loop ends, and each file has its pages from its start on, without a gap. -/
theorem pages_interleaved (fh : List ConfFile) (page_size : Nat) :
    ∃ d, init_pages fh page_size (total_pages fh) = some d ∧ Interleaved fh page_size d := by
  obtain ⟨d, hd, h⟩ := (dealt (Nat.le_refl (total_pages fh)) : ∃ d, init_pages fh page_size _ = some d ∧ _)
  refine ⟨d, hd, h.placed, fun j c hj => h.count hj, fun j c hj => ?_, fun p hp q hq => h.apart hp hq⟩
  rw [h.offsets j, h.count hj]

end Memcached.Exstore

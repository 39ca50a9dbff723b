import Mathlib.Algebra.BigOperators.Group.Finset.Basic
import Mathlib.Algebra.Order.Group.Multiset
import Mathlib.Data.Multiset.UnionInter
import Memcached.Lib.Ownership

/-!
# All things at some places

What lies at finitely many places is counted as often as it lies there. A thing that moves between two of the places
changes nothing; things that arrive at one of them are added.
-/

namespace Ownership

universe u v w

variable {ι : Type u} {κ : Type w} {α : Type v} {held held' : ι → List α} {other : κ → List α} {i : ι} {x : α}
  {s : Finset ι} {t : Finset κ}

def gathered (s : Finset ι) (held : ι → List α) : Multiset α := ∑ i ∈ s, (held i : Multiset α)

theorem card_gathered : (gathered s held).card = ∑ i ∈ s, (held i).length := Multiset.card_sum s _

theorem gathered_empty (h : ∀ i ∈ s, held i = []) : gathered s held = 0 :=
  Finset.sum_eq_zero fun i hi => by
    rw [h i hi]
    rfl

theorem gathered_congr (h : ∀ i ∈ s, held' i = held i) : gathered s held' = gathered s held :=
  Finset.sum_congr rfl fun i hi => by rw [h i hi]

theorem mem_gathered : x ∈ gathered s held ↔ ∃ i ∈ s, x ∈ held i := by simp [gathered, Multiset.mem_sum]

variable [DecidableEq ι]

theorem gathered_erase (hi : i ∈ s) : gathered s held = (held i : Multiset α) + gathered (s.erase i) held :=
  (Finset.add_sum_erase s _ hi).symm

theorem gathered_arrive {xs : List α} (hi : i ∈ s) (hp : (held' i).Perm (xs ++ held i))
    (hrest : ∀ k, k ≠ i → held' k = held k) : gathered s held' = (xs : Multiset α) + gathered s held := by
  have hother : gathered (s.erase i) held' = gathered (s.erase i) held :=
    gathered_congr fun k hk => hrest k (Finset.ne_of_mem_erase hk)
  calc gathered s held' = (held' i : Multiset α) + gathered (s.erase i) held' := gathered_erase hi
    _ = ((xs ++ held i : List α) : Multiset α) + gathered (s.erase i) held := by
      rw [hother, Multiset.coe_eq_coe.mpr hp]
    _ = (xs : Multiset α) + gathered s held := by
      rw [← Multiset.coe_add, add_assoc, ← gathered_erase hi]

/-- At places that are apart nothing is counted twice. -/
theorem Apart.nodup_gathered (h : Apart held) : (gathered s held).Nodup := by
  induction s using Finset.induction_on with
  | empty => exact Multiset.nodup_zero
  | insert i s hi ih =>
      have hall : gathered (insert i s) held = (held i : Multiset α) + gathered s held := Finset.sum_insert hi
      rw [hall, Multiset.nodup_add]
      refine ⟨Multiset.coe_nodup.mpr (h.nodup i), ih, Multiset.disjoint_left.mpr fun {x} hx hs => ?_⟩
      obtain ⟨k, hk, hxk⟩ := mem_gathered.mp hs
      exact hi (h.place (Multiset.mem_coe.mp hx) hxk ▸ hk)

/-- Of places that are apart, some hold fewer things than others that hold theirs and one more. -/
theorem Apart.card_gathered_lt (h : Apart held) (hsub : ∀ i ∈ s, ∀ x ∈ held i, x ∈ gathered t other)
    (hx : x ∈ gathered t other) (hnot : ∀ i ∈ s, x ∉ held i) : (gathered s held).card < (gathered t other).card := by
  refine Multiset.card_lt_card (lt_of_le_of_ne ?_ fun heq => ?_)
  · refine (Multiset.le_iff_subset h.nodup_gathered).mpr fun y hy => ?_
    obtain ⟨i, hi, hy⟩ := mem_gathered.mp hy
    exact hsub i hi y hy
  · rw [← heq] at hx
    obtain ⟨i, hi, hx⟩ := mem_gathered.mp hx
    exact hnot i hi hx

end Ownership

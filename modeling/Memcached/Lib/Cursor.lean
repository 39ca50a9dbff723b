import Mathlib.Data.List.Basic
import Mathlib.Data.List.Nodup
import Memcached.Lib.Run

/-!
# A cursor in a list that is edited

A cursor walks from the end of a list to its head, while elements are linked at the head and unlinked anywhere. What is
in the list from the start, and is never unlinked, is passed once, in order.
-/

namespace Cursor

open Transition

universe u

/-- What the cursor has not reached, and what it has passed. -/
structure Position (α : Type u) where
  ahead : List α
  behind : List α

namespace Position

variable {α : Type u}

def list (w : Position α) : List α := w.ahead ++ w.behind

end Position

inductive Edit (α : Type u)
  | link (x : α)
  | unlink (x : α)
  /-- The cursor goes past `x`. -/
  | pass (x : α)
  /-- Something else happens. -/
  | other

namespace Edit

variable {α : Type u}

def unlinked : Edit α → Option α
  | .unlink x => some x
  | _ => none

def passed : Edit α → Option α
  | .pass x => some x
  | _ => none

def linked : Edit α → Option α
  | .link x => some x
  | _ => none

end Edit

variable {α : Type u} [DecidableEq α]

/-- What an edit makes of the list itself: the cursor does not change it. -/
def Edit.apply (l : List α) : Edit α → List α
  | .link x => x :: l
  | .unlink x => l.erase x
  | .pass _ => l
  | .other => l

inductive Edited : Position α → Edit α → Position α → Prop
  | link {w : Position α} {x : α} (hx : x ∉ w.list) : Edited w (.link x) ⟨x :: w.ahead, w.behind⟩
  | unlink {w : Position α} {x : α} (hx : x ∈ w.list) :
      Edited w (.unlink x) ⟨w.ahead.erase x, w.behind.erase x⟩
  | pass {ahead behind : List α} {x : α} : Edited ⟨ahead ++ [x], behind⟩ (.pass x) ⟨ahead, x :: behind⟩
  | other {w : Position α} : Edited w .other w

variable {w w' : Position α} {e : Edit α} {es : List (Edit α)} {p : α → Bool}

/-! ## What stays -/

theorem filter_erase_of_not {l : List α} {x : α} (hx : ¬ p x) : (l.erase x).filter p = l.filter p := by
  rw [← List.erase_filter, List.erase_of_not_mem fun hm => hx (List.of_mem_filter hm)]

theorem Edited.nodup (h : Edited w e w') (hw : w.list.Nodup) : w'.list.Nodup := by
  cases h with
  | link hx => exact List.nodup_cons.mpr ⟨hx, hw⟩
  | unlink hx =>
      obtain ⟨ha, hb, hne⟩ := List.nodup_append.mp hw
      exact List.nodup_append.mpr ⟨ha.erase _, hb.erase _,
        fun y hy z hz => hne y (List.mem_of_mem_erase hy) z (List.mem_of_mem_erase hz)⟩
  | pass => simpa [Position.list] using hw
  | other => exact hw

theorem Edited.list (h : Edited w e w') (hw : w.list.Nodup) : w'.list = e.apply w.list := by
  cases h with
  | link => rfl
  | @unlink _ x hx =>
      simp only [Position.list, Edit.apply]
      by_cases ha : x ∈ w.ahead
      · have hb : x ∉ w.behind := fun hb => (List.nodup_append.mp hw).2.2 x ha x hb rfl
        rw [List.erase_append_left _ ha, List.erase_of_not_mem hb]
      · rw [List.erase_append_right _ ha, List.erase_of_not_mem ha]
  | pass => simp [Position.list, Edit.apply]
  | other => rfl

/-- A step keeps the order of what it does not unlink, and counts what it passes. -/
theorem Edited.filter (h : Edited w e w') (hun : ∀ x ∈ e.unlinked, ¬ p x) (hmem : ∀ x, p x → x ∈ w.list) :
    w'.list.filter p = w.list.filter p ∧ w'.behind.filter p = e.passed.toList.filter p ++ w.behind.filter p := by
  cases h with
  | link hx =>
      have hp : ¬ p _ := fun hp => hx (hmem _ hp)
      exact ⟨List.filter_cons_of_neg hp, rfl⟩
  | unlink hx =>
      have hp := hun _ rfl
      exact ⟨by simp only [Position.list, List.filter_append, filter_erase_of_not hp], filter_erase_of_not hp⟩
  | pass => exact ⟨by simp [Position.list], by rw [← List.filter_append]; rfl⟩
  | other => exact ⟨rfl, rfl⟩

theorem Edited.mem {x : α} (h : Edited w e w') (hun : x ∉ e.unlinked) (hx : x ∈ w.list) : x ∈ w'.list := by
  cases h with
  | link => exact List.mem_cons_of_mem _ hx
  | @unlink _ y hy =>
      have hne : x ≠ y := fun he => hun (he ▸ rfl)
      simpa [Position.list, List.mem_erase_of_ne hne] using hx
  | pass => simpa [Position.list, or_left_comm, or_assoc] using hx
  | other => exact hx

/-! ## Runs -/

/-- What was in the list and is never unlinked stays in its order, and the cursor passed it where it is behind. -/
theorem run_filter (h : Run Edited w es w') (hun : ∀ x ∈ es.filterMap Edit.unlinked, ¬ p x)
    (hmem : ∀ x, p x → x ∈ w.list) :
    w'.list.filter p = w.list.filter p ∧
      w'.behind.filter p = ((es.filterMap Edit.passed).filter p).reverse ++ w.behind.filter p := by
  induction h with
  | nil => exact ⟨rfl, rfl⟩
  | @cons w w₁ w' e es hstep hrun ih =>
      have hun₁ : ∀ x ∈ e.unlinked, ¬ p x := fun x hx => hun x (List.mem_filterMap.mpr ⟨e, by simp, hx⟩)
      obtain ⟨hlist, hbehind⟩ := hstep.filter hun₁ hmem
      obtain ⟨hlist', hbehind'⟩ := ih
        (fun x hx => hun x (by rw [List.filterMap_cons]; cases e.unlinked <;> simp [hx]))
        fun x hp => hstep.mem (fun hx => hun₁ x hx hp) (hmem x hp)
      refine ⟨hlist'.trans hlist, ?_⟩
      rw [hbehind', hbehind, ← List.append_assoc]
      congr 1
      rw [List.filterMap_cons]
      cases e.passed with
      | none => simp
      | some x => cases hp : p x <;> simp [hp]

/-- What was ahead of the cursor and is never unlinked: the cursor passed the last ones, backwards, and the others are
still ahead. -/
theorem run_passed (h : Run Edited w es w') (hun : ∀ x ∈ es.filterMap Edit.unlinked, ¬ p x)
    (hmem : ∀ x, p x → x ∈ w.list) :
    w.ahead.filter p = w'.ahead.filter p ++ ((es.filterMap Edit.passed).filter p).reverse := by
  obtain ⟨hlist, hbehind⟩ := run_filter h hun hmem
  rw [Position.list, Position.list, List.filter_append, List.filter_append, hbehind, ← List.append_assoc] at hlist
  exact (List.append_cancel_right hlist).symm

theorem run_list (h : Run Edited w es w') (hw : w.list.Nodup) : w'.list = es.foldl Edit.apply w.list := by
  induction h with
  | nil => rfl
  | cons hstep hrun ih => rw [ih (hstep.nodup hw), hstep.list hw, List.foldl_cons]

/-- The cursor comes to the head at last: it passes no more elements than there were or were linked. -/
theorem run_length (h : Run Edited w es w') :
    w'.ahead.length + (es.filterMap Edit.passed).length ≤ w.ahead.length + (es.filterMap Edit.linked).length := by
  induction h with
  | nil => simp
  | @cons w w₁ w' e es hstep hrun ih =>
      cases hstep with
      | link =>
          simp [List.filterMap_cons, Edit.linked, Edit.passed] at ih ⊢
          omega
      | @unlink _ x hx =>
          have hle := @List.length_erase_le _ _ x w.ahead
          simp [List.filterMap_cons, Edit.linked, Edit.passed] at ih ⊢
          omega
      | pass =>
          simp [List.filterMap_cons, Edit.linked, Edit.passed] at ih ⊢
          omega
      | other => simpa [List.filterMap_cons, Edit.linked, Edit.passed] using ih

end Cursor

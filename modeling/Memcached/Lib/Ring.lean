import Mathlib.Data.Nat.ModEq
import Mathlib.Logic.Function.Basic

/-!
# Rings of slots

A ring of `size` slots holds the last `size` rows that were put into it, each at its number modulo `size`.
-/

namespace Ring

universe u

variable {α : Type u} {size pos pos' i : Nat} {ring : Nat → α} {rows : List α} {z x : α} {p : α → Prop}

/-- The rows, the last one first and at `pos`; where there are none, `z`. -/
def Holds (size pos : Nat) (ring : Nat → α) (rows : List α) (z : α) : Prop :=
  ∀ k < size, ring ((pos + (size - k)) % size) = rows.getD k z

theorem holds_start : Holds size pos (fun _ => z) [] z := fun _ _ => by simp

theorem Holds.congr (h : Holds size pos ring rows z) (hpos : pos' % size = pos % size) : Holds size pos' ring rows z := by
  intro k hk
  have heq : (pos' + (size - k)) % size = (pos + (size - k)) % size := Nat.ModEq.add_right _ hpos
  rw [heq]
  exact h k hk

/-- Each slot is that of a row. -/
theorem exists_slot (pos : Nat) (hi : i < size) : ∃ k < size, (pos + (size - k)) % size = i := by
  have hm : pos % size < size := Nat.mod_lt _ (by omega)
  have hsplit (k : Nat) : (pos + (size - k)) % size = (pos % size + (size - k)) % size := (Nat.mod_add_mod ..).symm
  rcases Nat.lt_or_ge (pos % size) i with hlt | hle
  · refine ⟨pos % size + size - i, by omega, ?_⟩
    rw [hsplit, show pos % size + (size - (pos % size + size - i)) = i by omega, Nat.mod_eq_of_lt hi]
  · refine ⟨pos % size - i, by omega, ?_⟩
    rw [hsplit, show pos % size + (size - (pos % size - i)) = i + size by omega, Nat.add_mod_right, Nat.mod_eq_of_lt hi]

theorem Holds.forall_iff (h : Holds size pos ring rows z) :
    (∀ i < size, p (ring i)) ↔ ∀ k < size, p (rows.getD k z) := by
  constructor
  · intro hall k hk
    rw [← h k hk]
    exact hall _ (Nat.mod_lt _ (by omega))
  · intro hall i hi
    obtain ⟨k, hk, rfl⟩ := exists_slot pos hi
    rw [h k hk]
    exact hall k hk

/-- A row is put into the next slot. -/
theorem Holds.put (h : Holds size pos ring rows z) (hpos : pos' % size = (pos + 1) % size) (x : α) :
    Holds size pos' (Function.update ring (pos' % size) x) (x :: rows) z := by
  intro k hk
  cases k with
  | zero => simp
  | succ k =>
      have hslot : (pos' + (size - (k + 1))) % size = (pos + (size - k)) % size := by
        have heq : (pos' + (size - (k + 1))) % size = (pos + 1 + (size - (k + 1))) % size := Nat.ModEq.add_right _ hpos
        rw [heq]
        congr 1
        omega
      have hne : (pos' + (size - (k + 1))) % size ≠ pos' % size := by
        intro heq
        have hzero : (size - (k + 1)) % size = 0 % size := Nat.ModEq.add_left_cancel' pos' heq
        rw [Nat.mod_eq_of_lt (by omega), Nat.zero_mod] at hzero
        omega
      rw [Function.update_of_ne hne, hslot, h k (by omega)]
      rfl

end Ring

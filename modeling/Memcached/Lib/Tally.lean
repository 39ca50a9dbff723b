import Mathlib.Data.Finset.Card

/-!
# Counting by keys

Members of a set that have a key are counted under it; others are not counted.
-/

namespace Tally

universe u v

variable {α : Type u} {β : Type v} [DecidableEq β] {key key' : α → Option β} {L : Finset α} {a : α} {b : β}

/-- How many members have the key. -/
def tally (key : α → Option β) (L : Finset α) (b : β) : Nat := (L.filter fun a => key a = some b).card

/-- What a member counts under a key. -/
def one (k : Option β) (b : β) : Nat := if k = some b then 1 else 0

theorem tally_congr (h : ∀ a ∈ L, key' a = key a) : tally key' L b = tally key L b := by
  rw [tally, Finset.filter_congr fun a ha => by rw [h a ha]]
  rfl

theorem tally_none (h : ∀ a ∈ L, key a = none) : tally key L b = 0 := by
  refine Finset.card_eq_zero.mpr (Finset.filter_eq_empty_iff.mpr fun a ha => ?_)
  rw [h a ha]
  exact nofun

theorem tally_le_card : tally key L b ≤ L.card := Finset.card_filter_le ..

variable [DecidableEq α]

theorem tally_insert (h : a ∉ L) : tally key (insert a L) b = tally key L b + one (key a) b := by
  rw [tally, Finset.filter_insert, one]
  split_ifs
  · exact Finset.card_insert_of_notMem fun ha => h (Finset.mem_of_mem_filter a ha)
  · rfl

theorem tally_erase (h : a ∈ L) : tally key (L.erase a) b + one (key a) b = tally key L b := by
  rw [← tally_insert (Finset.notMem_erase a L), Finset.insert_erase h]

/-- A member gets another key. -/
theorem tally_update (h : a ∈ L) (hother : ∀ c ∈ L, c ≠ a → key' c = key c) :
    tally key' L b + one (key a) b = tally key L b + one (key' a) b := by
  have hrest : tally key' (L.erase a) b = tally key (L.erase a) b :=
    tally_congr fun c hc => hother c (Finset.mem_of_mem_erase hc) (Finset.ne_of_mem_erase hc)
  have hold : tally key (L.erase a) b + one (key a) b = tally key L b := tally_erase h
  have hnew : tally key' (L.erase a) b + one (key' a) b = tally key' L b := tally_erase h
  rw [← hold, ← hnew, hrest]
  exact Nat.add_right_comm ..

end Tally

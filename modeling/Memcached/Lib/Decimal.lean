import Mathlib.Data.List.Basic
import Mathlib.Data.UInt

/-!
# Decimal numbers as bytes

The digits of a number, and the value of a run of digits. What follows the digits in a text is anything that does not
start with another digit.
-/

namespace Decimal

def isdigit (b : UInt8) : Bool := 48 ≤ b ∧ b ≤ 57

/-- The digits of `n`, the first one first. -/
def digits (n : Nat) : List UInt8 := (Nat.toDigits 10 n).map fun c => .ofNat c.toNat

/-- The value of a run of digits. -/
def value (ds : List UInt8) : Nat := ds.foldl (fun n d => 10 * n + (d.toNat - 48)) 0

variable {n k : Nat} {rest : List UInt8}

theorem digit_toNat {c : Char} (hc : c.isDigit = true) : 48 ≤ c.toNat ∧ c.toNat ≤ 57 := by
  simp only [Char.isDigit, Bool.and_eq_true, decide_eq_true_eq] at hc
  exact ⟨hc.1, hc.2⟩

theorem isdigit_of_mem {d : UInt8} (hd : d ∈ digits n) : isdigit d = true := by
  obtain ⟨c, hc, rfl⟩ := List.mem_map.mp hd
  obtain ⟨hlo, hhi⟩ := digit_toNat (Nat.isDigit_of_mem_toDigits (by decide) (by decide) hc)
  simp only [isdigit, UInt8.le_iff_toNat_le, UInt8.toNat_ofNat', decide_eq_true_eq]
  simp only [UInt8.reduceToNat]
  omega

theorem digits_ne_nil : digits n ≠ [] := by simp [digits]

theorem length_digits_le (hk : 0 < k) (hn : n < 10 ^ k) : (digits n).length ≤ k := by
  rw [digits, List.length_map]
  exact (Nat.length_toDigits_le_iff (by decide) hk).mpr hn

theorem value_digits : value (digits n) = n := by
  have hfold : value (digits n) = Nat.ofDigitChars 10 (Nat.toDigits 10 n) 0 := by
    rw [value, digits, List.foldl_map, Nat.ofDigitChars_eq_foldl]
    refine List.foldl_ext _ _ _ fun m c hc => ?_
    obtain ⟨hlo, hhi⟩ := digit_toNat (Nat.isDigit_of_mem_toDigits (by decide) (by decide) hc)
    rw [UInt8.toNat_ofNat', Nat.mod_eq_of_lt (by omega)]
    rfl
  rw [hfold, Nat.ofDigitChars_ten_toDigits]

/-! ## Digits in front of a text -/

theorem takeWhile_digits (hrest : ∀ b ∈ rest.head?, isdigit b = false) :
    (digits n ++ rest).takeWhile isdigit = digits n := by
  rw [List.takeWhile_append_of_pos fun d hd => isdigit_of_mem hd]
  cases rest with
  | nil => simp
  | cons b rest =>
      have hb : isdigit b = false := hrest b rfl
      simp [hb]

theorem dropWhile_digits (hrest : ∀ b ∈ rest.head?, isdigit b = false) :
    (digits n ++ rest).dropWhile isdigit = rest := by
  rw [List.dropWhile_append_of_pos fun d hd => isdigit_of_mem hd]
  cases rest with
  | nil => rfl
  | cons b rest =>
      have hb : isdigit b = false := hrest b rfl
      simp [hb]

end Decimal

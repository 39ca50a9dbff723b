import Mathlib.Tactic.SplitIfs
import Memcached.Lib.Decimal
import Memcached.Thread.Lemmas.BinaryDispatch
import Memcached.Thread.Lru

/-!
# What `lru tune` accepts

The percentages are added as 32-bit numbers before they are compared. A sum that wraps around passes, and is stored as an
`int` below zero and one above.
-/

namespace Memcached.Thread

variable {Double : Type} {numbers : Numbers} {doubles : Doubles Double} {settings settings' : LruSettings Double}
  {tokens : List (List UInt8)}

/-- HOT and WARM together are given four fifths at most, and the limits are what they are meant to be. -/
structure Tuned (settings : LruSettings Double) : Prop where
  sum_le : settings.hot_lru_pct + settings.warm_lru_pct ≤ 80
  hot_exact : ∀ total_bytes : UInt64, total_bytes.toNat ≤ 2 ^ 57 →
    ((pct_bytes total_bytes settings.hot_lru_pct).toNat : Int) = total_bytes.toNat * settings.hot_lru_pct
  warm_exact : ∀ total_bytes : UInt64, total_bytes.toNat ≤ 2 ^ 57 →
    ((pct_bytes total_bytes settings.warm_lru_pct).toNat : Int) = total_bytes.toNat * settings.warm_lru_pct
  cold_left : ∀ total_bytes : UInt64, total_bytes.toNat ≤ 2 ^ 57 →
    5 * ((pct_limit total_bytes settings.hot_lru_pct).toNat + (pct_limit total_bytes settings.warm_lru_pct).toNat) ≤
      4 * total_bytes.toNat

/-! ## Percentages -/

theorem pct_bytes_exact {total_bytes : UInt64} {n : Nat} (ht : total_bytes.toNat ≤ 2 ^ 57) (hn : n ≤ 80) :
    (pct_bytes total_bytes n).toNat = total_bytes.toNat * n := by
  have hof : (UInt64.ofInt (n : Int)).toNat = n := by
    rw [UInt64.ofInt, UInt64.toNat_ofNat']
    omega
  have hprod : total_bytes.toNat * n ≤ 2 ^ 57 * 80 := Nat.mul_le_mul ht hn
  rw [pct_bytes, UInt64.toNat_mul, hof]
  exact Nat.mod_eq_of_lt (Nat.lt_of_le_of_lt hprod (by decide))

theorem pct_bytes_of_neg {k : Int} (hk : k < 0) (total_bytes : UInt64) (ht : 0 < total_bytes.toNat) :
    ((pct_bytes total_bytes k).toNat : Int) ≠ total_bytes.toNat * k := by
  have hneg : (total_bytes.toNat : Int) * k < 0 := Int.mul_neg_of_pos_of_neg (by exact_mod_cast ht) hk
  omega

theorem c_int_neg {n : Nat} (h : 2 ^ 31 ≤ n) (hn : n < 2 ^ 32) : c_int n < 0 := by
  simp only [c_int, Int.bmod]
  omega

/-! ## The command -/

theorem tune_stores (htune : tokens.getD 1 [] = c_string "tune")
    (h : process_lru_command numbers doubles settings tokens = (settings', "OK")) :
    ∃ pct_hot pct_warm, numbers.safe_strtoul (tokens.getD 2 []) = some pct_hot ∧
      numbers.safe_strtoul (tokens.getD 3 []) = some pct_warm ∧ pct_hot + pct_warm ≤ 80 ∧
      settings'.hot_lru_pct = c_int pct_hot.toNat ∧ settings'.warm_lru_pct = c_int pct_warm.toNat := by
  have herror : "ERROR" ≠ "OK" := by decide
  have hpcts : "ERROR hot and warm pcts must not exceed 80" ≠ "OK" := by decide
  have hfactors : "ERROR hot/warm age factors must be greater than 0" ≠ "OK" := by decide
  have hmode : ¬ tokens.getD 1 [] = c_string "mode" := by rw [htune]; decide
  have httl : ¬ tokens.getD 1 [] = c_string "temp_ttl" := by rw [htune]; decide
  unfold process_lru_command at h
  dsimp only at h
  split at h
  · split at h
    · next pct_hot pct_warm hot_factor factor hhot hwarm _ _ =>
      split_ifs at h with hsum
      · exact absurd (Prod.mk.inj h).2 hpcts
      · exact absurd (Prod.mk.inj h).2 hfactors
      · obtain ⟨rfl, -⟩ := Prod.mk.inj h
        refine ⟨pct_hot, pct_warm, hhot, hwarm, UInt32.not_lt.mp hsum, ?_, ?_⟩ <;> simp only
    · exact absurd (Prod.mk.inj h).2 herror
  · rw [if_neg fun hm => hmode hm.1, if_neg fun ht => httl ht.1] at h
    exact absurd (Prod.mk.inj h).2 herror

/-- The number parsers on runs of digits. -/
def digit_numbers : Numbers where
  safe_strtoul token :=
    if token.all Decimal.isdigit ∧ token ≠ [] ∧ Decimal.value token < 2 ^ 32 then some (.ofNat (Decimal.value token))
    else none
  safe_strtol _ := none
  safe_strtoull _ := none

/-- Whole factors. -/
def whole_doubles : Doubles Nat where
  safe_strtod token := if token.all Decimal.isdigit ∧ token ≠ [] then some (Decimal.value token) else none
  le_zero factor := factor = 0

def default_lru : LruSettings Nat where
  lru_maintainer_thread := true
  lru_segmented := true
  temp_lru := false
  temporary_ttl := 61
  hot_lru_pct := 20
  warm_lru_pct := 40
  hot_max_factor := 1
  warm_max_factor := 2

/-- `lru tune <hot> <warm> 1 2`. -/
def tune_tokens (hot warm : String) : List (List UInt8) := ["lru", "tune", hot, warm, "1", "2"].map c_string

end Memcached.Thread

import Memcached.Thread.Ascii

/-!
# The `lru` command of thread/memcached.c

The command tunes the sizes and ages at which HOT and WARM give items to COLD, and switches the LRU modes.
-/

namespace Memcached.Thread

/-- `double`, as far as the command needs it: `safe_strtod`, and whether a value is at most zero. -/
structure Doubles (Double : Type) where
  safe_strtod : List UInt8 → Option Double
  le_zero : Double → Bool

/-- The settings the command reads and writes. -/
structure LruSettings (Double : Type) where
  lru_maintainer_thread : Bool
  lru_segmented : Bool
  temp_lru : Bool
  temporary_ttl : UInt32
  /-- An `int`. -/
  hot_lru_pct : Int
  warm_lru_pct : Int
  hot_max_factor : Double
  warm_max_factor : Double
  deriving DecidableEq

variable {Double : Type}

/-- `process_lru_command`, with the string it gives to `out_string`. -/
def process_lru_command (numbers : Numbers) (doubles : Doubles Double) (settings : LruSettings Double)
    (tokens : List (List UInt8)) : LruSettings Double × String :=
  let ntokens := tokens.length + 1
  let token (i : Nat) := tokens.getD i []
  if token 1 = c_string "tune" ∧ ntokens ≥ 7 then
    match numbers.safe_strtoul (token 2), numbers.safe_strtoul (token 3), doubles.safe_strtod (token 4),
        doubles.safe_strtod (token 5) with
    | some pct_hot, some pct_warm, some hot_factor, some factor =>
        if pct_hot + pct_warm > 80 then (settings, "ERROR hot and warm pcts must not exceed 80")
        else if doubles.le_zero factor ∨ doubles.le_zero hot_factor then
          (settings, "ERROR hot/warm age factors must be greater than 0")
        else
          ({ settings with
              hot_lru_pct := c_int pct_hot.toNat
              warm_lru_pct := c_int pct_warm.toNat
              hot_max_factor := hot_factor
              warm_max_factor := factor }, "OK")
    | _, _, _, _ => (settings, "ERROR")
  else if token 1 = c_string "mode" ∧ ntokens ≥ 3 ∧ settings.lru_maintainer_thread then
    if token 2 = c_string "flat" then ({ settings with lru_segmented := false }, "OK")
    else if token 2 = c_string "segmented" then ({ settings with lru_segmented := true }, "OK")
    else (settings, "ERROR")
  else if token 1 = c_string "temp_ttl" ∧ ntokens ≥ 3 ∧ settings.lru_maintainer_thread then
    match numbers.safe_strtol (token 2) with
    | none => (settings, "ERROR")
    | some ttl =>
        if ttl < 0 then ({ settings with temp_lru := false }, "OK")
        else ({ settings with temp_lru := true, temporary_ttl := ttl.toUInt32 }, "OK")
  else (settings, "ERROR")

/-- `total_bytes * pct`, in which the `int` is converted to `uint64_t`. -/
def pct_bytes (total_bytes : UInt64) (pct : Int) : UInt64 := total_bytes * .ofInt pct

/-- The `limit` of a share in `lru_pull_tail`; where the product for HOT is 0, the code goes on to that for WARM. -/
def pct_limit (total_bytes : UInt64) (pct : Int) : UInt64 := pct_bytes total_bytes pct / 100

end Memcached.Thread

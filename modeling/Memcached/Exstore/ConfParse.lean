import Memcached.Exstore.StorageWrite
import Memcached.Thread.Ascii

/-!
# `storage_conf_parse` of exstore/storage.c

Allocations succeed. A function returns `none` where the code's behaviour is undefined or its assertion fails.
-/

namespace Memcached.Exstore

open Decimal
open SlabsCurd (isspace sign)
open Thread (c_string)

def PAGE_BUCKET_COMPACT : Nat := 1

/-! ## The C library -/

/-- `strtok_r` with one delimiter: the token, and what is behind it. -/
def strtok_r (delim : UInt8) (str : List UInt8) : Option (List UInt8 × List UInt8) :=
  match str.dropWhile (· = delim) with
  | [] => none
  | b :: str => some ((b :: str).takeWhile (· ≠ delim), ((b :: str).dropWhile (· ≠ delim)).tail)

/-- In the C locale. -/
def tolower (b : UInt8) : UInt8 := if 65 ≤ b ∧ b ≤ 90 then b + 32 else b

/-- It is undefined for a number that is not an `int`. -/
def atoi (str : List UInt8) : Option Int32 :=
  let (negative, rest) := sign (str.dropWhile isspace)
  let number : Int := value (rest.takeWhile isdigit)
  let number := if negative then -number else number
  if -2 ^ 31 ≤ number ∧ number < 2 ^ 31 then some (.ofInt number) else none

/-! ## The parser -/

/-- `extstore_conf_file`, as far as it is parsed. -/
structure PathConf where
  file : List UInt8
  page_count : UInt32
  free_bucket : Nat
  deriving DecidableEq

/-- `multiplier` after the `switch`. -/
def unit_multiplier (unit : UInt8) : UInt64 :=
  if unit = 109 then 1024 * 1024
  else if unit = 103 then 1024 * 1024 * 1024
  else if unit = 116 then 1024 * 1024 * (1024 * 1024)
  else if unit = 112 then 1024 * 1024 * (1024 * 1024 * 1024)
  else 0

/-- The bucket that a token names. -/
def named_bucket (p : List UInt8) : Option Nat :=
  if p = c_string "compact" then some PAGE_BUCKET_COMPACT
  else if p = c_string "lowttl" then some PAGE_BUCKET_LOWTTL
  else if p = c_string "chunked" then some PAGE_BUCKET_CHUNKED
  else if p = c_string "default" then some PAGE_BUCKET_DEFAULT
  else none

/-- The bucket of the path, by what is behind the size. -/
def conf_bucket (b : List UInt8) : Option Nat :=
  match strtok_r 44 b with
  | none => some PAGE_BUCKET_DEFAULT
  | some (p, _) => named_bucket p

/-- `some none` is `NULL`. -/
def storage_conf_parse (arg : List UInt8) (page_size : UInt32) : Option (Option PathConf) :=
  match strtok_r 58 arg with
  | none => some none
  | some (file, b) =>
      match strtok_r 58 b with
      | none => some none
      | some (p, b) =>
          let unit := tolower (p.getLast?.getD 0)
          match atoi p.dropLast with
          | none => none
          | some base_size =>
              let multiplier := unit_multiplier unit * base_size.toInt64.toUInt64
              if page_size = 0 then none
              else
                let page_count := (multiplier / page_size.toUInt64).toUInt32
                if (page_size * page_count).toUInt64 ≤ multiplier then
                  match conf_bucket b with
                  | none => some none
                  | some free_bucket =>
                      if free_bucket ≠ PAGE_BUCKET_DEFAULT then some none
                      else some (some ⟨file, page_count, free_bucket⟩)
                else none

end Memcached.Exstore

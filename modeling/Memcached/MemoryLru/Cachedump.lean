import Memcached.Lib.Decimal
import Memcached.Thread.Ascii

/-!
# `item_cachedump` of memory_lru/items.c

The COLD queue of a class is written to a buffer, one line an item. A pointer is a number, as it is compared with one.
-/

namespace Memcached.MemoryLru

open Thread (c_string KEY_MAX_LENGTH)

/-- 2MB max response size. -/
def memlimit : Nat := 2 * 1024 * 1024

/-- What is read of an item. That keys are not longer is asserted. -/
structure Listed where
  key : List UInt8
  nbytes : Int32
  exptime : UInt32
  nkey_le : key.length ≤ KEY_MAX_LENGTH

/-- A crawler in the queue. -/
def Listed.pseudo (it : Listed) : Prop := it.nbytes = 0 ∧ it.key = []

instance (it : Listed) : Decidable it.pseudo := inferInstanceAs (Decidable (_ ∧ _))

/-- The `%d` of `snprintf`. -/
def format_d (n : Int32) : List UInt8 :=
  if n < 0 then c_string "-" ++ Decimal.digits n.toInt.natAbs else Decimal.digits n.toInt.natAbs

/-- The line in `temp`; `%s` ends at the first null byte of `key_temp`. -/
def Listed.line (process_started : UInt64) (it : Listed) : List UInt8 :=
  c_string "ITEM " ++ it.key.takeWhile (· ≠ 0) ++ c_string " [" ++ format_d (it.nbytes - 2) ++ c_string " b; " ++
    Decimal.digits (if it.exptime = 0 then 0 else it.exptime.toUInt64 + process_started).toNat ++ c_string " s]\r\n"

/-- The loop: the bytes in the buffer when it ends. The buffer is at address `buffer`. -/
def dump_loop (process_started : UInt64) (buffer limit : Nat) : List Listed → Nat → List UInt8 → List UInt8
  | [], _, written => written
  | it :: rest, shown, written =>
      if limit = 0 ∨ shown < limit then
        if it.pseudo then dump_loop process_started buffer limit rest shown written
        else
          let temp := it.line process_started
          -- 6 is END\n\0
          if buffer + temp.length + 6 > memlimit then written
          else dump_loop process_started buffer limit rest (shown + 1) (written ++ temp)
      else written

/-- What `item_cachedump` leaves: the buffer it returns, if any, the length it gives, the end of what it wrote, and
whether the lock of the list is still held. -/
structure Dump where
  buffer : Option (List UInt8)
  bytes : Nat
  reached : Nat
  locked : Bool
  deriving DecidableEq

/-- `malloc` gives the address of the buffer, or nothing. -/
def item_cachedump (process_started : UInt64) (malloc : Option Nat) (queue : List Listed) (limit : Nat) : Dump :=
  match malloc with
  | none => { buffer := none, bytes := 0, reached := 0, locked := true }
  | some buffer =>
      let written := dump_loop process_started buffer limit queue 0 []
      { buffer := some (written ++ c_string "END\r\n")
        bytes := written.length + 5
        reached := written.length + 6
        locked := false }

end Memcached.MemoryLru

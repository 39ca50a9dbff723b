import Memcached.Lib.Memory
import Memcached.Thread.Ascii

/-!
# The buffer for statistics of thread/memcached.c

A function returns `none` where an assertion of the code fails, where it writes outside of the buffer, and where its
behaviour is undefined. No object is larger than `PTRDIFF_MAX` bytes.
-/

namespace Memcached.Thread

open Memory (write le)

def PTRDIFF_MAX : Nat := 2 ^ 63 - 1

/-- The arguments of `append_stats`: strings with their lengths. `allocated`: a `realloc` of a possible size succeeds. -/
structure StatLine where
  key : List UInt8
  val : List UInt8
  allocated : Bool
  key_lt : key.length < 2 ^ 16
  val_lt : val.length < 2 ^ 32
  key_str : 0 ∉ key
  val_str : 0 ∉ val

/-- `c->stats`. Without a buffer, `size` and `offset` may be those of an earlier one. -/
structure StatsBuf where
  buffer : Option (Nat → UInt8)
  size : Nat
  offset : Nat

/-- The header of `append_bin_stats`; what it does not set is 0. -/
def stat_header (klen bodylen : Nat) (opaque_id : UInt32) : List UInt8 :=
  [0x81, 0x10] ++ (le 2 klen).reverse ++ [0, 0, 0, 0] ++ (le 4 bodylen).reverse ++ le 4 opaque_id.toNat ++ le 8 0

namespace StatsBuf

variable (s : StatsBuf) (l : StatLine)

/-- `bytes` are written from `offset` on. -/
def put (bytes : List UInt8) : Option StatsBuf :=
  match s.buffer with
  | none => none
  | some mem =>
      if s.offset + bytes.length ≤ s.size then some { s with buffer := some (write mem s.offset bytes) } else none

def append_bin_stats (opaque_id : UInt32) : Option StatsBuf := do
  let bodylen := (l.key.length + l.val.length) % 2 ^ 32
  let body := if l.key.length > 0 then l.key ++ l.val else []
  let s ← s.put (stat_header l.key.length bodylen opaque_id ++ body)
  some { s with offset := (s.offset + 24 + bodylen) % 2 ^ 64 }

/-- `snprintf` to `offset`, with what it returns; it fails for more bytes, or more room, than an `int` says. -/
def snprintf (room : Nat) (text : List UInt8) : Option (StatsBuf × Nat) :=
  if text.length ≥ 2 ^ 31 ∨ room ≥ 2 ^ 31 then none
  else if room = 0 then some (s, text.length)
  else (s.put (text.take (room - 1) ++ [0])).map fun s => (s, text.length)

/-- What is printed for a key and a value. -/
def ascii_stat (key val : List UInt8) : List UInt8 :=
  if key = [] ∧ val = [] then c_string "END\r\n"
  else if val = [] then c_string "STAT " ++ key ++ c_string "\r\n"
  else c_string "STAT " ++ key ++ c_string " " ++ val ++ c_string "\r\n"

/-- `remaining` and `room` are `int`s, and `room` becomes a `size_t`. -/
def append_ascii_stats : Option StatsBuf := do
  let remaining := c_int (s.size - s.offset)
  let room := remaining - 1
  if room < -2 ^ 31 then none
  else
    let (s, nbytes) ← s.snprintf (room % 2 ^ 64).toNat (ascii_stat l.key l.val)
    some { s with offset := (s.offset + nbytes) % 2 ^ 64 }

/-- The loop that doubles `nsize`. -/
def double (needed offset : Nat) : Nat → Nat → Nat → Option Nat
  | 0, nsize, available => if needed > available then none else some nsize
  | n + 1, nsize, available =>
      if needed > available then
        if nsize > 0 then
          let nsize := 2 * nsize % 2 ^ 64
          double needed offset n nsize ((nsize + (2 ^ 64 - offset)) % 2 ^ 64)
        else none
      else some nsize

/-- `nsize` is doubled at most 64 times before it overflows. -/
def grow_stats_buf (needed : Nat) (allocated : Bool) : Option (StatsBuf × Bool) := do
  let s' := if s.buffer.isNone then { s with size := 0, offset := 0 } else s
  let nsize := if s.buffer.isNone then 1024 else s.size
  let nsize ← double needed s'.offset 64 nsize (s'.size - s'.offset)
  if nsize ≠ s'.size then
    if allocated ∧ nsize ≤ PTRDIFF_MAX then
      some ({ s' with buffer := some (s'.buffer.getD fun _ => 0), size := nsize }, true)
    else some (s', false)
  else some (s', true)

/-- The bytes that are asked for; the lengths are added as `uint32_t`s. -/
def needed (protocol : Protocol) : Nat :=
  match protocol with
  | .binary_prot => (l.val.length + l.key.length) % 2 ^ 32 + 24
  | .ascii_prot => (l.val.length + l.key.length + 10) % 2 ^ 32

def append_stats (protocol : Protocol) (opaque_id : UInt32) : Option StatsBuf :=
  if l.key = [] ∧ l.val ≠ [] then some s
  else do
    let (s, rv) ← s.grow_stats_buf (needed l protocol) l.allocated
    if rv = false then some s
    else
      let s ← match protocol with
        | .binary_prot => s.append_bin_stats l opaque_id
        | .ascii_prot => s.append_ascii_stats l
      if s.offset ≤ s.size then some s else none

end StatsBuf

end Memcached.Thread

import Memcached.Lib.Decimal
import Memcached.Lib.Memory
import Memcached.Thread.Ascii
import Memcached.Thread.PrefixStats

/-!
# The dump of thread/stats.c

A function returns `none` where an assertion of the code fails, where it writes outside of the buffer, and where
`snprintf` fails. `limit` is the largest room that `snprintf` takes: POSIX lets it fail for more than an `int` says.
-/

namespace Memcached.Thread

open Decimal (digits)
open Memory (write)

def format : List UInt8 := c_string "PREFIX %s get %llu hit %llu set %llu del %llu\r\n"

/-- `%llu`. -/
def llu (n : UInt64) : List UInt8 := digits n.toNat

/-- What is printed of an entry. -/
def PrefixStats.line (pfs : PrefixStats) : List UInt8 :=
  c_string "PREFIX " ++ pfs.prefix_str ++ c_string " get " ++ llu pfs.num_gets ++ c_string " hit " ++ llu pfs.num_hits ++
    c_string " set " ++ llu pfs.num_sets ++ c_string " del " ++ llu pfs.num_deletes ++ c_string "\r\n"

/-- A buffer of `size` bytes; `pos` is an `int`, the others are `size_t`s. -/
structure PrefixDump where
  buf : Nat → UInt8
  size : Nat
  pos : Int
  total_written : Nat

namespace PrefixDump

variable (d : PrefixDump)

/-- `bytes` are written from `pos` on. -/
def put (bytes : List UInt8) : Option PrefixDump :=
  if 0 ≤ d.pos ∧ d.pos.toNat + bytes.length ≤ d.size then some { d with buf := write d.buf d.pos.toNat bytes } else none

/-- `snprintf` to `pos`; `size - pos` is a `size_t`. -/
def snprintf (limit : Nat) (text : List UInt8) : Option PrefixDump :=
  let room := ((d.size - d.pos) % 2 ^ 64).toNat
  if text.length ≥ 2 ^ 31 ∨ room > limit then none
  else if room = 0 then some d
  else d.put (text.take (room - 1) ++ [0])

/-- The body of the loop. -/
def print (limit : Nat) (pfs : PrefixStats) : Option PrefixDump := do
  let written := pfs.line.length
  let d ← d.snprintf limit pfs.line
  let total_written := (d.total_written + written) % 2 ^ 64
  if total_written < d.size then some { d with pos := c_int (d.pos + written), total_written := total_written }
  else none

end PrefixDump

namespace PrefixTable

/-- The size of the buffer, a `size_t`. -/
def dump_size (t : PrefixTable) : Nat :=
  ((format.length + t.total_prefix_size + t.num_prefixes * (format.length - 2 + 4 * (20 - 4)) + 6) % 2 ^ 64).toNat

/-- The buffer and `*length`, or NULL. `allocated`: there is memory for the buffer, which then holds `mem`. -/
def stats_prefix_dump (limit : Nat) (t : PrefixTable) (allocated : Bool) (mem : Nat → UInt8) :
    Option (Option ((Nat → UInt8) × Int)) :=
  if allocated then do
    let d : PrefixDump := ⟨mem, t.dump_size, 0, 0⟩
    let d ← (List.range PREFIX_HASH_SIZE).foldlM (fun d i => (t.prefix_stats i).foldlM (·.print limit ·) d) d
    let d ← d.put (c_string "END\r\n" ++ [0])
    some (some (d.buf, c_int (d.pos + 5)))
  else some none

end PrefixTable

end Memcached.Thread

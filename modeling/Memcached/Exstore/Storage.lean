import Memcached.Lib.Memory
import Memcached.MemoryLru.Sizes
import Memcached.Exstore.Engine

/-!
# Objects in a write buffer: `storage_write` and `storage_compact_readback` of exstore/storage.c

An item is read byte by byte, so that what is copied of it and what is read back of the copy are the same fields at
different places. The write buffer that is granted is not full and has room for the object.
-/

namespace Memcached.Exstore

open MemoryLru (sizeof_item)
open Memory (read write le of_le)

def ITEM_LINKED : UInt8 := 1
def ITEM_CAS : UInt8 := 2
def ITEM_CHUNKED : UInt8 := 32

/-- `offsetof(item, nbytes)`. -/
def STORE_OFFSET : Nat := 32

/-! ## The fields of the item at `p` -/

section

variable (m : Nat → UInt8) (p : Nat)

def it_time : Nat := of_le (read m (p + 24) 4)
def it_exptime : Nat := of_le (read m (p + 28) 4)
def it_nbytes : Nat := of_le (read m (p + 32) 4)
def it_refcount : Nat := of_le (read m (p + 36) 2)
def it_nsuffix : Nat := (m (p + 38)).toNat
def it_flags : UInt8 := m (p + 39)
def it_nkey : Nat := (m (p + 41)).toNat

/-- The bytes of the CAS value, where an item has one. -/
def sizeof_cas : Nat := if it_flags m p &&& ITEM_CAS ≠ 0 then 8 else 0

def ITEM_ntotal : Nat := sizeof_item + it_nkey m p + 1 + it_nsuffix m p + it_nbytes m p + sizeof_cas m p

def ITEM_key : List UInt8 := read m (p + sizeof_item + sizeof_cas m p) (it_nkey m p)

end

/-! ## Writing -/

/-- An item in memory, from its first byte on; if it is chunked, the bytes used in each of its chunks. `hv` is the hash
value of its key. Keys are not empty, and the chunks hold the value. -/
structure Source where
  mem : Nat → UInt8
  chunks : List (List UInt8)
  hv : UInt32
  nkey_pos : 0 < it_nkey mem 0
  nbytes_lt : it_nbytes mem 0 < 2 ^ 31
  used : it_flags mem 0 &&& ITEM_CHUNKED ≠ 0 → chunks.flatten.length = it_nbytes mem 0

namespace Source

variable (it : Source)

def ntotal : Nat := ITEM_ntotal it.mem 0

def hdrtotal : Nat := it.ntotal - it_nbytes it.mem 0

/-- The bytes of the value, of all chunks in order. -/
def value : List UInt8 :=
  if it_flags it.mem 0 &&& ITEM_CHUNKED ≠ 0 then it.chunks.flatten else read it.mem it.hdrtotal (it_nbytes it.mem 0)

end Source

/-- The loop over the chunks: `none` where an assertion fails. -/
def copy_chunks (buf : Nat) : List (List UInt8) → Nat → Nat → (Nat → UInt8) → Option (Nat → UInt8)
  | [], _, _, m => some m
  | data :: sch, remain, copied, m =>
      if remain = 0 then some m
      else if remain < data.length then none
      else copy_chunks buf sch (remain - data.length) (copied + data.length) (write m (buf + copied) data)

/-- What `storage_write` does between `extstore_write_request`, which gave `buf`, and `extstore_write`. -/
def copy_object (crc32c : List UInt8 → Nat) (it : Source) (buf : Nat) (m : Nat → UInt8) : Option (Nat → UInt8) := do
  let orig_ntotal := it.ntotal
  -- cuddle the hash value into the time field
  let m := write m (buf + 24) (le 4 it.hv.toNat)
  let m ←
    if it_flags it.mem 0 &&& ITEM_CHUNKED ≠ 0 then
      let header := write m (buf + STORE_OFFSET) (read it.mem STORE_OFFSET (it.hdrtotal - STORE_OFFSET))
      copy_chunks buf it.chunks orig_ntotal it.hdrtotal header
    else some (write m (buf + STORE_OFFSET) (read it.mem STORE_OFFSET (orig_ntotal - STORE_OFFSET)))
  let m := write m (buf + 39) [it_flags m buf &&& ~~~ITEM_LINKED]
  some (write m (buf + 28) (le 4 (crc32c (read m (buf + STORE_OFFSET) (orig_ntotal - STORE_OFFSET)))))

/-- An object in write buffer `w`: `none` where there is no room for it. -/
def write_object (crc32c : List UInt8 → Nat) (w : Wbuf) (it : Source) : Option Wbuf := do
  if w.full ∨ w.free < it.ntotal then none
  else
    let m ← copy_object crc32c it w.buf_pos w.buf
    some { w with buf := m, buf_pos := w.buf_pos + it.ntotal, free := w.free - it.ntotal }

/-- A write buffer as `_allocate_wbuf` hands it out; its memory holds anything. -/
def Wbuf.fresh (buf : Nat → UInt8) (size offset : Nat) : Wbuf :=
  { buf := buf, buf_pos := 0, free := size, size := size, offset := offset, full := false, flushed := false }

/-- The end of the buffer is zeroed when it is flushed. -/
def Wbuf.zero_end (w : Wbuf) : Wbuf := { w with buf := write w.buf (w.size - w.free) (List.replicate w.free 0) }

/-! ## Reading back -/

/-- An object that the scan comes to: where it is, and its key and hash value. -/
structure Visit where
  offset : Nat
  ntotal : Nat
  key : List UInt8
  hv : Nat
  deriving DecidableEq

/-- The loop of `storage_compact_readback`, as far as it walks over the buffer: `none` where it reads past `read_size`,
or has made `fuel` rounds. -/
def scan (m : Nat → UInt8) (read_size : Nat) : Nat → Nat → Option (List Visit)
  | 0, _ => none
  | fuel + 1, offset =>
      if read_size ≤ offset then some []
      else if read_size < offset + sizeof_item then none
      -- probably zeroed out junk at the end of the wbuf
      else if it_nkey m offset = 0 then some []
      else
        let ntotal := ITEM_ntotal m offset % 2 ^ 32
        if read_size < offset + ntotal then none
        else
          let visit : Visit := ⟨offset, ntotal, ITEM_key m offset, it_time m offset⟩
          if read_size - (offset + ntotal) < sizeof_item then some [visit]
          else (scan m read_size fuel (offset + ntotal)).map (visit :: ·)

end Memcached.Exstore

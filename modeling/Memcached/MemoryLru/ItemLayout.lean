import Memcached.Lib.Decimal
import Memcached.Lib.Memory
import Memcached.MemoryLru.Items
import Memcached.MemoryLru.SlabClasses

/-!
# Items and chunks in bytes

What `do_item_alloc` and `do_item_alloc_chunk` ask `do_slabs_alloc` for, and what they write to the chunk they get, by
offsets. `it_flags` of a free chunk is `ITEM_SLABBED`, so it is 0 in a chunk that has just been allocated.
-/

namespace Memcached.MemoryLru

structure Write where
  offset : Nat
  bytes : List UInt8
  deriving DecidableEq

/-- Bytes that belong to an item or a chunk. -/
structure Part where
  offset : Nat
  length : Nat
  deriving DecidableEq

inductive Allocated
  /-- The assertion in `do_slabs_alloc` fails. -/
  | assertion
  | null
  /-- A chunk of `size` bytes. -/
  | chunk (size : Nat) (writes : List Write) (parts : List Part)
  deriving DecidableEq

def Allocated.use (writes : List Write) (parts : List Part) : Allocated → Allocated
  | .chunk size _ _ => .chunk size writes parts
  | r => r

/-! ## slabs.c -/

/-- `do_slabs_alloc`. `free`: the class has a free chunk, or gets a page. -/
def SlabClasses.do_slabs_alloc (t : SlabClasses) (size id : Nat) (free : Bool) : Allocated :=
  if id < POWER_SMALLEST ∨ id > t.power_largest then .null
  else if ¬ size ≤ t.size id then .assertion
  else if free then .chunk (t.size id) [] []
  else .null

/-! ## items.c -/

/-- The loop of `do_item_alloc_pull`: the class is tried again while something can be evicted. -/
def SlabClasses.do_item_alloc_pull (t : SlabClasses) (ntotal id : Nat) : List Bool → Allocated
  | [] => .null
  | free :: rounds =>
      match t.do_slabs_alloc ntotal id free with
      | .null => do_item_alloc_pull t ntotal id rounds
      | r => r

/-- The settings of the items and of the classes. -/
structure Allocator where
  cfg : Settings
  classes : ClassSettings
  table : SlabClasses

namespace Allocator

variable (m : Allocator)

def slabs_clsid (size : Nat) : Nat := m.classes.slabs_clsid m.table size

/-- `sizeof(uint64_t)`, if there is a CAS. -/
def cas_size : Nat := if m.cfg.use_cas then 8 else 0

/-- What `item_make_header` puts in the suffix, or what `do_item_alloc` copies there instead. -/
def suffix (flags : UInt32) (nbytes : Nat) : List UInt8 :=
  if m.cfg.inline_ascii_response then
    32 :: Decimal.digits flags.toNat ++ 32 :: Decimal.digits (nbytes - 2) ++ [13, 10]
  else if flags = 0 then []
  else Memory.le 4 flags.toNat

/-- `*nsuffix` -/
def nsuffix (flags : UInt32) (nbytes : Nat) : UInt8 := .ofNat (m.suffix flags nbytes).length

def item_make_header (nkey : UInt8) (flags : UInt32) (nbytes : Nat) : Nat :=
  sizeof_item + nkey.toNat + (m.nsuffix flags nbytes).toNat + nbytes

/-! ## Places in an item -/

def ITEM_key : Nat := sizeof_item + m.cas_size
def ITEM_suffix (nkey : UInt8) : Nat := m.ITEM_key + nkey.toNat + 1
def ITEM_data (nkey nsuffix : UInt8) : Nat := m.ITEM_suffix nkey + nsuffix.toNat

/-- The header, the CAS, the key with its end, the suffix, and the data or the chunk that is there instead. -/
def item_parts (nkey nsuffix : UInt8) (data : Nat) : List Part :=
  [⟨0, sizeof_item⟩, ⟨sizeof_item, m.cas_size⟩, ⟨m.ITEM_key, nkey.toNat + 1⟩, ⟨m.ITEM_suffix nkey, nsuffix.toNat⟩,
    ⟨m.ITEM_data nkey nsuffix, data⟩]

/-- What `do_item_alloc` writes to every item. -/
def header_writes (a : NewItem) (clsid : UInt8) (chunked : Bool) : List Write :=
  let nkey := UInt8.ofNat a.key.length
  [⟨8, Memory.le 8 0⟩, ⟨0, Memory.le 8 0⟩, -- `prev`, `next`
    ⟨40, [clsid]⟩,
    ⟨39, [(if chunked then 32 else 0) + if m.cfg.use_cas then 2 else 0]⟩, -- `it_flags`
    ⟨41, [nkey]⟩,
    ⟨32, Memory.le 4 a.nbytes⟩,
    ⟨m.ITEM_key, a.key⟩,
    ⟨28, Memory.le 4 a.exptime.toNat⟩,
    ⟨m.ITEM_suffix nkey, m.suffix a.flags a.nbytes⟩,
    ⟨38, [m.nsuffix a.flags a.nbytes]⟩,
    ⟨16, Memory.le 8 0⟩] -- `h_next`

/-- The internal chunk of the large item at the address `it`. -/
def internal_writes (chunk it : Nat) (hdr_id : Nat) : List Write :=
  [⟨chunk, Memory.le 8 0⟩, ⟨chunk + 8, Memory.le 8 0⟩, -- `next`, `prev`
    ⟨chunk + 28, Memory.le 4 0⟩, ⟨chunk + 24, Memory.le 4 0⟩, -- `used`, `size`
    ⟨chunk + 16, Memory.le 8 it⟩,
    ⟨chunk + 38, [UInt8.ofNat hdr_id]⟩] -- `orig_clsid`

/-- `do_item_alloc`, for an item that is at the address `it`, if there is one. -/
def do_item_alloc (a : NewItem) (lru : Lru) (it : Nat) (rounds : List Bool) : Allocated :=
  if a.nbytes < 2 then .null
  else
    let nkey := UInt8.ofNat a.key.length
    let nsuffix := m.nsuffix a.flags a.nbytes
    let ntotal := m.item_make_header (.ofNat (a.key.length + 1)) a.flags a.nbytes + m.cas_size
    let id := m.slabs_clsid ntotal
    let clsid := UInt8.ofNat id ||| lru.bits
    if id = 0 then .null
    else if ntotal > m.classes.slab_chunk_size_max then
      let htotal := a.key.length + 1 + nsuffix.toNat + sizeof_item + sizeof_item_chunk + m.cas_size
      let hdr_id := m.slabs_clsid htotal
      (m.table.do_item_alloc_pull htotal hdr_id rounds).use
        (m.header_writes a clsid true ++ internal_writes (m.ITEM_data nkey nsuffix) it hdr_id)
        (m.item_parts nkey nsuffix sizeof_item_chunk)
    else
      (m.table.do_item_alloc_pull ntotal id rounds).use (m.header_writes a clsid false) (m.item_parts nkey nsuffix a.nbytes)

/-! ## Chunks -/

/-- The `size` of the chunk that `do_item_alloc_chunk` asks for. -/
def chunk_size (bytes_remain : UInt64) : Nat :=
  min (bytes_remain + .ofNat sizeof_item_chunk).toNat m.classes.slab_chunk_size_max

/-- `do_item_alloc_chunk`: what is written to the new chunk after the chunk `ch` of the item `head`. -/
def do_item_alloc_chunk (ch head : Nat) (bytes_remain : UInt64) (rounds : List Bool) : Allocated :=
  let size := m.chunk_size bytes_remain
  let id := m.slabs_clsid size
  (m.table.do_item_alloc_pull size id rounds).use
    [⟨16, Memory.le 8 head⟩, ⟨8, Memory.le 8 ch⟩, ⟨0, Memory.le 8 0⟩, -- `prev`, `next`
      ⟨28, Memory.le 4 0⟩, -- `used`
      ⟨40, [UInt8.ofNat id]⟩,
      ⟨24, Memory.le 4 ((size - sizeof_item_chunk : Int) % 2 ^ 32).toNat⟩,
      ⟨39, [64]⟩] -- `it_flags`
    [⟨0, sizeof_item_chunk + (size - sizeof_item_chunk)⟩]

end Allocator

end Memcached.MemoryLru

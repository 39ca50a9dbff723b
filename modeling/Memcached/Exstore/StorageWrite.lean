import Memcached.Exstore.Storage
import Memcached.Exstore.Compact
import Memcached.SlabsCurd.Delta

/-!
# `storage_write` of exstore/storage.c

The items are those of memory_lru/items.c, with the suffixes that hold the flags of clients. What other threads and
`extstore_write_request` answer is given. A function returns `none` where an assertion fails. The last call of
`storage_write` is `item_unlink` with a hash value where the address of an item belongs; what it does to the items is
a parameter.
-/

namespace Memcached.Exstore

open MemoryLru
open SlabsCurd (Cache)
open Function (update)

def PAGE_BUCKET_DEFAULT : Nat := 0
def PAGE_BUCKET_CHUNKED : Nat := 2

/-- `item_hdr`. -/
structure ItemHdr where
  page_version : Nat
  offset : Nat
  page_id : Nat
  deriving DecidableEq

/-- An object in the write buffer of a page, from `pos` on. -/
structure BufferObject where
  hdr : ItemHdr
  buf : Nat → UInt8
  pos : Nat

/-- A granted `extstore_write_request`: the page, which is left locked, and its write buffer. -/
structure Grant where
  page_id : Nat
  page_version : Nat
  wbuf : Wbuf

structure World where
  cache : Cache
  /-- The bytes of the items, as they are in memory. -/
  image : Ptr → Source
  /-- `ITEM_data` of header items. -/
  hdrs : Ptr → ItemHdr
  /-- The item locks and the locks of pages that this thread holds. -/
  item_locks : List UInt32
  page_locks : List Nat
  stored : List BufferObject

structure StorageSettings extends Settings where
  ext_low_ttl : UInt32
  hash : Key → UInt32
  crc32c : List UInt8 → Nat
  item_unlink : UInt32 → Cache → Cache

/-- What is answered to one call: the locks that the pull gets, the rounds of the allocation, and the request for a
bucket. -/
structure Answers where
  locks : List Bool
  rounds : List Round
  request : Nat → Option Grant

namespace World

def set_store (w : World) (s : Store) : World := { w with cache := { w.cache with store := s } }

def store (w : World) : Store := w.cache.store

/-- `slabs_free`, for an item that was never linked. -/
def slabs_free (w : World) (it : Ptr) : World :=
  let s := w.store.modify it fun i =>
    { i with it_flags := { Flags.zero with slabbed := true }, slabs_clsid := 0, prev := none, next := none }
  w.set_store { s with frees := it :: s.frees, held := update s.held it (s.held it - 1) }

/-- The bucket of an item. -/
def bucket (cfg : StorageSettings) (w : World) (it : Item) : Nat :=
  if it.exptime - w.store.current_time < cfg.ext_low_ttl then PAGE_BUCKET_LOWTTL
  else if it.it_flags.chunked then PAGE_BUCKET_CHUNKED
  else PAGE_BUCKET_DEFAULT

/-- From a granted request on: the object is written, and the header takes the place of the item. -/
def write_granted (cfg : StorageSettings) (w : World) (it hdr_it : Ptr) (g : Grant) : Option World := do
  let wbuf ← write_object cfg.crc32c g.wbuf (w.image it)
  let hdr : ItemHdr :=
    { page_version := g.page_version, offset := g.wbuf.offset + (g.wbuf.size - g.wbuf.free), page_id := g.page_id }
  let w := { w with
    hdrs := update w.hdrs hdr_it hdr
    stored := ⟨hdr, wbuf.buf, g.wbuf.buf_pos⟩ :: w.stored }
  -- overload nbytes for the header it
  let s := w.store.modify hdr_it fun i => { i with nbytes := (w.store.heap it).nbytes }
  let s ← s.do_item_replace cfg.toSettings it hdr_it
  -- CAS gets set while linking
  let s := s.modify hdr_it fun i => i.set_cas (s.heap it).get_cas
  let s ← s.release hdr_it
  some (w.set_store s)

/-- "storage for the header object". -/
def alloc_header (cfg : StorageSettings) (w : World) (it : Ptr) (a : Answers) : Option (Cache × Option Ptr) :=
  let i := w.store.heap it
  let flags := w.cache.flags cfg.toSettings it
  w.cache.do_item_alloc cfg.toSettings ⟨i.key, flags, i.exptime, sizeof_item_hdr⟩ a.rounds

/-- The part of `storage_write` for an item that is to be moved: `did_moves`, and what is left. -/
def move_item (cfg : StorageSettings) (w : World) (it : Ptr) (a : Answers) : Option (Nat × World) := do
  let (c, hdr_it) ← w.alloc_header cfg it a
  let w := { w with cache := c }
  match hdr_it with
  | none => some (0, w)
  | some hdr_it =>
      let w := w.set_store (w.store.modify hdr_it fun i => { i with it_flags := { i.it_flags with hdr := true } })
      if (w.store.heap it).refcount < 2 then none
      else match a.request (w.bucket cfg (w.store.heap it)) with
        | some g => do
            let w ← { w with page_locks := g.page_id :: w.page_locks }.write_granted cfg it hdr_it g
            -- `extstore_write` unlocks the page
            some (1, { w with page_locks := w.page_locks.erase g.page_id })
        | none => some (0, w.slabs_free hdr_it)

/-- What `lru_pull_tail` does for `storage_write`: the store after it, and the item, if it returns one. -/
def pull (cfg : StorageSettings) (w : World) (clsid : UInt8) (a : Answers) : Option (Store × Option Ptr) := do
  let (s, _, it) ←
    w.store.lru_pull_tail cfg.toSettings ⟨clsid, .COLD_LRU, 0, { return_item := true }, 0⟩ a.locks
  some (s, it)

/-- The item is no header, and old enough. -/
def due (s : Store) (it : Ptr) (item_age : UInt32) : Bool :=
  !(s.heap it).it_flags.hdr ∧ (item_age = 0 ∨ s.current_time - (s.heap it).time > item_age)

end World

def storage_write (cfg : StorageSettings) (w : World) (clsid : UInt8) (item_age : UInt32) (a : Answers) :
    Option (Nat × World) := do
  let (s, it) ← w.pull cfg clsid a
  let w := w.set_store s
  match it with
  | none => some (0, w)
  | some it =>
      -- item is locked, and we have a reference to it
      let hv := cfg.hash (s.heap it).key
      let w := { w with item_locks := hv :: w.item_locks }
      let (did_moves, w) ← if World.due s it item_age then w.move_item cfg it a else some (0, w)
      let s ← w.store.release it
      let w := w.set_store s
      some (did_moves, { w with cache := cfg.item_unlink hv w.cache })

end Memcached.Exstore

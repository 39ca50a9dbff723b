import Memcached.Exstore.Storage
import Memcached.Exstore.StorageWrite
import Memcached.MemoryLru.Crawler

/-!
# `storage_compact_readback` of exstore/storage.c

The compactor takes one object of its buffer at a time, under the lock of the item of that key; between two objects the
clients do what they like with all items. `storage_write` is here in parts, so that they may come between these as well.
Of what external storage holds there are the key and the place of each object: what is read at a place is what was
written there, or a miss. A function returns `none` where an assertion fails, or where it reads outside of its buffer.
-/

namespace Memcached.Exstore

open MemoryLru
open Function (update)

/-- The arguments of one call of `storage_compact_readback`, and how far the loop is. -/
structure Readback where
  readback_buf : Nat → UInt8
  read_size : Nat
  page_id : Nat
  page_version : Nat
  drop_unread : Bool
  offset : Nat

/-- A header that the compactor came to. Its reference count includes that of the compactor. -/
structure Handled where
  hdr_it : Ptr
  refcount : UInt16
  before : ItemHdr
  after : ItemHdr
  deriving DecidableEq

structure Compaction where
  store : Store
  /-- `ITEM_data` of header items. -/
  hdrs : Ptr → ItemHdr
  /-- The versions of the pages that can be read and written. -/
  pages : Nat → Option Nat
  objects : List (ItemHdr × Key)
  /-- The calls of `extstore_delete`: page, version and bytes. -/
  deletes : List (Nat × Nat × Nat)
  readback : Option Readback
  rescues : Nat
  lost : Nat
  skipped : Nat
  /-- The headers so far, newest first. This is not in the code. -/
  handled : List Handled

namespace Readback

variable (r : Readback)

def key : Key := ITEM_key r.readback_buf r.offset

def ntotal : Nat := ITEM_ntotal r.readback_buf r.offset % 2 ^ 32

/-- Whether the loop ends before the object at `offset`. -/
def at_end : Bool := r.read_size ≤ r.offset ∨ it_nkey r.readback_buf r.offset = 0

/-- The object at `offset` is in the buffer. -/
def inside : Bool := r.offset + sizeof_item ≤ r.read_size ∧ r.offset + r.ntotal ≤ r.read_size

/-- "drop inactive items". -/
def drops (i : Item) : Bool := r.drop_unread ∧ i.lruid = Lru.COLD_LRU.bits

/-- After an object: the next one, if the loop goes on. -/
def advance : Option Readback :=
  let r := { r with offset := r.offset + r.ntotal }
  if r.read_size - r.offset < sizeof_item then none else some r

end Readback

/-- The loop over the tries: where the object may be written, if one is granted. -/
def write_tries (requests : List (Option ItemHdr)) : Option ItemHdr := (requests.take 10).findSome? id

namespace Compaction

section

variable (s : Compaction)

/-- "Check validity but don't bother removing it". -/
def still_valid (r : Readback) (hdr_it : Ptr) : Bool :=
  let i := s.store.heap hdr_it
  let hdr := s.hdrs hdr_it
  i.it_flags.hdr ∧ !s.store.item_is_flushed i ∧ (i.exptime = 0 ∨ i.exptime > s.store.current_time) ∧
    hdr.page_id = r.page_id ∧ hdr.page_version = r.page_version

/-- The object is copied to `loc`. The reference count is that of the copy in the buffer. -/
def rescue (r : Readback) (hdr_it : Ptr) (loc : ItemHdr) : Compaction :=
  let s := { s with objects := (loc, r.key) :: s.objects }
  if it_refcount r.readback_buf r.offset = 2 then
    { s with hdrs := update s.hdrs hdr_it loc, rescues := s.rescues + 1 }
  else { s with lost := s.lost + 1 }

def compact_header (r : Readback) (hdr_it : Ptr) (requests : List (Option ItemHdr)) : Compaction :=
  if s.still_valid r hdr_it then
    let s := { s with deletes := (r.page_id, r.page_version, r.ntotal) :: s.deletes }
    if r.drops (s.store.heap hdr_it) then { s with skipped := s.skipped + 1 }
    else match write_tries requests with
      | some loc => s.rescue r hdr_it loc
      | none => { s with lost := s.lost + 1 }
  else s

/-- The body of the loop, under the item lock. -/
def compact_object (r : Readback) (requests : List (Option ItemHdr)) : Option Compaction :=
  match s.store.table r.key with
  | none => some s
  | some hdr_it => do
      let before := s.hdrs hdr_it
      let s := { s with store := s.store.refcount_incr hdr_it }
      let refcount := (s.store.heap hdr_it).refcount
      let s := s.compact_header r hdr_it requests
      let store ← s.store.do_item_remove hdr_it
      some { s with store := store, handled := ⟨hdr_it, refcount, before, s.hdrs hdr_it⟩ :: s.handled }

/-- `extstore_write_request` gives a place in a page that is open, and each place once. -/
def vacant (loc : ItemHdr) : Bool := s.pages loc.page_id = some loc.page_version ∧ ∀ o ∈ s.objects, o.1 ≠ loc

/-- `storage_write`: the header `m` of the item `n` is filled, once the object is written at `loc`. -/
def fill (n m : Nat) (loc : ItemHdr) : Compaction :=
  { s with
    store := s.store.modify (.item m) fun i =>
      { i with it_flags := { i.it_flags with hdr := true }, nbytes := (s.store.heap (.item n)).nbytes }
    hdrs := update s.hdrs (.item m) loc
    objects := (loc, (s.store.heap (.item n)).key) :: s.objects }

/-- `storage_write` allocated the header `m` for the item `n`, which it has locked. -/
def fillable (n m : Nat) : Bool :=
  (s.store.heap (.item n)).it_flags.linked ∧ 0 < s.store.held (.item m) ∧ !(s.store.heap (.item m)).it_flags.linked ∧
    !(s.store.heap (.item m)).it_flags.slabbed ∧ (s.store.heap (.item m)).key = (s.store.heap (.item n)).key

/-- No object was written to this version of the page. -/
def unused (page_id page_version : Nat) : Bool :=
  s.pages page_id = none ∧ ∀ o ∈ s.objects, ¬(o.1.page_id = page_id ∧ o.1.page_version = page_version)

end

/-- What clients, external storage and the compactor do. -/
inductive Event
  | item (e : MemoryLru.Event)
  | fill (n m : Nat) (loc : ItemHdr)
  | copy_cas (n m : Nat)
  | open_page (page_id page_version : Nat)
  | close_page (page_id page_version : Nat)
  | readback (r : Readback)
  | object (requests : List (Option ItemHdr))

def step (cfg : Settings) (s : Compaction) : Event → Option Compaction
  | .item e => (s.store.step cfg e).map fun store => { s with store := store }
  | .fill n m loc => if s.fillable n m ∧ s.vacant loc then some (s.fill n m loc) else none
  | .copy_cas n m =>
      some { s with store := s.store.modify (.item m) fun i => i.set_cas (s.store.heap (.item n)).get_cas }
  | .open_page page_id page_version =>
      if s.unused page_id page_version then some { s with pages := update s.pages page_id (some page_version) } else none
  | .close_page page_id page_version =>
      if s.pages page_id = some page_version then some { s with pages := update s.pages page_id none } else some s
  | .readback r => if s.readback.isNone ∧ r.offset = 0 then some { s with readback := some r } else none
  | .object requests =>
      match s.readback with
      | none => none
      | some r =>
          if r.at_end then some { s with readback := none }
          else if r.inside ∧ (write_tries requests).all s.vacant then
            (s.compact_object r requests).map fun s => { s with readback := r.advance }
          else none

def Step (cfg : Settings) (s : Compaction) (e : Event) (s' : Compaction) : Prop := step cfg s e = some s'

/-- No item, and no object. -/
def start (pages : Nat → Option Nat) : Compaction where
  store := .empty
  hdrs := fun _ => ⟨0, 0, 0⟩
  pages := pages
  objects := []
  deletes := []
  readback := none
  rescues := 0
  lost := 0
  skipped := 0
  handled := []

end Compaction

end Memcached.Exstore

import Mathlib.Algebra.Order.Ring.Int
import Mathlib.Data.Nat.Pairing
import Memcached.MemoryLru.Items
import Memcached.MemoryLru.Slabs

/-!
# The slab allocator of memory_lru/slabs.c: chunks

A page of a class is cut into pieces of the class's chunk size. A piece is free, or the header of an item, or an
`item_chunk` of a large item, the first of which lies in the data of the header. `Slabs` has the pages and counts the
pieces, `Store` has the headers of items; here are the free lists, the chains of large items, and the data.
-/

namespace Memcached.MemoryLru

/-! ## Data -/

/-- The address of a byte of a page. No two pages overlap. -/
def addr (page : Page) (off : Nat) : Nat := Nat.pair page off

/-- An `item_chunk *`: a piece, or what the header at a piece has in its data. -/
inductive ChunkPtr
  | piece (n : Nat)
  | internal (n : Nat)
  deriving DecidableEq

/-- `item_chunk`. A free piece is in its list by the same links. -/
structure Chunk where
  next : Option ChunkPtr
  prev : Option ChunkPtr
  head : Option Nat
  size : Int
  used : Nat
  orig_clsid : Nat
  slabs_clsid : Nat
  /-- `ITEM_CHUNK` is set: the piece is read as a chunk. As an item it then counts as free. -/
  chunk : Bool
  data : List UInt8
  deriving DecidableEq

/-- Where `slab_rebalance_move` is in its page, in bytes, and what it counts. -/
structure Cursor where
  slab_pos : Nat
  slab_end : Nat
  rescues : Nat
  evictions_nomem : Nat
  inline_reclaim : Nat
  chunk_rescues : Nat
  busy_deletes : Nat
  deriving DecidableEq

structure Memory where
  store : Store
  slabs : Slabs
  chunk : ChunkPtr → Chunk
  /-- The client flags of an item. -/
  flags : Nat → UInt32
  /-- `ITEM_data` of an item. -/
  data : Nat → List UInt8
  slots : Nat → Option ChunkPtr
  cursor : Cursor
  /-- The size under which a piece was allocated, or the piece that it is a copy of. This is not in the code. -/
  charged : Nat → UInt64

/-- The settings, with those that slabs.c reads when it runs. -/
structure Config extends Settings where
  item_size_max : Nat

def Chunk.zero : Chunk where
  next := none
  prev := none
  head := none
  size := 0
  used := 0
  orig_clsid := 0
  slabs_clsid := 0
  chunk := false
  data := []

/-- No class has a page, and no item was made. -/
def Memory.start (slabs : Slabs) : Memory where
  store := .empty
  slabs := slabs
  chunk := fun _ => .zero
  flags := fun _ => 0
  data := fun _ => []
  slots := fun _ => none
  cursor := ⟨0, 0, 0, 0, 0, 0, 0⟩
  charged := fun _ => 0

/-- `ITEM_SLABBED`, and no other bit. -/
def Flags.slabs : Flags := { Flags.zero with slabbed := true }

/-- `ITEM_SLABBED|ITEM_FETCHED`: the piece has been cleared for a move. -/
def Flags.cleared : Flags := { Flags.zero with slabbed := true, fetched := true }

/-- `size_t` for an `unsigned int`. -/
def size_t (size : Nat) : UInt64 := .ofNat size

/-- `slabs_clsid`, its loop as a search. -/
def Slabs.slabs_clsid (s : Slabs) (item_size_max size : Nat) : Nat :=
  if size = 0 ∨ size > item_size_max then 0
  else ((List.range' POWER_SMALLEST s.power_largest).find? fun res => size ≤ (s.slabclass res).size).getD s.power_largest

/-- The pieces of a page of class `id`. -/
def Slabs.page_pieces (s : Slabs) (id : Nat) (page : Page) : List Nat :=
  (List.range (s.slabclass id).perslab).map fun k => addr page (k * (s.slabclass id).size)

/-- The pieces of all pages of a class. -/
def Slabs.pieces (s : Slabs) (id : Nat) : List Nat := (s.slabclass id).pages.flatMap fun page => page.elim [] (s.page_pieces id)

/-- How many pieces there are. No chain is longer. -/
def Slabs.piece_count (s : Slabs) : Nat := ((List.range MAX_NUMBER_OF_SLAB_CLASSES).map fun id => (s.pieces id).length).sum

namespace Memory

def modify_item (m : Memory) (n : Nat) (f : Item → Item) : Memory := { m with store := m.store.modify (.item n) f }

def modify_chunk (m : Memory) (c : ChunkPtr) (f : Chunk → Chunk) : Memory :=
  { m with chunk := Function.update m.chunk c (f (m.chunk c)) }

def modify_chunk? (m : Memory) (c : Option ChunkPtr) (f : Chunk → Chunk) : Memory :=
  match c with
  | some c => m.modify_chunk c f
  | none => m

def modify_class (m : Memory) (id : Nat) (f : Slabclass → Slabclass) : Memory :=
  { m with slabs := m.slabs.setClass id (f (m.slabs.slabclass id)) }

/-! ## Free lists -/

/-- `it->prev = 0; it->next = p->slots; if (it->next) it->next->prev = it; p->slots = it`. -/
def push_slot (m : Memory) (id n : Nat) : Memory :=
  let slots := m.slots id
  let m := m.modify_chunk (.piece n) fun c => { c with prev := none, next := slots }
  let m := m.modify_chunk? slots fun c => { c with prev := some (.piece n) }
  { m with slots := Function.update m.slots id (some (.piece n)) }

/-- A piece becomes free. -/
def free_piece (m : Memory) (id n : Nat) : Memory :=
  let m := m.modify_item n fun i => { i with it_flags := .slabs, slabs_clsid := 0, prev := none, next := none }
  let m := m.modify_chunk (.piece n) fun c => { c with chunk := false, slabs_clsid := 0 }
  m.push_slot id n

/-- A piece that was charged for `size` bytes goes back to its class. -/
def put_piece (m : Memory) (id n : Nat) (size : UInt64) : Memory :=
  { m.free_piece id n with slabs := m.slabs.put_chunk id size.toNat }

/-- The loop of `do_slabs_free_chunked`. -/
def free_chunks : Nat → Option ChunkPtr → Memory → Option Memory
  | _, none, m => some m
  | 0, some _, _ => none
  | fuel + 1, some c, m =>
      let chunk := m.chunk c
      match c with
      | .piece n =>
          if !chunk.chunk then none
          else free_chunks fuel chunk.next (m.put_piece chunk.slabs_clsid n (size_t (chunk.size + sizeof_item_chunk).toNat))
      | .internal _ => none

/-- What a header of a large item is charged. -/
def htotal (cfg : Config) (nkey nsuffix : Nat) : Nat :=
  nkey + 1 + nsuffix + sizeof_item + sizeof_item_chunk + if cfg.use_cas then 8 else 0

/-- `do_slabs_free_chunked`, of the header `it` at `n`. -/
def do_slabs_free_chunked (cfg : Config) (m : Memory) (it : Item) (n : Nat) : Option Memory :=
  let chunk := m.chunk (.internal n)
  let m := m.modify_chunk? chunk.next fun c => { c with prev := none }
  let m := m.put_piece chunk.orig_clsid n (size_t (htotal cfg it.key.length it.nsuffix))
  free_chunks m.slabs.piece_count chunk.next m

/-- `do_slabs_free`, of the item `it` at `n`. -/
def do_slabs_free (cfg : Config) (m : Memory) (it : Item) (n : Nat) (size : UInt64) (id : Nat) : Option Memory :=
  if id < POWER_SMALLEST ∨ id > m.slabs.power_largest then some m
  else if !it.it_flags.chunked then
    some (m.put_piece id n (if it.it_flags.hdr then size - size_t it.nbytes + size_t sizeof_item_hdr else size))
  else do_slabs_free_chunked cfg m it n

/-! ## Pages -/

/-- `memset`, as far as a piece goes. -/
def clear_piece (m : Memory) (n : Nat) : Memory :=
  { m with
    store := m.store.modify (.item n) fun _ => ⟨none, none, 0, 0, 0, 0, 0, .slabs, 0, [], 0⟩
    chunk := Function.update (Function.update m.chunk (.piece n) .zero) (.internal n) .zero
    flags := Function.update m.flags n 0
    data := Function.update m.data n [] }

/-- A page that was set to 0 is cut into free pieces; `Slabs` counts them. -/
def split_slab_page_into_freelist (m : Memory) (page : Page) (id : Nat) : Memory :=
  (m.slabs.page_pieces id page).foldl (fun m n => (m.clear_piece n).free_piece id n) m

/-- The page that a class was given last. -/
def last_page (m : Memory) (id : Nat) : Option Page := (m.slabs.slabclass id).pages.getLast?.join

/-- `do_slabs_newslab`: the page is cut into free pieces. -/
def do_slabs_newslab (m : Memory) (id : Nat) (env : Slabs.MallocEnv) : Memory :=
  let r := m.slabs.do_slabs_newslab id env
  let m := { m with slabs := r.2 }
  if r.1 then (m.last_page id).elim m fun page => m.split_slab_page_into_freelist page id else m

/-! ## Allocation -/

/-- A piece is taken off the free list. -/
def take_piece (m : Memory) (size : UInt64) (id n : Nat) : Memory :=
  let next := (m.chunk (.piece n)).next
  let m := { m with slots := Function.update m.slots id next }
  let m := m.modify_chunk? next fun c => { c with prev := none }
  let m := m.modify_item n fun i => { i with it_flags := { i.it_flags with slabbed := false }, refcount := 1 }
  let m := m.modify_class id fun p => { p with sl_curr := p.sl_curr - 1, requested := p.requested + size }
  { m with charged := Function.update m.charged n size }

def do_slabs_alloc (m : Memory) (size : UInt64) (id flags : Nat) (env : Slabs.MallocEnv) : Option (Memory × Option Nat) :=
  if id < POWER_SMALLEST ∨ id > m.slabs.power_largest then some (m, none)
  else
    let p := m.slabs.slabclass id
    let slots_clsid := (m.slots id).map fun c => (m.chunk c).slabs_clsid
    if p.sl_curr ≠ 0 ∧ slots_clsid ≠ some 0 ∨ size.toNat > p.size then none
    else
      let m := if p.sl_curr = 0 ∧ flags ≠ SLABS_ALLOC_NO_NEWPAGE then m.do_slabs_newslab id env else m
      if (m.slabs.slabclass id).sl_curr ≠ 0 then
        match m.slots id with
        | some (.piece n) => some (m.take_piece size id n, some n)
        | _ => none
      else some (m, none)

end Memory

end Memcached.MemoryLru

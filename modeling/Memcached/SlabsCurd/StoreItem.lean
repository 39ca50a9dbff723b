import Memcached.SlabsCurd.Delta

/-!
# The storage commands: slabs_curd/memcached.c

The value of a large item is in a chain of chunks, of which the first is in the data of its header and has no room. The other
chunks are not in the heap of the store: `slabs_alloc` gives one or not, after the items that it takes to make room are gone.
A function returns `none` where an assertion of the code fails, or where a thread waits for a lock that it holds itself.
Statistics and logging are left out, and so is external storage, without which this program is built.
-/

namespace Memcached.SlabsCurd

open MemoryLru

structure ItemChunk where
  size : Nat
  /-- The first `used` bytes. -/
  data : List UInt8
  deriving DecidableEq

namespace ItemChunk

def used (ch : ItemChunk) : Nat := ch.data.length

/-- `size - used`. -/
def room (ch : ItemChunk) : Nat := ch.size - ch.used

def full (ch : ItemChunk) : Bool := ch.size = ch.used

end ItemChunk

/-! ## Copies into chunks -/

/-- A chain that is filled: the chunks before `dch`, and those that follow it. -/
structure Filling where
  before : List ItemChunk
  dch : ItemChunk
  next : List ItemChunk
  deriving DecidableEq

namespace Filling

def chain (d : Filling) : List ItemChunk := d.before ++ d.dch :: d.next

/-- "Advance dch until we find free space", or to the last chunk. -/
def advance (before : List ItemChunk) (dch : ItemChunk) : List ItemChunk → Filling
  | [] => ⟨before, dch, []⟩
  | next :: rest => if dch.full then advance (before ++ [dch]) next rest else ⟨before, dch, next :: rest⟩

/-- `memcpy(dch->data + dch->used, bytes)`, and `used` after it. -/
def put (d : Filling) (bytes : List UInt8) : Filling := { d with dch := { d.dch with data := d.dch.data ++ bytes } }

section
variable {σ : Type} (do_item_alloc_chunk : σ → Nat → Option (σ × Option Nat))

/-- A full chunk is followed by a new one, and by no other. -/
def grow (s : σ) (d : Filling) (remain : Nat) : Option (σ × Filling × Bool) :=
  if d.dch.full then do
    let (s, tch) ← do_item_alloc_chunk s remain
    match tch with
    | some size => some (s, ⟨d.before ++ [d.dch], ⟨size, []⟩, []⟩, true)
    | none => some (s, d, false)
  else some (s, d, true)

/-- The loop of `_store_item_copy_chunks` over the chunks of the source, from the place `copied` of the first on. -/
def copy_chunks : Nat → σ → Filling → List ItemChunk → Nat → Nat → Option (σ × Filling × Bool)
  | 0, _, _, _, _, _ => none
  | _ + 1, s, d, [], _, remain => if remain = 0 then some (s, d, true) else none
  | fuel + 1, s, d, sch :: rest, copied, remain =>
      if remain = 0 then some (s, d, true)
      else if d.dch.size < d.dch.used then none
      else do
        let todo := min (min d.dch.room (sch.used - copied)) remain
        let d := d.put ((sch.data.drop copied).take todo)
        let (s, d, ok) ← d.grow do_item_alloc_chunk s (remain - todo)
        if !ok then some (s, d, false)
        else if copied + todo = sch.used then copy_chunks fuel s d rest 0 (remain - todo)
        else copy_chunks fuel s d (sch :: rest) (copied + todo) (remain - todo)

/-- "Fill dch's via a non-chunked item": the bytes from `ITEM_data(s_it) + done` on are left. -/
def copy_data : Nat → σ → Filling → List UInt8 → Option (σ × Filling × Bool)
  | 0, _, _, _ => none
  | fuel + 1, s, d, left =>
      if left = [] then some (s, d, true)
      else if d.dch.size < d.dch.used then none
      else do
        let todo := min d.dch.room left.length
        let d := d.put (left.take todo)
        let (s, d, ok) ← d.grow do_item_alloc_chunk s (left.length - todo)
        if !ok then some (s, d, false) else copy_data fuel s d (left.drop todo)

end

end Filling

/-! ## The allocation of chunks -/

/-- `do_item_alloc_pull` for a chunk: it does not matter where it is. -/
def chunk_alloc_pull (cfg : Settings) (id : UInt8) : Nat → List Round → Store → Option (Store × Bool)
  | 0, _, s => some (s, false)
  | _, [], _ => none
  | i + 1, r :: rounds, s => do
      let pull (s : Store) (lru : Lru) (total_bytes : UInt64) (evict : Bool) (locks : List Bool) :=
        s.lru_pull_tail cfg ⟨id, lru, total_bytes, { evict := evict }, 0⟩ locks
      let s ← s.try_reclaim cfg id r.locks.1
      if r.grant.isSome then if id = 0 then none else some (s, true)
      else
        let total_bytes := r.total_bytes - if cfg.temp_lru then (s.temp_lru_size id).toUInt64 else 0
        let (s, removed, _) ← pull s .COLD_LRU total_bytes true r.locks.2.1
        if removed = 0 then
          if cfg.lru_segmented then
            let (s, _, _) ← pull s .HOT_LRU total_bytes false r.locks.2.2
            chunk_alloc_pull cfg id i rounds s
          else some (s, false)
        else chunk_alloc_pull cfg id i rounds s

/-- The store, and the rounds of the allocations to come. -/
abbrev ChunkAlloc := Store × List (List Round)

/-- `do_item_alloc_chunk`: the `size` of the new chunk. -/
def do_item_alloc_chunk (cfg : Settings) : ChunkAlloc → Nat → Option (ChunkAlloc × Option Nat)
  | (_, []), _ => none
  | (s, rounds :: more), bytes_remain => do
      let size := min (bytes_remain + sizeof_item_chunk) cfg.slab_chunk_size_max
      let (s, nch) ← chunk_alloc_pull cfg (cfg.slabs_clsid size) 10 rounds s
      some ((s, more), if nch then some (size - sizeof_item_chunk) else none)

/-! ## Items with their chunks -/

structure ChunkCache extends Cache where
  /-- The chunks of a large item, from `ITEM_data` on. -/
  chain : Ptr → List ItemChunk
  /-- `hash(key, nkey) & hashmask(item_lock_hashpower)`: the item lock of a key. -/
  item_lock_of : MemoryLru.Key → Nat

namespace ChunkCache

/-- The new item of a large size has the internal chunk, and no other. -/
def do_item_alloc (cfg : Settings) (c : ChunkCache) (a : NewItem) (rounds : List Round) : Option (ChunkCache × Option Ptr) := do
  let (c', it) ← c.toCache.do_item_alloc cfg a rounds
  match it with
  | none => some ({ c with toCache := c' }, none)
  | some it =>
      let chain := if (c'.store.heap it).it_flags.chunked then Function.update c.chain it [⟨0, []⟩] else c.chain
      some ({ c with toCache := c', chain := chain }, some it)

def do_item_remove (c : ChunkCache) (it : Ptr) : Option ChunkCache := do
  let c' ← c.toCache.do_item_remove it
  some { c with toCache := c' }

/-- `item_remove` of thread.c, in a thread that holds `locks`: the item locks are not recursive. -/
def item_remove (c : ChunkCache) (locks : List Nat) (it : Ptr) : Option ChunkCache :=
  if c.item_lock_of (c.store.heap it).key ∈ locks then none else c.do_item_remove it

/-- The first `len` bytes from `ITEM_data` on. -/
def item_data (c : ChunkCache) (it : Ptr) (len : Nat) : List UInt8 := (List.range len).map (c.data it)

def store_item_copy_chunks (cfg : Settings) (c : ChunkCache) (d_it s_it : Ptr) (len : Nat) (more : List (List Round)) :
    Option (ChunkCache × List (List Round) × Bool) :=
  match c.chain d_it with
  | [] => none
  | dch :: rest => do
      let d := Filling.advance [] dch rest
      -- the rounds of the loop: see `copy_chunks_total`
      let ((s, more), d, ok) ←
        if (c.store.heap s_it).it_flags.chunked then
          d.copy_chunks (do_item_alloc_chunk cfg) (2 * len + (c.chain s_it).length + 2) (c.store, more) (c.chain s_it) 0 len
        else d.copy_data (do_item_alloc_chunk cfg) (2 * len + 2) (c.store, more) (c.item_data s_it len)
      some ({ c with store := s, chain := Function.update c.chain d_it d.chain }, more, ok)

end ChunkCache

/-! ## memcached.c -/

inductive Comm
  | NREAD_ADD
  | NREAD_SET
  | NREAD_REPLACE
  | NREAD_APPEND
  | NREAD_PREPEND
  | NREAD_CAS
  deriving DecidableEq

inductive StoreItemType
  | NOT_STORED
  | STORED
  | EXISTS
  | NOT_FOUND
  deriving DecidableEq

namespace ChunkCache

/-- Both parts of `_store_item_copy_data`: the first without its CRLF, then the second. -/
def copy_parts (cfg : Settings) (c : ChunkCache) (new_it first second : Ptr) (more : List (List Round)) :
    Option (ChunkCache × Bool) :=
  let first_nbytes := (c.store.heap first).nbytes
  let second_nbytes := (c.store.heap second).nbytes
  if (c.store.heap new_it).it_flags.chunked then do
    let (c, more, ok) ← c.store_item_copy_chunks cfg new_it first (first_nbytes - 2) more
    if !ok then some (c, false)
    else
      let (c, _, ok) ← c.store_item_copy_chunks cfg new_it second second_nbytes more
      some (c, ok)
  else
    let copied := c.toCache.write new_it 0 (c.item_data first first_nbytes)
    some ({ c with toCache := copied.write new_it (first_nbytes - 2) (c.item_data second second_nbytes) }, true)

def store_item_copy_data (cfg : Settings) (c : ChunkCache) (comm : Comm) (old_it new_it add_it : Ptr)
    (more : List (List Round)) : Option (ChunkCache × Bool) :=
  if comm = .NREAD_APPEND then c.copy_parts cfg new_it old_it add_it more
  else c.copy_parts cfg new_it add_it old_it more

end ChunkCache

/-- What the allocations of `do_store_item` meet. -/
structure StoreRounds where
  item : List Round
  chunks : List (List Round)

/-- What `do_store_item` returns, with `c->cas`. -/
structure StoreReply where
  cache : ChunkCache
  stored : StoreItemType
  cas : UInt64

namespace ChunkCache

/-- `do_item_remove`, where there is an item. -/
def do_item_remove? (c : ChunkCache) : Option Ptr → Option ChunkCache
  | some it => c.do_item_remove it
  | none => some c

/-- The end of `do_store_item`: the references to `old_it` and `new_it` are given back. -/
def end_store (c : ChunkCache) (old_it new_it : Option Ptr) (it : Ptr) (stored : StoreItemType) (cas : UInt64) :
    Option StoreReply := do
  let c ← c.do_item_remove? old_it
  let c ← c.do_item_remove? new_it
  some ⟨c, stored, if stored = .STORED then (c.store.heap it).get_cas else cas⟩

/-- `item_replace(old_it, it, hv)`, or `do_item_link(it, hv)` where there is no old item. -/
def link_item (cfg : Settings) (c : ChunkCache) : Option Ptr → Ptr → Option ChunkCache
  | some old_it, it => (c.store.do_item_replace cfg old_it it).map fun s => { c with store := s }
  | none, it => (c.store.do_item_link cfg it).map fun s => { c with store := s }

/-- "combine new and old record into single one", under the item lock of the key, which `store_item` took. -/
def append_item (cfg : Settings) (c : ChunkCache) (old_it it : Ptr) (comm : Comm) (cas : UInt64) (r : StoreRounds) :
    Option StoreReply := do
  let i := c.store.heap it
  let old := c.store.heap old_it
  let locks := [c.item_lock_of i.key]
  if i.get_cas ≠ 0 ∧ i.get_cas ≠ old.get_cas then c.end_store (some old_it) none it .EXISTS cas
  else
    let (c, new_it) ←
      c.do_item_alloc cfg ⟨i.key, c.flags cfg old_it, old.exptime, i.nbytes + old.nbytes - 2⟩ r.item
    match new_it with
    | none => c.end_store (some old_it) none it .NOT_STORED cas
    | some new_it =>
        let (c, ok) ← c.store_item_copy_data cfg comm old_it new_it it r.chunks
        if ok then
          let c ← c.link_item cfg (some old_it) new_it
          c.end_store (some old_it) (some new_it) new_it .STORED cas
        else
          -- "failed data copy, free up"
          let c ← c.item_remove locks new_it
          c.end_store (some old_it) (some new_it) it .NOT_STORED cas

end ChunkCache

def do_store_item (cfg : Settings) (c : ChunkCache) (it : Ptr) (comm : Comm) (cas : UInt64) (r : StoreRounds) :
    Option StoreReply := do
  let (s, old_it) ← c.store.do_item_get cfg (c.store.heap it).key false false
  let c := { c with store := s }
  let store := do
    let c ← c.link_item cfg old_it it
    c.end_store old_it none it .STORED cas
  match comm, old_it with
  | .NREAD_ADD, some old_it =>
      let s ← c.store.do_item_update cfg old_it
      { c with store := s }.end_store (some old_it) none it .NOT_STORED cas
  | .NREAD_REPLACE, none | .NREAD_APPEND, none | .NREAD_PREPEND, none => c.end_store none none it .NOT_STORED cas
  | .NREAD_CAS, none => c.end_store none none it .NOT_FOUND cas
  | .NREAD_CAS, some old_it =>
      if (c.store.heap it).get_cas = (c.store.heap old_it).get_cas then store
      else c.end_store (some old_it) none it .EXISTS cas
  | .NREAD_APPEND, some old_it | .NREAD_PREPEND, some old_it => c.append_item cfg old_it it comm cas r
  | .NREAD_ADD, none | .NREAD_SET, _ | .NREAD_REPLACE, some _ => store

end Memcached.SlabsCurd

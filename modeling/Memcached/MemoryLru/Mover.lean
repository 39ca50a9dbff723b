import Memcached.MemoryLru.Chunks

/-!
# The page mover of memory_lru/slabs.c

`slab_rebalance_move` goes over the pieces of a page and clears them: a free one leaves its list, an idle item or chunk is
copied to another page or, if it cannot be, unlinked and freed, and a busy one is left for the next pass. Two copies of the
function exist, and they differ in two places; these are the parameters here.
-/

namespace Memcached.MemoryLru

/-- What a round of the loop did to the piece it came to. -/
inductive Moved
  /-- The piece was cleared before. -/
  | passed
  | cut
  | rescued
  | chunk_rescued
  /-- Expired, flushed, or there was no memory for a copy. -/
  | unlinked
  /-- Busy for too many passes. -/
  | deleted
  /-- `MOVE_BUSY` or `MOVE_LOCKED`. -/
  | busy
  deriving DecidableEq

/-- `was_busy` counts these. -/
def Moved.is_busy : Moved → Bool
  | passed | cut | rescued | chunk_rescued => false
  | unlinked | deleted | busy => true

def SLAB_MOVE_MAX_LOOPS : Nat := 1000

/-- Where two copies of `slab_rebalance_move` differ. -/
structure MoveCopy where
  /-- What is tested for `ITEM_LINKED`. -/
  linked : Memory → Nat → Bool
  /-- `s_cls`. -/
  s_cls : Memory → Nat

namespace Memory

/-! ## Parts of a round -/

/-- Whether the address is between `slab_start` and `slab_end`. -/
def in_page (m : Memory) (n : Nat) : Bool :=
  m.slabs.slab_rebal.slab_start.any fun page => (List.range m.cursor.slab_end).any fun off => addr page off = n

/-- `it_flags = ITEM_SLABBED|ITEM_FETCHED` and `refcount = 0`. -/
def clear_move (m : Memory) (n : Nat) : Memory := m.modify_item n fun i => { i with it_flags := .cleared, refcount := 0 }

/-- The loop of `slab_rebalance_alloc`. -/
def slab_rebalance_alloc_loop (size : UInt64) (id : Nat) : Nat → Memory → Option (Memory × Option Nat)
  | 0, m => some (m, none)
  | x + 1, m => do
      let (m, new_it) ← m.do_slabs_alloc size id SLABS_ALLOC_NO_NEWPAGE ⟨false, none⟩
      match new_it with
      | none => some (m, none)
      | some n =>
          if m.in_page n then
            let m := m.modify_class m.slabs.slab_rebal.s_clsid fun p => { p with requested := p.requested - size }
            let m := m.clear_move n
            slab_rebalance_alloc_loop size id x
              { m with cursor := { m.cursor with inline_reclaim := m.cursor.inline_reclaim + 1 } }
          else some (m, some n)

def slab_rebalance_alloc (m : Memory) (size : UInt64) (id : Nat) : Option (Memory × Option Nat) :=
  slab_rebalance_alloc_loop size id (m.slabs.slabclass m.slabs.slab_rebal.s_clsid).perslab m

def slab_rebalance_cut_free (m : Memory) (s_cls n : Nat) : Option Memory :=
  let c := m.chunk (.piece n)
  if c.chunk ∨ (m.store.heap (.item n)).it_flags ≠ .slabs then none
  else
    let m := { m with
      slots := if m.slots s_cls = some (ChunkPtr.piece n) then Function.update m.slots s_cls c.next else m.slots }
    let m := m.modify_chunk? c.next fun d => { d with prev := c.prev }
    let m := m.modify_chunk? c.prev fun d => { d with next := c.next }
    some (m.modify_class s_cls fun p => { p with sl_curr := p.sl_curr - 1 })

/-- The piece that the round came to, and the header of the item it belongs to. -/
def target (m : Memory) : Option (Nat × Nat) := do
  let page ← m.slabs.slab_rebal.slab_start
  let n := addr page m.cursor.slab_pos
  if (m.chunk (.piece n)).chunk then
    let it ← (m.chunk (.piece n)).head
    if (m.store.heap (.item it)).it_flags.chunked then some (n, it) else none
  else some (n, n)

/-- `busy_items++`. -/
def count_busy (m : Memory) : Memory :=
  { m with slabs := { m.slabs with
    slab_rebal := { m.slabs.slab_rebal with busy_items := m.slabs.slab_rebal.busy_items + 1 } } }

/-- `memcpy` of `n` bytes. -/
def copied (n : Nat) (src dst : List UInt8) : List UInt8 := src.take n ++ dst.drop n

/-- The loop that repoints `head`. -/
def repoint (new_it : Nat) : Nat → Option ChunkPtr → Memory → Option Memory
  | _, none, m => some m
  | 0, some _, _ => none
  | fuel + 1, some fch, m =>
      let m := m.modify_chunk fch fun c => { c with head := some new_it }
      repoint new_it fuel (m.chunk fch).next m

/-- `memcpy(new_it, it, ntotal)`, and the fields that are set then. -/
def copy_item (m : Memory) (it new_it : Nat) (ntotal : UInt64) : Memory :=
  let i := m.store.heap (.item it)
  -- `ntotal`, without what lies in front of `ITEM_data`
  let len := (ntotal - (i.ntotal - size_t i.nbytes)).toNat
  { m with
    store := m.store.modify (.item new_it) fun _ =>
      { i with prev := none, next := none, it_flags := { i.it_flags with linked := false }, refcount := 0 }
    chunk := Function.update m.chunk (.internal new_it) (m.chunk (.internal it))
    flags := Function.update m.flags new_it (m.flags it)
    data := Function.update m.data new_it (copied len (m.data it) (m.data new_it))
    charged := Function.update m.charged new_it (m.charged it) }

def lift (m : Memory) (f : Store → Option Store) : Option Memory := (f m.store).map fun s => { m with store := s }

/-- The chunks of a large item get to know the copy of its header. -/
def repoint_chunks (m : Memory) (new_it : Nat) : Option Memory :=
  if (m.store.heap (.item new_it)).it_flags.chunked then
    let fch := ChunkPtr.internal new_it
    (m.chunk fch).next.bind fun next =>
      repoint new_it (m.slabs.piece_count + 1) (some fch) (m.modify_chunk next fun c => { c with prev := some fch })
  else some m

/-- A whole item is copied, and its copy takes its place. -/
def rescue_item (cfg : Config) (m : Memory) (it new_it : Nat) (ntotal : UInt64) : Option Memory := do
  if (m.store.heap (.item new_it)).it_flags.chunked then none
  else
    let m ← (m.copy_item it new_it ntotal).lift fun s => s.do_item_replace cfg.toSettings (.item it) (.item new_it)
    let m ← m.repoint_chunks new_it
    let m := m.clear_move it
    some { m with cursor := { m.cursor with rescues := m.cursor.rescues + 1 } }

/-- A chunk `ch` of the item `it` is copied to `nch`. -/
def rescue_chunk (m : Memory) (ch it nch : Nat) : Option Memory := do
  let c := m.chunk (.piece ch)
  let prev ← c.prev
  let m := m.modify_chunk prev fun d => { d with next := some (.piece nch) }
  let m := m.modify_chunk? c.next fun d => { d with prev := some (.piece nch) }
  let c := m.chunk (.piece ch)
  let refcount := (m.store.heap (.item ch)).refcount
  let m := m.modify_chunk (.piece nch) fun d => { c with data := copied c.used c.data d.data }
  let m := m.modify_item nch fun i => { i with it_flags := .slabs, refcount := refcount }
  let m := { m with charged := Function.update m.charged nch (m.charged ch) }
  let m := (m.modify_chunk (.piece ch) fun c => { c with chunk := false }).clear_move ch
  let m := { m with cursor := { m.cursor with chunk_rescues := m.cursor.chunk_rescues + 1 } }
  some { m with store := m.store.refcount_decr (.item it) }

/-- What is dead is not saved. -/
def new_piece (m : Memory) (expired : Bool) (size : UInt64) : Option (Memory × Option Nat) :=
  if expired then some (m, none) else m.slab_rebalance_alloc size m.slabs.slab_rebal.s_clsid

/-- An item that cannot be saved is unlinked and freed. -/
def unlink_item (cfg : Config) (m : Memory) (it : Nat) : Option Memory := do
  let ntotal := (m.store.heap (.item it)).ntotal
  let m ← m.lift fun s => s.do_item_unlink (.item it)
  m.do_slabs_free cfg (m.store.heap (.item it)) it ntotal m.slabs.slab_rebal.s_clsid

/-- `case MOVE_FROM_LRU`. -/
def move_from_lru (cfg : Config) (s_cls : Nat) (m : Memory) (n it : Nat) : Option (Memory × Moved) := do
  let i := m.store.heap (.item it)
  let size := size_t (m.slabs.slabclass s_cls).size
  let ch := n ≠ it
  let ntotal := if ch ∨ !i.it_flags.chunked then i.accounted else size
  let expired : Bool := i.exptime ≠ 0 ∧ i.exptime < m.store.current_time ∨ m.store.item_is_flushed i
  let (m, new_it) ← m.new_piece expired (if ch then size else ntotal)
  match new_it with
  | some new_it =>
      if ch then
        let m ← m.rescue_chunk n it new_it
        some (m.modify_class s_cls fun p => { p with requested := p.requested - size }, .chunk_rescued)
      else
        let m ← m.rescue_item cfg it new_it ntotal
        some (m.modify_class s_cls fun p => { p with requested := p.requested - ntotal }, .rescued)
  | none =>
      let nomem := if expired then 0 else 1
      let m ← m.unlink_item cfg it
      let m := { m with cursor := { m.cursor with evictions_nomem := m.cursor.evictions_nomem + nomem } }
      some (m.count_busy, .unlinked)

/-- One round of the loop, before `slab_pos` advances; `lock` is what `item_trylock` would give. -/
def move_piece (cfg : Config) (copy : MoveCopy) (m : Memory) (lock : Bool) : Option (Memory × Moved) := do
  let (n, it) ← m.target
  let i := m.store.heap (.item it)
  if i.it_flags = .cleared then some (m, .passed)
  else if i.it_flags.slabbed then
    if n ≠ it then none
    else
      let m ← m.slab_rebalance_cut_free (copy.s_cls m) n
      some (m.clear_move n, .cut)
  else if copy.linked m it then
    if !lock then some (m.count_busy, .busy)
    else
      let m := { m with store := m.store.refcount_incr (.item it) }
      let refcount : UInt16 := (m.store.heap (.item it)).refcount
      if refcount = 2 ∧ i.it_flags.linked then m.move_from_lru cfg (copy.s_cls m) n it
      else if refcount > 2 ∧ i.it_flags.linked ∧ m.slabs.slab_rebal.busy_loops > SLAB_MOVE_MAX_LOOPS then
        let m := { m with cursor := { m.cursor with busy_deletes := m.cursor.busy_deletes + 1 } }
        let m ← m.lift fun s => s.do_item_unlink (.item it)
        some ({ m with store := m.store.refcount_decr (.item it) }.count_busy, .deleted)
      else some ({ m with store := m.store.refcount_decr (.item it) }.count_busy, .busy)
  else some (m.count_busy, .busy)

/-! ## The loop -/

/-- An item that only the hash table refers to, and its lock is free when the round comes to it. -/
def idle (m : Memory) (lock : Bool) : Bool :=
  m.target.any fun t =>
    let i := m.store.heap (.item t.2)
    i.it_flags.linked ∧ ¬ i.it_flags.slabbed ∧ i.refcount = 1 ∧ lock

end Memory

/-- What a round came to, what it did, if no assertion failed, and the class it took sizes and free lists from. -/
structure Visit where
  it : Option Nat
  idle : Bool
  moved : Option Moved
  cls : Nat
  deriving DecidableEq

namespace Memory

/-- `slab_pos += s_cls->size`. -/
def advance (m : Memory) (s_cls : Nat) : Memory :=
  { m with cursor := { m.cursor with slab_pos := m.cursor.slab_pos + (m.slabs.slabclass s_cls).size } }

/-- The rounds, with a lock for each of the `slab_bulk_check`, and `was_busy`. -/
def move_pieces (cfg : Config) (copy : MoveCopy) : List Bool → Memory → List Visit × Option (Memory × Nat)
  | [], m => ([], some (m, 0))
  | lock :: locks, m =>
      let visit (moved : Option Moved) : Visit := ⟨m.target.map (·.2), m.idle lock, moved, copy.s_cls m⟩
      match m.move_piece cfg copy lock with
      | none => ([visit none], none)
      | some (m', moved) =>
          let busy := if moved.is_busy then 1 else 0
          let m' := m'.advance (copy.s_cls m)
          if m'.cursor.slab_pos ≥ m'.cursor.slab_end then ([visit moved], some (m', busy))
          else
            let (visits, r) := move_pieces cfg copy locks m'
            (visit moved :: visits, r.map fun r => (r.1, r.2 + busy))

/-- The end of a pass over the page. -/
def end_pass (m : Memory) : Memory :=
  let r := m.slabs.slab_rebal
  if m.cursor.slab_pos ≥ m.cursor.slab_end then
    if r.busy_items ≠ 0 then
      { m with
        slabs := { m.slabs with slab_rebal := { r with busy_items := 0, busy_loops := r.busy_loops + 1 } }
        cursor := { m.cursor with slab_pos := 0 } }
    else { m with slabs := { m.slabs with slab_rebal := { r with done := r.done + 1 } } }
  else m

/-- A copy of `slab_rebalance_move`: the rounds, and the memory after them with `was_busy`. -/
def move (cfg : Config) (copy : MoveCopy) (m : Memory) (locks : List Bool) : List Visit × Option (Memory × Nat) :=
  let r := move_pieces cfg copy locks m
  (r.1, r.2.map fun r => (r.1.end_pass, r.2))

end Memory

def ITEM_LINKED : UInt32 := 1

/-- `it->flags & ITEM_LINKED`, where `it->it_flags` is meant. -/
def move_copy : MoveCopy where
  linked m it := m.flags it &&& ITEM_LINKED ≠ 0
  s_cls m := m.slabs.slab_rebal.s_clsid

namespace Memory

def slab_rebalance_move (cfg : Config) (m : Memory) (locks : List Bool) : List Visit × Option (Memory × Nat) :=
  m.move cfg move_copy locks

def slab_rebalance_start (m : Memory) (realloc_ok : Bool) : Memory :=
  let slabs := m.slabs.slab_rebalance_start realloc_ok
  let s_cls := slabs.slabclass slabs.slab_rebal.s_clsid
  if slabs.slab_rebalance_signal = 2 then
    { m with slabs := slabs, cursor := { m.cursor with slab_pos := 0, slab_end := s_cls.size * s_cls.perslab } }
  else { m with slabs := slabs }

/-- `slab_rebalance_finish`: the page is cut into pieces of its new class. -/
def slab_rebalance_finish (m : Memory) : Memory :=
  let r := m.slabs.slab_rebal
  let m := { m with
    slabs := m.slabs.slab_rebalance_finish
    cursor := ⟨0, 0, 0, 0, 0, 0, 0⟩ }
  if r.d_clsid > SLAB_GLOBAL_PAGE_POOL then r.slab_start.elim m fun page => m.split_slab_page_into_freelist page r.d_clsid
  else m

end Memory

end Memcached.MemoryLru

import Mathlib.Logic.Function.Basic
import Memcached.MemoryLru.Sizes

/-!
# Items of memory_lru/items.c

Items live in a heap of addresses; a crawler is a false item that walks a queue. The hash table is a map, and an item
goes back to the slab allocator by the flag `ITEM_SLABBED` alone. A function returns `none` where an assertion of the
code fails. Statistics, logging and external storage are left out.
-/

namespace Memcached.MemoryLru

/-! ## Data -/

abbrev Key := List UInt8

/-- The address of an item, or of `crawlers[id]`. -/
inductive Ptr
  | item (n : Nat)
  | crawler (id : UInt8)
  deriving DecidableEq

/-- The bits of `it_flags`. -/
structure Flags where
  linked : Bool
  cas : Bool
  slabbed : Bool
  fetched : Bool
  active : Bool
  chunked : Bool
  chunk : Bool
  hdr : Bool
  deriving DecidableEq

/-- No bit is set. -/
def Flags.zero : Flags := ⟨false, false, false, false, false, false, false, false⟩

/-- The flags of an enabled crawler: the bit of `ITEM_LINKED`, and no other. -/
def Flags.one : Flags := { Flags.zero with linked := true }

structure Item where
  next : Option Ptr
  prev : Option Ptr
  time : UInt32
  exptime : UInt32
  nbytes : Nat
  refcount : UInt16
  nsuffix : Nat
  it_flags : Flags
  slabs_clsid : UInt8
  /-- `ITEM_key`, with its `nkey`. -/
  key : Key
  cas : UInt64
  deriving DecidableEq

def ITEM_UPDATE_INTERVAL : UInt32 := 60

/-- The LRU of a slab class, in the two upper bits of `slabs_clsid`. -/
inductive Lru
  | HOT_LRU
  | WARM_LRU
  | COLD_LRU
  | TEMP_LRU
  deriving DecidableEq

def Lru.bits : Lru → UInt8
  | .HOT_LRU => 0
  | .WARM_LRU => 64
  | .COLD_LRU => 128
  | .TEMP_LRU => 192

namespace Item

/-- `ITEM_ntotal`. -/
def ntotal (it : Item) : UInt64 :=
  .ofNat (sizeof_item + it.key.length + 1 + it.nsuffix + it.nbytes + if it.it_flags.cas then 8 else 0)

/-- What an item counts in `sizes_bytes`: the data of a header item is elsewhere. -/
def accounted (it : Item) : UInt64 :=
  if it.it_flags.hdr then it.ntotal - .ofNat it.nbytes + .ofNat sizeof_item_hdr else it.ntotal

/-- `ITEM_clsid`. -/
def clsid (it : Item) : UInt8 := it.slabs_clsid &&& 63

/-- `ITEM_lruid`. -/
def lruid (it : Item) : UInt8 := it.slabs_clsid &&& 192

/-- `ITEM_get_cas`. -/
def get_cas (it : Item) : UInt64 := if it.it_flags.cas then it.cas else 0

/-- `ITEM_set_cas`. -/
def set_cas (it : Item) (v : UInt64) : Item := if it.it_flags.cas then { it with cas := v } else it

/-- The test of `lru_pull_tail` for a crawler. -/
def is_crawler (it : Item) : Bool := it.nbytes = 0 ∧ it.key = [] ∧ it.it_flags = .one

end Item

structure Settings where
  lru_segmented : Bool
  temp_lru : Bool
  evict_to_free : Bool
  use_cas : Bool
  inline_ascii_response : Bool
  temporary_ttl : UInt32
  tail_repair_time : UInt32
  hot_lru_pct : UInt64
  warm_lru_pct : UInt64
  slab_chunk_size_max : Nat
  /-- The class of the slab allocator for a size, and 0 for what is too large. -/
  slabs_clsid : Nat → UInt8

/-- A link or an unlink of an item in the hash table. -/
inductive Entry
  | linked (key : Key) (it : Ptr)
  | unlinked (key : Key) (it : Ptr)
  deriving DecidableEq

structure Store where
  heap : Ptr → Item
  heads : UInt8 → Option Ptr
  tails : UInt8 → Option Ptr
  sizes : UInt8 → UInt32
  sizes_bytes : UInt8 → UInt64
  /-- The hash table. -/
  table : Key → Option Ptr
  curr_items : UInt64
  curr_bytes : UInt64
  cas_id : UInt64
  current_time : UInt32
  oldest_live : UInt32
  oldest_cas : UInt64
  /-- `crawlers[id].remaining`. -/
  remaining : UInt8 → UInt32
  /-- The entries that wait in the bump buffers of all workers. -/
  bump_bufs : List Ptr
  /-- The references a caller holds. This and the lists below are not in the code. -/
  held : Ptr → Nat
  /-- The items handed out by `slabs_alloc`, one entry a call. -/
  allocs : List Ptr
  /-- The items handed to `item_free`. -/
  frees : List Ptr
  /-- The links and unlinks so far, newest first. -/
  log : List Entry

/-- Every item is free, no crawler is on, and the clock starts. -/
def Store.empty : Store where
  heap := fun
    | .item _ => ⟨none, none, 0, 0, 0, 0, 0, { Flags.zero with slabbed := true }, 0, [], 0⟩
    | .crawler _ => ⟨none, none, 0, 0, 0, 0, 0, .zero, 0, [], 0⟩
  heads := fun _ => none
  tails := fun _ => none
  sizes := fun _ => 0
  sizes_bytes := fun _ => 0
  table := fun _ => none
  curr_items := 0
  curr_bytes := 0
  cas_id := 0
  current_time := 2
  oldest_live := 0
  oldest_cas := 0
  remaining := fun _ => 0
  bump_bufs := []
  held := fun _ => 0
  allocs := []
  frees := []
  log := []

namespace Store

def modify (s : Store) (p : Ptr) (f : Item → Item) : Store := { s with heap := Function.update s.heap p (f (s.heap p)) }

/-- Where there is a next or a previous item, it is changed. -/
def modify? (s : Store) (p : Option Ptr) (f : Item → Item) : Store :=
  match p with
  | some p => s.modify p f
  | none => s

/-! ## Queues -/

/-- The links of `do_item_link_q`: `it` becomes the head. -/
def push_head (s : Store) (it : Ptr) : Option Store :=
  let id := (s.heap it).slabs_clsid
  if s.heads id = some it ∨ (s.heads id).isSome ≠ (s.tails id).isSome then none
  else
    let head := s.heads id
    let s := s.modify it fun i => { i with prev := none, next := head }
    let s := s.modify? head fun i => { i with prev := some it }
    some { s with
      heads := Function.update s.heads id (some it)
      tails := Function.update s.tails id (if s.tails id = none then some it else s.tails id) }

/-- The links of `do_item_unlink_q`, and all of `do_item_unlinktail_q`. -/
def do_item_unlinktail_q (s : Store) (it : Ptr) : Option Store :=
  let i := s.heap it
  let id := i.slabs_clsid
  if s.heads id = some it ∧ i.prev ≠ none ∨ s.tails id = some it ∧ i.next ≠ none ∨ i.next = some it ∨ i.prev = some it
  then none
  else
    let s := { s with
      heads := Function.update s.heads id (if s.heads id = some it then i.next else s.heads id)
      tails := Function.update s.tails id (if s.tails id = some it then i.prev else s.tails id) }
    let s := s.modify? i.next fun j => { j with prev := i.prev }
    some (s.modify? i.prev fun j => { j with next := i.next })

def do_item_link_q (s : Store) (it : Ptr) : Option Store := do
  let i := s.heap it
  if i.it_flags.slabbed then none
  else
    let s ← s.push_head it
    some { s with
      sizes := Function.update s.sizes i.slabs_clsid (s.sizes i.slabs_clsid + 1)
      sizes_bytes := Function.update s.sizes_bytes i.slabs_clsid (s.sizes_bytes i.slabs_clsid + i.accounted) }

def do_item_unlink_q (s : Store) (it : Ptr) : Option Store := do
  let i := s.heap it
  let s ← s.do_item_unlinktail_q it
  some { s with
    sizes := Function.update s.sizes i.slabs_clsid (s.sizes i.slabs_clsid - 1)
    sizes_bytes := Function.update s.sizes_bytes i.slabs_clsid (s.sizes_bytes i.slabs_clsid - i.accounted) }

/-- `it` becomes the tail. -/
def do_item_linktail_q (s : Store) (it : Ptr) : Option Store :=
  let i := s.heap it
  let id := i.slabs_clsid
  let tail := s.tails id
  if i.it_flags ≠ .one ∨ i.nbytes ≠ 0 ∨ tail = some it ∨ (s.heads id).isSome ≠ tail.isSome ∨
    tail.any (fun t => (s.heap t).next ≠ none)
  then none
  else
    let s := s.modify it fun i => { i with prev := tail, next := none }
    let s := s.modify? tail fun i => { i with next := some it }
    some { s with
      tails := Function.update s.tails id (some it)
      heads := Function.update s.heads id (if s.heads id = none then some it else s.heads id) }

/-- A crawler moves towards the head, past the item that is returned; at the head it is popped off. -/
def do_item_crawl_q (s : Store) (it : Ptr) : Option (Store × Option Ptr) :=
  let i := s.heap it
  let id := i.slabs_clsid
  if i.it_flags ≠ .one ∨ i.nbytes ≠ 0 then none
  else match i.prev with
    | none =>
        if s.heads id ≠ some it then none
        else match i.next with
          | none => some (s, none)
          | some n =>
              if (s.heap n).prev ≠ some it then none
              else
                let s := { s with heads := Function.update s.heads id (some n) }
                some (s.modify n fun j => { j with prev := none }, none)
    | some p =>
        if p = it ∨ i.next = some it ∨ i.next ≠ none ∧ (s.heap p).next ≠ some it then none
        else
          let before := (s.heap p).prev
          let s := { s with
            heads := Function.update s.heads id (if s.heads id = some p then some it else s.heads id)
            tails := Function.update s.tails id (if s.tails id = some it then some p else s.tails id) }
          let s := s.modify? i.next fun j => { j with prev := some p }
          let s := s.modify p fun j => { j with next := i.next, prev := some it }
          let s := s.modify it fun j => { j with next := some p, prev := before }
          let s := s.modify? before fun j => { j with next := some it }
          if before = some it then none else some (s, some p)

/-! ## References -/

def refcount_incr (s : Store) (it : Ptr) : Store := s.modify it fun i => { i with refcount := i.refcount + 1 }

def refcount_decr (s : Store) (it : Ptr) : Store := s.modify it fun i => { i with refcount := i.refcount - 1 }

/-- `item_free`, down to the flag that `do_slabs_free` sets. -/
def item_free (s : Store) (it : Ptr) : Option Store :=
  let i := s.heap it
  if i.it_flags.linked ∨ s.heads i.slabs_clsid = some it ∨ s.tails i.slabs_clsid = some it ∨ i.refcount ≠ 0 then none
  else
    let s := s.modify it fun i =>
      { i with it_flags := { Flags.zero with slabbed := true }, slabs_clsid := 0, prev := none, next := none }
    some { s with frees := it :: s.frees }

def do_item_remove (s : Store) (it : Ptr) : Option Store :=
  if (s.heap it).it_flags.slabbed ∨ (s.heap it).refcount = 0 then none
  else
    let s := s.refcount_decr it
    if (s.heap it).refcount = 0 then s.item_free it else some s

/-- A caller takes a reference. -/
def hold (s : Store) (it : Ptr) : Store := { s with held := Function.update s.held it (s.held it + 1) }

/-- A caller gives its reference back with `do_item_remove`. -/
def release (s : Store) (it : Ptr) : Option Store :=
  if s.held it = 0 then none else { s with held := Function.update s.held it (s.held it - 1) }.do_item_remove it

/-! ## Links -/

def assoc_insert (s : Store) (it : Ptr) : Store :=
  let key := (s.heap it).key
  { s with table := Function.update s.table key (some it), log := .linked key it :: s.log }

def assoc_delete (s : Store) (it : Ptr) : Store :=
  let key := (s.heap it).key
  { s with table := Function.update s.table key none, log := .unlinked key it :: s.log }

def do_item_link (cfg : Settings) (s : Store) (it : Ptr) : Option Store := do
  let i := s.heap it
  if i.it_flags.linked ∨ i.it_flags.slabbed then none
  else
    let s := s.modify it fun i => { i with it_flags := { i.it_flags with linked := true }, time := s.current_time }
    let s := { s with curr_bytes := s.curr_bytes + i.ntotal, curr_items := s.curr_items + 1 }
    let s := if cfg.use_cas then { s with cas_id := s.cas_id + 1 } else s
    let s := s.modify it fun i => i.set_cas (if cfg.use_cas then s.cas_id else 0)
    let s := s.assoc_insert it
    let s ← s.do_item_link_q it
    some (s.refcount_incr it)

/-- `do_item_unlink`; `do_item_unlink_nolock` differs in the lock. -/
def do_item_unlink (s : Store) (it : Ptr) : Option Store := do
  let i := s.heap it
  if i.it_flags.linked then
    let s := s.modify it fun i => { i with it_flags := { i.it_flags with linked := false } }
    let s := { s with curr_bytes := s.curr_bytes - i.ntotal, curr_items := s.curr_items - 1 }
    let s := s.assoc_delete it
    let s ← s.do_item_unlink_q it
    s.do_item_remove it
  else some s

def do_item_unlink_nolock (s : Store) (it : Ptr) : Option Store := s.do_item_unlink it

def do_item_replace (cfg : Settings) (s : Store) (it new_it : Ptr) : Option Store := do
  if (s.heap it).it_flags.slabbed then none
  else
    let s ← s.do_item_unlink it
    s.do_item_link cfg new_it

/-- `it->time < current_time - ITEM_UPDATE_INTERVAL`. -/
def update_due (s : Store) (it : Ptr) : Bool := (s.heap it).time < s.current_time - ITEM_UPDATE_INTERVAL

def set_time (s : Store) (it : Ptr) : Store := s.modify it fun i => { i with time := s.current_time }

/-- The queue of another LRU of the class. -/
def move_lru (s : Store) (it : Ptr) (lru : Lru) : Store :=
  s.modify it fun i => { i with slabs_clsid := i.clsid ||| lru.bits }

def set_active (s : Store) (it : Ptr) (active : Bool) : Store :=
  s.modify it fun i => { i with it_flags := { i.it_flags with active := active } }

def do_item_update_nolock (s : Store) (it : Ptr) : Option Store := do
  if s.update_due it then
    if (s.heap it).it_flags.slabbed then none
    else if (s.heap it).it_flags.linked then
      let s ← s.do_item_unlink_q it
      (s.set_time it).do_item_link_q it
    else some s
  else some s

def do_item_update (cfg : Settings) (s : Store) (it : Ptr) : Option Store := do
  if cfg.lru_segmented then
    if (s.heap it).it_flags.slabbed then none
    else if (s.heap it).it_flags.linked then
      if (s.heap it).lruid = Lru.COLD_LRU.bits ∧ (s.heap it).it_flags.active then
        let s ← (s.set_time it).do_item_unlink_q it
        ((s.move_lru it .WARM_LRU).set_active it false).do_item_link_q it
      else if s.update_due it then some (s.set_time it)
      else some s
    else some s
  else if s.update_due it then
    if (s.heap it).it_flags.slabbed then none
    else if (s.heap it).it_flags.linked then
      let s ← (s.set_time it).do_item_unlink_q it
      s.do_item_link_q it
    else some s
  else some s

/-! ## Get -/

def item_is_flushed (s : Store) (it : Item) : Bool :=
  if s.oldest_live = 0 ∨ s.oldest_live > s.current_time then false
  else it.time ≤ s.oldest_live ∨ s.oldest_cas ≠ 0 ∧ it.get_cas ≠ 0 ∧ it.get_cas < s.oldest_cas

/-- `lru_bump_async`: the buffer may be full. -/
def lru_bump_async (s : Store) (it : Ptr) (room : Bool) : Store × Bool :=
  let s := s.refcount_incr it
  if room then ({ s with bump_bufs := it :: s.bump_bufs }, true) else (s.refcount_decr it, false)

/-- The hit markers of a fetch. -/
def mark_fetched (cfg : Settings) (s : Store) (it : Ptr) (room : Bool) : Option Store :=
  let fetched := s.modify it fun i => { i with it_flags := { i.it_flags with fetched := true } }
  if cfg.lru_segmented then
    if !(s.heap it).it_flags.active then
      if !(s.heap it).it_flags.fetched then some fetched
      else
        let s := s.set_active it true
        if (s.heap it).lruid ≠ Lru.COLD_LRU.bits then s.do_item_update cfg it
        else
          let (s, bumped) := s.lru_bump_async it room
          some (if bumped then s else s.set_active it false)
    else some s
  else fetched.do_item_update cfg it

/-- `room` is that of the bump buffer. -/
def do_item_get (cfg : Settings) (s : Store) (key : Key) (do_update room : Bool) : Option (Store × Option Ptr) := do
  match s.table key with
  | none => some (s, none)
  | some it =>
      let s := s.refcount_incr it
      let i := s.heap it
      if s.item_is_flushed i ∨ i.exptime ≠ 0 ∧ i.exptime ≤ s.current_time then
        let s ← s.do_item_unlink it
        let s ← s.do_item_remove it
        some (s, none)
      else
        let s ← if do_update then s.mark_fetched cfg it room else some s
        some (s.hold it, some it)

def do_item_touch (cfg : Settings) (s : Store) (key : Key) (exptime : UInt32) (room : Bool) :
    Option (Store × Option Ptr) := do
  let (s, it) ← s.do_item_get cfg key true room
  some (s.modify? it fun i => { i with exptime := exptime }, it)

/-- One entry of `lru_maintainer_bumps`. -/
def lru_maintainer_bump (cfg : Settings) (s : Store) (it : Ptr) : Option Store := do
  if it ∈ s.bump_bufs then
    let s := { s with bump_bufs := s.bump_bufs.erase it }
    let s ← s.do_item_update cfg it
    s.do_item_remove it
  else none

end Store

/-! ## Pulling the tail -/

/-- The `flags` of `lru_pull_tail`. -/
structure PullFlags where
  evict : Bool := false
  crawl_blocks : Bool := false
  return_item : Bool := false
  deriving DecidableEq

/-- How the loop of `lru_pull_tail` ends. -/
inductive Pulled
  /-- A crawler is in the way. -/
  | blocked
  /-- `it` is null. -/
  | nothing
  /-- `it` goes to `move_to_lru`; `returned` is whether `ret_it` was filled. -/
  | stopped (it : Ptr) (move_to_lru : Option Lru) (returned : Bool)
  deriving DecidableEq

/-- The arguments of one call of `lru_pull_tail`. -/
structure Pull where
  orig_id : UInt8
  cur_lru : Lru
  total_bytes : UInt64
  flags : PullFlags
  max_age : UInt32

namespace Pull

def id (a : Pull) : UInt8 := a.orig_id ||| a.cur_lru.bits

/-- The `limit` on the bytes of HOT or WARM. -/
def limit (cfg : Settings) (a : Pull) : UInt64 :=
  let warm := a.total_bytes * cfg.warm_lru_pct / 100
  if a.cur_lru = .HOT_LRU then
    let hot := a.total_bytes * cfg.hot_lru_pct / 100
    if hot = 0 then warm else hot
  else warm

/-- `tail_repair_time` is set, and the item is older. -/
def repairs (cfg : Settings) (s : Store) (it : Item) : Bool :=
  it.refcount ≠ 2 ∧ cfg.tail_repair_time ≠ 0 ∧ it.time + cfg.tail_repair_time < s.current_time

/-- Expired or flushed. -/
def reclaims (s : Store) (it : Item) : Bool := it.exptime ≠ 0 ∧ it.exptime < s.current_time ∨ s.item_is_flushed it

/-- The switch on `cur_lru`: the change to `removed`, and how the loop ends, if it does. -/
def pick (cfg : Settings) (a : Pull) (s : Store) (search : Ptr) : Option (Store × Nat × Option Pulled) := do
  let it := s.heap search
  match a.cur_lru with
  | .HOT_LRU | .WARM_LRU =>
      if it.it_flags.active then
        let s := s.set_active search false
        if a.cur_lru = .WARM_LRU then
          let s ← s.do_item_update_nolock search
          let s ← s.do_item_remove search
          some (s, 1, none)
        else
          let s ← s.do_item_unlink_q search
          some (s, 1, some (.stopped search (some .WARM_LRU) false))
      else if s.sizes_bytes a.id > a.limit cfg ∨ s.current_time - it.time > a.max_age then
        let s ← s.do_item_unlink_q search
        some (s, 1, some (.stopped search (some .COLD_LRU) false))
      else some (s, 0, some (.stopped search none false))
  | .COLD_LRU =>
      if a.flags.evict then
        if !cfg.evict_to_free then some (s, 0, some (.stopped search none false))
        else
          let s ← s.do_item_unlink_nolock search
          some (s, 1, some (.stopped search none false))
      else if a.flags.return_item then some (s, 0, some (.stopped search none true))
      else if it.it_flags.active ∧ cfg.lru_segmented then
        let s ← (s.set_active search false).do_item_unlink_q search
        some (s, 1, some (.stopped search (some .WARM_LRU) false))
      else some (s, 0, some (.stopped search none false))
  | .TEMP_LRU => some (s, 0, some (.stopped search none false))

/-- The body of the loop for an item whose lock was free. -/
def round (cfg : Settings) (a : Pull) (s : Store) (search : Ptr) : Option (Store × Nat × Option Pulled) := do
  let s := s.refcount_incr search
  if repairs cfg s (s.heap search) then
    let s ← (s.modify search fun i => { i with refcount := 1 }).do_item_unlink_nolock search
    some (s, 0, none)
  else if reclaims s (s.heap search) then
    let s ← s.do_item_unlink_nolock search
    let s ← s.do_item_remove search
    some (s, 1, none)
  else a.pick cfg s search

/-- The loop of `lru_pull_tail`, with `removed`. The list has what `item_trylock` would give for each node. -/
def loop (cfg : Settings) (a : Pull) : List Bool → Nat → Option Ptr → Nat → Store → Option (Store × Nat × Pulled)
  | _, 0, _, removed, s => some (s, removed, .nothing)
  | _, _, none, removed, s => some (s, removed, .nothing)
  | [], _, _, _, _ => none
  | lock :: locks, tries + 1, some search, removed, s => do
      let next_it := (s.heap search).prev
      if (s.heap search).is_crawler then
        if a.flags.crawl_blocks then some (s, removed, .blocked) else loop cfg a locks (tries + 1) next_it removed s
      else if !lock then loop cfg a locks tries next_it removed s
      else
        let (s, more, pulled) ← a.round cfg s search
        match pulled with
        | none => loop cfg a locks tries next_it (removed + more) s
        | some pulled => some (s, removed + more, pulled)

end Pull

namespace Store

/-- What `lru_pull_tail` does under `move_to_lru`. -/
def move_to_lru (s : Store) (it : Ptr) : Option Lru → Option Store
  | some lru => (s.move_lru it lru).do_item_link_q it
  | none => some s

/-- `lru_pull_tail`: how many items were removed, and the item returned to the caller. -/
def lru_pull_tail (cfg : Settings) (s : Store) (a : Pull) (locks : List Bool) : Option (Store × Nat × Option Ptr) := do
  if a.orig_id = 0 then some (s, 0, none)
  else
    let (s, removed, pulled) ← a.loop cfg locks 5 (s.tails a.id) 0 s
    match pulled with
    | .blocked => some (s, 0, none)
    | .nothing => some (s, removed, none)
    | .stopped it move_to_lru returned =>
        let s ← s.move_to_lru it move_to_lru
        if !a.flags.return_item then
          let s ← s.do_item_remove it
          some (s, removed, none)
        -- the reference is the caller's now, if it is told of the item
        else if returned then some (s.hold it, removed, some it)
        else some (s, removed, none)

/-! ## Allocation -/

/-- `slabs_alloc` grants `it`, or nothing. -/
def slabs_alloc (s : Store) : Option Ptr → Option (Store × Option Ptr)
  | some (.item n) =>
      if (s.heap (.item n)).it_flags.slabbed then
        let s := s.modify (.item n) fun i => { i with it_flags := { i.it_flags with slabbed := false }, refcount := 1 }
        some ({ s with allocs := .item n :: s.allocs }.hold (.item n), some (.item n))
      else none
  | some (.crawler _) => none
  | none => some (s, none)

end Store

/-- One round of `do_item_alloc_pull`: what `slabs_alloc` answers, and the locks the pulls get. -/
structure Round where
  grant : Option Ptr
  total_bytes : UInt64
  locks : List Bool × List Bool × List Bool

namespace Store

/-- `temp_lru_size`, an `unsigned int`. -/
def temp_lru_size (s : Store) (id : UInt8) : UInt32 := (s.sizes_bytes (id &&& 63 ||| Lru.TEMP_LRU.bits)).toUInt32

/-- "Try to reclaim memory first". -/
def try_reclaim (cfg : Settings) (s : Store) (id : UInt8) (locks : List Bool) : Option Store :=
  if cfg.lru_segmented then some s else (s.lru_pull_tail cfg ⟨id, .COLD_LRU, 0, {}, 0⟩ locks).map (·.1)

/-- The loop of `do_item_alloc_pull`, `i` rounds at most. -/
def do_item_alloc_pull (cfg : Settings) (id : UInt8) : Nat → List Round → Store → Option (Store × Option Ptr)
  | 0, _, s => some (s, none)
  | _, [], _ => none
  | i + 1, r :: rounds, s => do
      let pull (s : Store) (lru : Lru) (total_bytes : UInt64) (evict : Bool) (locks : List Bool) :=
        s.lru_pull_tail cfg ⟨id, lru, total_bytes, { evict := evict }, 0⟩ locks
      let s ← s.try_reclaim cfg id r.locks.1
      let (s, it) ← s.slabs_alloc r.grant
      if it.isSome then some (s, it)
      else
        let total_bytes := r.total_bytes - if cfg.temp_lru then (s.temp_lru_size id).toUInt64 else 0
        let (s, removed, _) ← pull s .COLD_LRU total_bytes true r.locks.2.1
        if removed = 0 then
          if cfg.lru_segmented then
            let (s, _, _) ← pull s .HOT_LRU total_bytes false r.locks.2.2
            do_item_alloc_pull cfg id i rounds s
          else some (s, none)
        else do_item_alloc_pull cfg id i rounds s

end Store

/-- The arguments of `do_item_alloc`. -/
structure NewItem where
  key : Key
  flags : UInt32
  exptime : UInt32
  nbytes : Nat

namespace NewItem

/-- The `nsuffix` of `item_make_header`: the length of `" %u %d\\r\\n"`, or of the flags. -/
def nsuffix (cfg : Settings) (a : NewItem) : Nat :=
  if cfg.inline_ascii_response then (toString a.flags.toNat).length + (toString (a.nbytes - 2)).length + 4
  else if a.flags = 0 then 0
  else 4

def ntotal (cfg : Settings) (a : NewItem) : Nat :=
  sizeof_item + (a.key.length + 1) + a.nsuffix cfg + a.nbytes + if cfg.use_cas then 8 else 0

/-- The LRU of a new item. -/
def lru (cfg : Settings) (s : Store) (a : NewItem) : Lru :=
  if cfg.temp_lru ∧ a.exptime - s.current_time ≤ cfg.temporary_ttl then .TEMP_LRU
  else if cfg.lru_segmented then .HOT_LRU
  else .COLD_LRU

end NewItem

namespace Store

def do_item_alloc (cfg : Settings) (s : Store) (a : NewItem) (rounds : List Round) : Option (Store × Option Ptr) := do
  let id := cfg.slabs_clsid (a.ntotal cfg)
  if a.nbytes < 2 ∨ id = 0 then some (s, none)
  else
    let large := a.ntotal cfg > cfg.slab_chunk_size_max
    let htotal := a.key.length + 1 + a.nsuffix cfg + sizeof_item + sizeof_item_chunk + if cfg.use_cas then 8 else 0
    let (s, it) ← s.do_item_alloc_pull cfg (if large then cfg.slabs_clsid htotal else id) 10 rounds
    match it with
    | none => some (s, none)
    | some it =>
        if (s.heap it).slabs_clsid ≠ 0 then none
        else
          let clsid := id ||| (a.lru cfg s).bits
          some (s.modify it fun i =>
            { i with
              next := none, prev := none, slabs_clsid := clsid, key := a.key, nbytes := a.nbytes, exptime := a.exptime
              nsuffix := a.nsuffix cfg
              it_flags := { i.it_flags with chunked := i.it_flags.chunked || large, cas := i.it_flags.cas || cfg.use_cas } },
            some it)

end Store

end Memcached.MemoryLru

import Mathlib.Algebra.Order.Ring.Int
import Mathlib.Logic.Function.Iterate
import Memcached.MemoryLru.Sizes

/-!
# The slab allocator of memory_lru/slabs.c: pages

A slab class owns pages, listed in `slab_list[0 .. slabs)`, and counts its free chunks. Class 0 is the global
page pool. The rebalancer moves the first page of one class to another class in three steps (start, move,
finish) and drops `slabs_lock` between them. The functions below are the bodies run under that lock. The free
list of a class is kept as its length `sl_curr` only.

What the C library answers (`malloc`, `realloc`) is an argument. The last three fields of the state record
what happened to pages; the code has no such fields.
-/

namespace Memcached.MemoryLru

/-! ## Data -/

/-- The address of a slab page. -/
abbrev Page := Nat

def POWER_SMALLEST : Nat := 1
def MAX_NUMBER_OF_SLAB_CLASSES : Nat := 64
def SLAB_GLOBAL_PAGE_POOL : Nat := 0
def CHUNK_ALIGN_BYTES : Nat := 8
def SLABS_ALLOC_NO_NEWPAGE : Nat := 1

/-- The settings the allocator reads. They are set once, before any thread runs. -/
structure SlabSettings where
  slab_reassign : Bool
  slab_page_size : Nat
  slab_chunk_size_max : Nat
  page_pos : 0 < slab_page_size
  deriving DecidableEq

/-- The chunk sizes `slabs_init` computes: classes `1 .. power_largest`, each with at least one chunk a page. -/
structure ClassTable where
  power_largest : Nat
  size : Nat → Nat
  perslab : Nat → Nat
  power_lt : power_largest < MAX_NUMBER_OF_SLAB_CLASSES
  bytes_pos : ∀ i, POWER_SMALLEST ≤ i → i ≤ power_largest → 0 < size i * perslab i

/-- `slabclass_t`. `slab_list` is the block of `list_size` pointers that `realloc` returned; a cell that was
never written is `none`. -/
structure Slabclass where
  size : Nat
  perslab : Nat
  sl_curr : Nat
  slabs : Nat
  slab_list : List (Option Page)
  list_size : Nat
  requested : UInt64
  deriving DecidableEq

/-- The pages a class owns: `slab_list[0 .. slabs)`. -/
def Slabclass.pages (c : Slabclass) : List (Option Page) := c.slab_list.take c.slabs

/-- `struct slab_rebalance`. `slab_pos` counts chunks from `slab_start`. -/
structure SlabRebalance where
  slab_start : Option Page
  slab_pos : Nat
  s_clsid : Nat
  d_clsid : Nat
  busy_items : Nat
  busy_loops : Nat
  done : Nat
  deriving DecidableEq

structure Slabs where
  settings : SlabSettings
  slabclass : Nat → Slabclass
  mem_limit : Nat
  mem_malloced : Nat
  mem_limit_reached : Bool
  power_largest : Nat
  mem_base : Option Nat
  mem_current : Nat
  mem_avail : Nat
  slab_rebal : SlabRebalance
  slab_rebalance_signal : Nat
  /-- `static int cur` of `slabs_reassign_pick_any`. -/
  pick_cur : Nat
  /-- Every page `memory_allocate` returned, with the bytes it added to `mem_malloced`. -/
  obtained : List (Page × Nat)
  /-- Every page `memory_release` freed, with the bytes it took from `mem_malloced`. -/
  freed : List (Page × Nat)
  /-- Some write `slab_list[slabs++]` fell outside its block. -/
  wild : Bool

namespace Slabs

def setClass (s : Slabs) (id : Nat) (c : Slabclass) : Slabs :=
  { s with slabclass := Function.update s.slabclass id c }

/-! ## Memory -/

/-- `memory_allocate`. The amount is added to `mem_malloced` whatever `malloc` answered. -/
def memory_allocate (s : Slabs) (size : Nat) (malloc : Option Page) : Option Page × Slabs :=
  match s.mem_base with
  | none =>
      (malloc, { s with
        mem_malloced := s.mem_malloced + size
        obtained := (malloc.map fun p => (p, size)).toList ++ s.obtained })
  | some _ =>
      if size > s.mem_avail then (none, s)
      else
        let size := if size % CHUNK_ALIGN_BYTES ≠ 0
          then size + (CHUNK_ALIGN_BYTES - size % CHUNK_ALIGN_BYTES) else size
        (some s.mem_current, { s with
          mem_current := s.mem_current + size
          mem_avail := if size < s.mem_avail then s.mem_avail - size else 0
          mem_malloced := s.mem_malloced + size
          obtained := (s.mem_current, size) :: s.obtained })

/-- `slabs--` on an `unsigned int`. -/
def decr (n : Nat) : Nat := (n + (2 ^ 32 - 1)) % 2 ^ 32

/-- `get_page_from_global_pool`: the last page of the pool. -/
def get_page_from_global_pool (s : Slabs) : Option Page × Slabs :=
  let p := s.slabclass SLAB_GLOBAL_PAGE_POOL
  if p.slabs < 1 then (none, s)
  else (p.slab_list.getD (p.slabs - 1) none,
    s.setClass SLAB_GLOBAL_PAGE_POOL { p with slabs := decr p.slabs })

/-- The loop of `memory_release`. Each round takes a page off the pool, so `slabs` bounds the rounds. -/
def memory_release_loop : Nat → Slabs → Slabs
  | 0, s => s
  | fuel + 1, s =>
      if s.mem_malloced > s.mem_limit then
        match s.get_page_from_global_pool with
        | (none, s) => s
        | (some p, s) => memory_release_loop fuel { s with
            mem_malloced := s.mem_malloced - s.settings.slab_page_size
            freed := (p, s.settings.slab_page_size) :: s.freed }
      else s

def memory_release (s : Slabs) : Slabs :=
  if s.mem_base ≠ none then s
  else if !s.settings.slab_reassign then s
  else memory_release_loop (s.slabclass SLAB_GLOBAL_PAGE_POOL).slabs s

def do_slabs_adjust_mem_limit (s : Slabs) (new_mem_limit : Nat) : Bool × Slabs :=
  if s.mem_base ≠ none then (false, s)
  else (true, memory_release { s with mem_limit := new_mem_limit, mem_limit_reached := false })

/-! ## The page list of a class -/

/-- `realloc` of a block of pointers to `n` cells. -/
def realloc (l : List (Option Page)) (n : Nat) : List (Option Page) :=
  (l ++ List.replicate (n - l.length) none).take n

/-- `grow_slab_list`. `list_size * 2` is computed in `unsigned int`. -/
def grow_slab_list (s : Slabs) (id : Nat) (realloc_ok : Bool) : Bool × Slabs :=
  let p := s.slabclass id
  if p.slabs = p.list_size then
    let new_size := if p.list_size ≠ 0 then (p.list_size * 2) % 2 ^ 32 else 16
    if realloc_ok then
      (true, s.setClass id { p with list_size := new_size, slab_list := realloc p.slab_list new_size })
    else (false, s)
  else (true, s)

/-- `slab_list[slabs++] = ptr`. A write past the block changes no cell of it. -/
def append_page (s : Slabs) (id : Nat) (ptr : Option Page) : Slabs :=
  let p := s.slabclass id
  { s.setClass id { p with slab_list := p.slab_list.set p.slabs ptr, slabs := (p.slabs + 1) % 2 ^ 32 } with
    wild := s.wild || !decide (p.slabs < p.list_size) }

/-! ## Chunks, as counts -/

/-- What `do_slabs_free` reads from the object it is given. -/
inductive FreedItem
  | plain
  | hdr (nbytes : Nat)
  | chunked (orig_clsid header : Nat) (chunks : List (Nat × Nat))

/-- A chunk goes back to class `id`, which was charged `size` bytes for it. -/
def put_chunk (s : Slabs) (id size : Nat) : Slabs :=
  let p := s.slabclass id
  s.setClass id { p with sl_curr := p.sl_curr + 1, requested := p.requested - UInt64.ofNat size }

/-- `do_slabs_free` and `do_slabs_free_chunked`. -/
def do_slabs_free (s : Slabs) (it : FreedItem) (size id : Nat) : Slabs :=
  if id < POWER_SMALLEST ∨ id > s.power_largest then s
  else match it with
    | .plain => s.put_chunk id size
    | .hdr nbytes => s.put_chunk id (size - nbytes + sizeof_item_hdr)
    | .chunked orig_clsid header chunks =>
        chunks.foldl (fun s c => s.put_chunk c.1 (c.2 + sizeof_item_chunk)) (s.put_chunk orig_clsid header)

def split_slab_page_into_freelist (s : Slabs) (id : Nat) : Slabs :=
  Nat.iterate (fun s => s.do_slabs_free .plain 0 id) (s.slabclass id).perslab s

/-! ## New pages -/

/-- What `realloc` and `malloc` answer, should a call reach them. -/
structure MallocEnv where
  realloc_ok : Bool
  malloc : Option Page
  deriving DecidableEq

/-- The byte length of a new page of class `id`. -/
def page_len (s : Slabs) (id : Nat) : Nat :=
  if s.settings.slab_reassign ∨ s.settings.slab_chunk_size_max ≠ s.settings.slab_page_size
  then s.settings.slab_page_size else (s.slabclass id).size * (s.slabclass id).perslab

def do_slabs_newslab (s : Slabs) (id : Nat) (env : MallocEnv) : Bool × Slabs :=
  let p := s.slabclass id
  let g := s.slabclass SLAB_GLOBAL_PAGE_POOL
  let len := s.page_len id
  if s.mem_limit ≠ 0 ∧ s.mem_malloced + len > s.mem_limit ∧ p.slabs > 0 ∧ g.slabs = 0 then
    (false, { s with mem_limit_reached := true })
  else match s.grow_slab_list id env.realloc_ok with
    | (false, s) => (false, s)
    | (true, s) =>
        match s.get_page_from_global_pool with
        | (some ptr, s) => (true, (s.split_slab_page_into_freelist id).append_page id (some ptr))
        | (none, s) =>
            match s.memory_allocate len env.malloc with
            | (none, s) => (false, s)
            | (some ptr, s) => (true, (s.split_slab_page_into_freelist id).append_page id (some ptr))

/-- The loop of `slabs_prefill_global`, one element of the list a round. -/
def slabs_prefill_loop : List MallocEnv → Slabs → Slabs
  | [], s => s
  | env :: envs, s =>
      if s.mem_malloced < s.mem_limit then
        match s.memory_allocate s.settings.slab_page_size env.malloc with
        | (none, s) => s
        | (some ptr, s) =>
            -- the result of grow_slab_list is not looked at
            slabs_prefill_loop envs
              ((s.grow_slab_list SLAB_GLOBAL_PAGE_POOL env.realloc_ok).2.append_page SLAB_GLOBAL_PAGE_POOL (some ptr))
      else s

def slabs_prefill_global (s : Slabs) (envs : List MallocEnv) : Slabs :=
  { slabs_prefill_loop envs s with mem_limit_reached := true }

/-- `do_slabs_alloc`: whether a chunk was returned, and `*total_bytes`. -/
def do_slabs_alloc (s : Slabs) (size id flags : Nat) (env : MallocEnv) : Bool × Option UInt64 × Slabs :=
  if id < POWER_SMALLEST ∨ id > s.power_largest then (false, none, s)
  else
    let total_bytes := (s.slabclass id).requested
    let s := if (s.slabclass id).sl_curr = 0 ∧ flags ≠ SLABS_ALLOC_NO_NEWPAGE
      then (s.do_slabs_newslab id env).2 else s
    let p := s.slabclass id
    if p.sl_curr ≠ 0 then
      (true, some total_bytes,
        s.setClass id { p with sl_curr := p.sl_curr - 1, requested := p.requested + UInt64.ofNat size })
    else (false, some total_bytes, s)

/-! ## Moving a page -/

/-- The loop of `slabs_reassign_pick_any`. -/
def pick_any_loop (s : Slabs) (dst : Int) : Nat → Nat → Int × Nat
  | 0, cur => (-1, cur)
  | tries + 1, cur =>
      let cur := if cur + 1 > s.power_largest then POWER_SMALLEST else cur + 1
      if (cur : Int) = dst then s.pick_any_loop dst tries cur
      else if (s.slabclass cur).slabs > 1 then (cur, cur)
      else s.pick_any_loop dst tries cur

def slabs_reassign_pick_any (s : Slabs) (dst : Int) : Int × Slabs :=
  let r := s.pick_any_loop dst (s.power_largest - POWER_SMALLEST + 1) s.pick_cur
  (r.1, { s with pick_cur := r.2 })

inductive ReassignResult
  | REASSIGN_OK
  | REASSIGN_RUNNING
  | REASSIGN_BADCLASS
  | REASSIGN_NOSPARE
  | REASSIGN_SRC_DST_SAME
  deriving DecidableEq

def do_slabs_reassign (s : Slabs) (src dst : Int) : ReassignResult × Slabs :=
  if s.slab_rebalance_signal ≠ 0 then (.REASSIGN_RUNNING, s)
  else if src = dst then (.REASSIGN_SRC_DST_SAME, s)
  else
    let picked := if src = -1 then s.slabs_reassign_pick_any dst else (src, s)
    let src := picked.1
    let s := picked.2
    if src < SLAB_GLOBAL_PAGE_POOL ∨ src > s.power_largest ∨ dst < SLAB_GLOBAL_PAGE_POOL ∨ dst > s.power_largest then
      (.REASSIGN_BADCLASS, s)
    else if (s.slabclass src.toNat).slabs < 2 then (.REASSIGN_NOSPARE, s)
    else (.REASSIGN_OK, { s with
      slab_rebal := { s.slab_rebal with s_clsid := src.toNat, d_clsid := dst.toNat }
      slab_rebalance_signal := 1 })

/-- `slab_rebalance_start`, and what the thread does with a negative result. -/
def slab_rebalance_start (s : Slabs) (realloc_ok : Bool) : Slabs :=
  let r := s.slab_rebal
  let bad := r.s_clsid > s.power_largest ∨ r.d_clsid > s.power_largest ∨ r.s_clsid = r.d_clsid
  let grown := s.grow_slab_list r.d_clsid realloc_ok
  let s := grown.2
  let s_cls := s.slabclass r.s_clsid
  if bad ∨ grown.1 = false ∨ s_cls.slabs < 2 then { s with slab_rebalance_signal := 0 }
  else { s with
    slab_rebal := { r with
      slab_start := s_cls.slab_list.getD 0 none
      slab_pos := 0
      -- there are no chunks to move out of a page of the pool
      done := if r.s_clsid = SLAB_GLOBAL_PAGE_POOL then 1 else 0 }
    slab_rebalance_signal := 2 }

/-- What one round of `slab_rebalance_move` did to the chunk at `slab_pos`. -/
inductive Piece
  /-- It was cleared already. -/
  | pass
  /-- It was free and is cut off the free list. -/
  | from_slab
  /-- It was copied to a free chunk, after `inline_reclaim` chunks of the page itself were pulled and cleared. -/
  | rescued (inline_reclaim requested_adjust : Nat)
  /-- It was expired, or there was no chunk to copy it to: unlinked and freed. -/
  | dropped (it : FreedItem) (ntotal : Nat)
  /-- It was in use, or its lock was taken. -/
  | busy

def move_piece (s : Slabs) : Piece → Slabs
  | .pass => s
  | .from_slab =>
      let p := s.slabclass s.slab_rebal.s_clsid
      s.setClass s.slab_rebal.s_clsid { p with sl_curr := p.sl_curr - 1 }
  | .rescued inline_reclaim requested_adjust =>
      let p := s.slabclass s.slab_rebal.s_clsid
      s.setClass s.slab_rebal.s_clsid { p with
        sl_curr := p.sl_curr - (inline_reclaim + 1)
        requested := p.requested - UInt64.ofNat requested_adjust }
  | .dropped it ntotal =>
      let s := s.do_slabs_free it ntotal s.slab_rebal.s_clsid
      { s with slab_rebal := { s.slab_rebal with busy_items := s.slab_rebal.busy_items + 1 } }
  | .busy => { s with slab_rebal := { s.slab_rebal with busy_items := s.slab_rebal.busy_items + 1 } }

/-- The rounds of `slab_rebalance_move`: at most `slab_bulk_check` of them, and none past the end of the page. -/
def move_loop : List Piece → Slabs → Slabs
  | [], s => s
  | piece :: pieces, s =>
      let s := s.move_piece piece
      let s := { s with slab_rebal := { s.slab_rebal with slab_pos := s.slab_rebal.slab_pos + 1 } }
      if s.slab_rebal.slab_pos ≥ (s.slabclass s.slab_rebal.s_clsid).perslab then s else move_loop pieces s

def slab_rebalance_move (s : Slabs) (pieces : List Piece) : Slabs :=
  let s := move_loop pieces s
  let r := s.slab_rebal
  if r.slab_pos ≥ (s.slabclass r.s_clsid).perslab then
    if r.busy_items ≠ 0 then
      { s with slab_rebal := { r with slab_pos := 0, busy_items := 0, busy_loops := r.busy_loops + 1 } }
    else { s with slab_rebal := { r with done := r.done + 1 } }
  else s

/-- `for (x = 0; x < n; x++) slab_list[x] = slab_list[x+1]`, from `x` on. -/
def shift_list (l : List (Option Page)) (x : Nat) : Nat → List (Option Page)
  | 0 => l
  | n + 1 => shift_list (l.set x (l.getD (x + 1) none)) (x + 1) n

def slab_rebalance_finish (s : Slabs) : Slabs :=
  let r := s.slab_rebal
  let s_cls := s.slabclass r.s_clsid
  let slabs := decr s_cls.slabs
  let s := s.setClass r.s_clsid { s_cls with slabs := slabs, slab_list := shift_list s_cls.slab_list 0 slabs }
  let s := s.append_page r.d_clsid r.slab_start
  let s := if r.d_clsid > SLAB_GLOBAL_PAGE_POOL then s.split_slab_page_into_freelist r.d_clsid
    else memory_release { s with mem_limit_reached := false }
  { s with
    slab_rebal := {
      slab_start := none, slab_pos := 0, s_clsid := 0, d_clsid := 0
      busy_items := r.busy_items, busy_loops := 0, done := 0 }
    slab_rebalance_signal := 0 }

/-! ## The system -/

/-- `slabs_init`: no class owns a page. `mem_malloced` starts at `T_MEMD_INITIAL_MALLOC`, and with `-L` one
block of `limit` bytes at `base` is set aside. -/
def slabs_init (settings : SlabSettings) (table : ClassTable) (limit initial_malloc : Nat) (base : Option Nat) :
    Slabs where
  settings := settings
  slabclass i := { size := table.size i, perslab := table.perslab i, sl_curr := 0, slabs := 0, slab_list := [],
                   list_size := 0, requested := 0 }
  mem_limit := limit
  mem_malloced := initial_malloc
  mem_limit_reached := false
  power_largest := table.power_largest
  mem_base := base
  mem_current := base.getD 0
  mem_avail := if base.isSome then limit else 0
  slab_rebal := { slab_start := none, slab_pos := 0, s_clsid := 0, d_clsid := 0, busy_items := 0,
                  busy_loops := 0, done := 0 }
  slab_rebalance_signal := 0
  pick_cur := POWER_SMALLEST - 1
  obtained := []
  freed := []
  wild := false

/-- One section under `slabs_lock`. -/
inductive Op
  | slabs_prefill_global (envs : List MallocEnv)
  | do_slabs_newslab (id : Nat) (env : MallocEnv)
  | slabs_alloc (size id flags : Nat) (env : MallocEnv)
  | slabs_free (it : FreedItem) (size id : Nat)
  | slabs_adjust_mem_limit (new_mem_limit : Nat)
  | slabs_reassign (src dst : Int)
  | slab_rebalance_start (realloc_ok : Bool)
  | slab_rebalance_move (pieces : List Piece)
  | slab_rebalance_finish

def exec (s : Slabs) : Op → Slabs
  | .slabs_prefill_global envs => s.slabs_prefill_global envs
  | .do_slabs_newslab id env => (s.do_slabs_newslab id env).2
  | .slabs_alloc size id flags env => (s.do_slabs_alloc size id flags env).2.2
  | .slabs_free it size id => s.do_slabs_free it size id
  | .slabs_adjust_mem_limit n => (s.do_slabs_adjust_mem_limit n).2
  | .slabs_reassign src dst => (s.do_slabs_reassign src dst).2
  | .slab_rebalance_start ok => s.slab_rebalance_start ok
  | .slab_rebalance_move pieces => s.slab_rebalance_move pieces
  | .slab_rebalance_finish => s.slab_rebalance_finish

/-- The page at `p` is in use: it was returned more often than it was freed. -/
def Live (s : Slabs) (p : Page) : Prop :=
  (s.freed.map Prod.fst).count p < (s.obtained.map Prod.fst).count p

instance (s : Slabs) (p : Page) : Decidable (s.Live p) := inferInstanceAs (Decidable (_ < _))

/-- `malloc` returns no memory that is in use. -/
def MallocEnv.Fresh (env : MallocEnv) (s : Slabs) : Prop := ∀ p, env.malloc = some p → ¬ s.Live p

instance (env : MallocEnv) (s : Slabs) : Decidable (env.Fresh s) :=
  match h : env.malloc with
  | none => isTrue fun p hp => nomatch h.symm.trans hp
  | some p => decidable_of_iff (¬ s.Live p) ⟨fun hl q hq => by cases h.symm.trans hq; exact hl, fun hf => hf p h⟩

/-- When a section may run. The rebalance thread starts on signal 1, moves while the signal is 2, and finishes
as soon as `done` is set; `slabs_prefill_global` is called during start-up only, and its list of answers is long
enough for every round of the loop. -/
def Enabled (s : Slabs) : Op → Prop
  | .slabs_prefill_global envs =>
      s.slab_rebalance_signal = 0 ∧ s.slab_rebal.slab_start = none ∧ (∀ env ∈ envs, env.Fresh s) ∧
        (envs.filterMap MallocEnv.malloc).Nodup ∧
        s.mem_limit ≤ s.mem_malloced + envs.length * s.settings.slab_page_size
  | .do_slabs_newslab id env => POWER_SMALLEST ≤ id ∧ id ≤ s.power_largest ∧ env.Fresh s
  | .slabs_alloc _ _ _ env => env.Fresh s
  | .slab_rebalance_start _ => s.slab_rebalance_signal = 1
  | .slab_rebalance_move _ => s.slab_rebalance_signal = 2 ∧ s.slab_rebal.slab_start ≠ none ∧ s.slab_rebal.done = 0
  | .slab_rebalance_finish => s.slab_rebal.done ≠ 0
  | _ => True

instance (s : Slabs) : ∀ op, Decidable (s.Enabled op)
  | .slabs_prefill_global _ => inferInstanceAs (Decidable (_ ∧ _ ∧ (∀ _ ∈ _, _) ∧ _ ∧ _))
  | .do_slabs_newslab _ _ => inferInstanceAs (Decidable (_ ∧ _ ∧ _))
  | .slabs_alloc _ _ _ env => inferInstanceAs (Decidable (env.Fresh s))
  | .slab_rebalance_start _ => inferInstanceAs (Decidable (_ = _))
  | .slab_rebalance_move _ => inferInstanceAs (Decidable (_ ∧ _ ∧ _))
  | .slab_rebalance_finish => inferInstanceAs (Decidable (_ ≠ _))
  | .slabs_free _ _ _ | .slabs_adjust_mem_limit _ | .slabs_reassign _ _ => isTrue trivial

/-- One section of one thread. -/
def Step (s : Slabs) (op : Op) (s' : Slabs) : Prop := s.Enabled op ∧ s' = s.exec op

end Slabs

end Memcached.MemoryLru

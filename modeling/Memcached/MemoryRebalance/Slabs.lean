import Memcached.MemoryLru.Mover

/-!
# The slab allocator of memory_rebalance/slabs.c

This file of the source is memory_lru/slabs.c over again, but for comments, casts and the places modelled here. What
`do_slabs_newslab` calls is the same in both. The guard at the memory limit asks whether the class has a page and has
none; in memory_lru the second question is put to the global pool. And `slab_rebalance_move` asks the right field for
`ITEM_LINKED`, but nothing is assigned to its `s_cls`.
-/

namespace Memcached.MemoryRebalance

open MemoryLru MemoryLru.Slabs

def do_slabs_newslab (s : Slabs) (id : Nat) (env : MallocEnv) : Bool × Slabs :=
  let p := s.slabclass id
  let len := s.page_len id
  if s.mem_limit ≠ 0 ∧ s.mem_malloced + len > s.mem_limit ∧ p.slabs > 0 ∧ p.slabs = 0 then
    (false, { s with mem_limit_reached := true })
  else match s.grow_slab_list id env.realloc_ok with
    | (false, s) => (false, s)
    | (true, s) =>
        match s.get_page_from_global_pool with
        | (some ptr, s) => (true, (s.split_slab_page_into_freelist id).append_page id (some ptr))
        | (none, s) =>
            match s.memory_allocate len env.malloc with
            | (none, s) => (false, s)
            | (some ptr, s) => (true, (s.split_slab_page_into_freelist id).append_page id (some ptr))

/-- `do_slabs_alloc` returns a chunk off the free list, if there is one. -/
def take_chunk (s : Slabs) (size id : Nat) : Slabs :=
  let p := s.slabclass id
  if p.sl_curr ≠ 0 then
    s.setClass id { p with sl_curr := p.sl_curr - 1, requested := p.requested + UInt64.ofNat size }
  else s

def do_slabs_alloc (s : Slabs) (size id flags : Nat) (env : MallocEnv) : Slabs :=
  if id < POWER_SMALLEST ∨ id > s.power_largest then s
  else if (s.slabclass id).sl_curr = 0 ∧ flags ≠ SLABS_ALLOC_NO_NEWPAGE then
    take_chunk (do_slabs_newslab s id env).2 size id
  else take_chunk s size id

/-! ## Runs of allocations -/

/-- What the allocator is asked for; `slabs_preallocate` calls `do_slabs_newslab` itself. -/
inductive Op
  | do_slabs_newslab (id : Nat) (env : MallocEnv)
  | slabs_alloc (size id flags : Nat) (env : MallocEnv)
  | slabs_free (it : FreedItem) (size id : Nat)

def exec (s : Slabs) : Op → Slabs
  | .do_slabs_newslab id env => (do_slabs_newslab s id env).2
  | .slabs_alloc size id flags env => do_slabs_alloc s size id flags env
  | .slabs_free it size id => s.do_slabs_free it size id

/-- `malloc` succeeds, and classes are those of `slabs_init`. -/
def Enabled (s : Slabs) : Op → Prop
  | .do_slabs_newslab id env => POWER_SMALLEST ≤ id ∧ id ≤ s.power_largest ∧ env.malloc ≠ none
  | .slabs_alloc _ _ _ env => env.malloc ≠ none
  | .slabs_free _ _ _ => True

instance (s : Slabs) : ∀ op, Decidable (Enabled s op)
  | .do_slabs_newslab _ _ => inferInstanceAs (Decidable (_ ∧ _ ∧ _))
  | .slabs_alloc _ _ _ env => inferInstanceAs (Decidable (env.malloc ≠ none))
  | .slabs_free _ _ _ => isTrue trivial

def Step (s : Slabs) (op : Op) (s' : Slabs) : Prop := Enabled s op ∧ s' = exec s op

/-- The call of `do_slabs_newslab` that is made, if one is. -/
def newslab_call (s : Slabs) : Op → Option (Nat × MallocEnv)
  | .do_slabs_newslab id env => some (id, env)
  | .slabs_alloc _ id flags env =>
      if POWER_SMALLEST ≤ id ∧ id ≤ s.power_largest ∧ (s.slabclass id).sl_curr = 0 ∧ flags ≠ SLABS_ALLOC_NO_NEWPAGE then
        some (id, env)
      else none
  | .slabs_free _ _ _ => none

/-- A page for class `id` can be had: its list has a place or can grow, and the block of `-L` has the bytes left. -/
def can_get (s : Slabs) (id : Nat) (env : MallocEnv) : Prop :=
  ((s.slabclass id).slabs ≠ (s.slabclass id).list_size ∨ env.realloc_ok = true) ∧
    (s.mem_base = none ∨ s.page_len id ≤ s.mem_avail)

instance (s : Slabs) (id : Nat) (env : MallocEnv) : Decidable (can_get s id env) := inferInstanceAs (Decidable (_ ∧ _))

/-- What `memory_allocate` adds to `mem_malloced` for `len` bytes: in the block of `-L`, as many as keep it aligned. -/
def counted (s : Slabs) (len : Nat) : Nat :=
  if s.mem_base = none ∨ len % CHUNK_ALIGN_BYTES = 0 then len else len + (CHUNK_ALIGN_BYTES - len % CHUNK_ALIGN_BYTES)

/-- What a new page of class `id` costs. -/
def page_cost (s : Slabs) (id : Nat) : Nat := counted s (s.page_len id)

/-! ## The page mover -/

/-- The class that `s_cls` points to is whatever it happens to be; where that is no class, the memory there is read as one. -/
def move_copy (s_cls : Nat) : MoveCopy where
  linked m it := (m.store.heap (.item it)).it_flags.linked
  s_cls _ := s_cls

def slab_rebalance_move (cfg : Config) (s_cls : Nat) (m : Memory) (locks : List Bool) :
    List Visit × Option (Memory × Nat) :=
  m.move cfg (move_copy s_cls) locks

end Memcached.MemoryRebalance

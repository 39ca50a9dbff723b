import Mathlib.Algebra.Order.Ring.Int
import Memcached.MemoryLru.Automove

/-!
# The page mover for external storage

slab_automove_extstore.c is in exstore, in memory_lru and in memory_rebalance; the last copy does not look whether a class
got pages. What is computed with floating point is a parameter.
-/

namespace Memcached.MemoryLru

open Function (update)

def MEMCHECK_PERIOD : UInt32 := 60

/-- `struct window_data`. -/
structure ExtWindowData where
  age : Nat
  dirty : Nat
  evicted : Nat
  excess_free : Nat
  relaxed : Nat
  deriving DecidableEq

structure WindowGlobal where
  pool_low : Nat
  pool_high : Nat
  deriving DecidableEq

/-- `free_ratio n` is `n` times the ratio of free memory, as an `unsigned int`. `violates youngest_age oldest_age` is the
test of the age ratio. -/
structure MoverRatios where
  free_ratio : Nat → UInt32
  violates : Nat → Nat → Bool

/-- `slab_automove`, and what it changes of the settings. -/
structure ExtMover where
  window_data : Nat → Nat → ExtWindowData
  window_global : Nat → WindowGlobal
  window_size : UInt32
  window_cur : UInt32
  item_size : UInt32
  last_memcheck_run : UInt32
  ratios : MoverRatios
  pool_filled_once : Bool
  free_mem : Nat → UInt32
  ext_free_memchunks : Nat → UInt32
  before : AutomoveStats

/-- What a run reads: the statistics, the time, and the global page pool. -/
structure MoverInput where
  after : AutomoveStats
  current_time : UInt32
  pool_size : UInt32
  mem_limit_reached : Bool

def slab_automove_extstore_init (window_size item_size : UInt32) (ratios : MoverRatios)
    (ext_free_memchunks : Nat → UInt32) (before : AutomoveStats) : ExtMover where
  window_data := fun _ _ => ⟨0, 0, 0, 0, 0⟩
  window_global := fun _ => ⟨0, 0⟩
  window_size := window_size
  window_cur := 0
  item_size := item_size
  last_memcheck_run := 0
  ratios := ratios
  pool_filled_once := false
  free_mem := fun _ => 0
  ext_free_memchunks := ext_free_memchunks
  before := before

/-- `window_sum`. -/
def ext_window_sum (wd : Nat → ExtWindowData) (size : Nat) : ExtWindowData where
  age := ((List.range size).map fun x => (wd x).age).sum
  dirty := ((List.range size).map fun x => (wd x).dirty).sum
  evicted := ((List.range size).map fun x => (wd x).evicted).sum
  excess_free := ((List.range size).map fun x => (wd x).excess_free).sum
  relaxed := ((List.range size).map fun x => (wd x).relaxed).sum

def window_global_sum (wg : Nat → WindowGlobal) (size : Nat) : WindowGlobal where
  pool_low := ((List.range size).map fun x => (wg x).pool_low).sum
  pool_high := ((List.range size).map fun x => (wg x).pool_high).sum

/-- What the loop over the classes has found. `donor` is what the rule about free chunks has made of `*src`; with one,
`*dst` is 0 and `too_free` true. -/
structure ExtSearch where
  window_data : Nat → Nat → ExtWindowData
  oldest : Option Nat
  oldest_age : Nat
  youngest : Option Nat
  youngest_age : Nat
  donor : Option Nat

/-- The answer of a run, with the class that the rule about free chunks proposed. -/
structure ExtMove where
  src : Int
  dst : Int
  donor : Option Nat
  deriving DecidableEq

namespace ExtMover

variable (a : ExtMover) (i : MoverInput)

def slot : Nat := a.window_cur.toNat % a.window_size.toNat

def global_pool_check : ExtMover :=
  let free := a.free_mem 0
  let a := { a with window_global := update a.window_global a.slot ⟨0, 0⟩ }
  if i.mem_limit_reached = false then a
  else if i.pool_size < free / 2 then
    { a with window_global := update a.window_global a.slot ⟨1, 0⟩, pool_filled_once := true }
  else if i.pool_size > free then { a with window_global := update a.window_global a.slot ⟨0, 1⟩ }
  else { a with pool_filled_once := true }

/-- `hold_free` of a class: at least one and a half pages. -/
def hold_free (sam : SlabStatsAutomove) : UInt32 :=
  let hold_free := a.ratios.free_ratio (sam.total_pages * sam.chunks_per_page.toNat)
  if 3 * sam.chunks_per_page.toNat > 2 * hold_free.toNat then .ofNat (3 * sam.chunks_per_page.toNat / 2) else hold_free

def memcheck : ExtMover :=
  if i.current_time < a.last_memcheck_run + MEMCHECK_PERIOD then a
  else
    let total_pages := ((List.range MAX_NUMBER_OF_SLAB_CLASSES).map fun n => (i.after.sam n).total_pages).sum % 2 ^ 32
    { a with
      last_memcheck_run := i.current_time
      free_mem := fun n =>
        if n = 0 then a.ratios.free_ratio total_pages
        else if n < MAX_NUMBER_OF_SLAB_CLASSES then a.hold_free (i.after.sam n)
        else a.free_mem n
      ext_free_memchunks := fun n =>
        if 0 < n ∧ n < MAX_NUMBER_OF_SLAB_CLASSES ∧ a.ext_free_memchunks n ≠ a.hold_free (i.after.sam n) ∧ a.pool_filled_once then
          a.hold_free (i.after.sam n)
        else a.ext_free_memchunks n }

/-! ## A class -/

variable (after : AutomoveStats) (n : Nat)

def small_slab : Bool := (a.before.sam n).chunk_size < a.item_size

/-- The sum over the slots of a class, before that of this run is cleared. -/
def w_sum : ExtWindowData := ext_window_sum (a.window_data n) a.window_size.toNat

def age : Nat := (a.w_sum n).age / a.window_size.toNat

def free_enough : Bool := (after.sam n).free_chunks > (a.free_mem n).toNat

/-- What is written into the slot of this run. -/
def mark (page_delta : Bool) : ExtWindowData where
  age := (after.iam n).age.toNat
  dirty := if a.before.evicting after n ∨ page_delta ∧ a.before.growing after n then 1 else 0
  evicted := if a.before.evicting after n then 1 else 0
  excess_free := if (after.sam n).free_chunks > (a.free_mem n * 2).toNat ∧ a.free_mem n > 0 then 1 else 0
  relaxed := 0

/-- The rule about free chunks. -/
def reclaims : Bool :=
  after.many_free n ∧ (a.w_sum n).dirty = 0 ∧ (a.small_slab n ∨ (a.w_sum n).excess_free ≥ a.window_size.toNat)

def visit (page_delta : Bool) (s : ExtSearch) (n : Nat) : ExtSearch :=
  let s := { s with window_data := update s.window_data n (update (a.window_data n) a.slot (a.mark after n page_delta)) }
  let s := if a.reclaims after n then { s with donor := some n } else s
  if a.small_slab n then s
  else
    let s :=
      if a.age n > s.oldest_age ∧ (after.sam n).total_pages > MIN_PAGES_FOR_SOURCE then
        { s with oldest := some n, oldest_age := a.age n }
      else s
    if a.age n < s.youngest_age ∧ (after.sam n).total_pages ≠ 0 ∧ (a.w_sum n).excess_free < a.window_size.toNat ∧
        ¬ ((a.w_sum n).relaxed ≠ 0 ∧ a.free_enough after n) then
      { s with youngest := some n, youngest_age := a.age n }
    else s

/-- The loop over the classes. -/
def search (page_delta : Bool) : ExtSearch :=
  (List.range' POWER_SMALLEST (MAX_NUMBER_OF_SLAB_CLASSES - POWER_SMALLEST)).foldl (a.visit after page_delta)
    ⟨a.window_data, none, 0, none, 2 ^ 64 - 1, none⟩

/-! ## The run -/

/-- `relaxed` is set in the slot of this run. -/
def relax (youngest : Nat) : ExtMover :=
  { a with
    window_data := update a.window_data youngest
      (update (a.window_data youngest) a.slot { a.window_data youngest a.slot with relaxed := 1 }) }

/-- The answer of the rule about free chunks. -/
def donate (donor : Option Nat) : ExtMove :=
  match donor with
  | some n => ⟨n, 0, some n⟩
  | none => ⟨-1, -1, none⟩

/-- A page of the pool is for the youngest class, if it has used up what it has. -/
def feed (s : ExtSearch) : ExtMover × ExtMove :=
  let youngest := s.youngest.getD 0
  (a.relax youngest,
    if (after.sam youngest).free_chunks ≤ (a.free_mem youngest).toNat then ⟨0, youngest, s.donor⟩ else donate s.donor)

/-- The decisions after the loop. -/
def decide_move (wg_sum : WindowGlobal) (s : ExtSearch) : ExtMover × ExtMove :=
  if a.window_cur < a.window_size then (a, donate s.donor)
  else if wg_sum.pool_high ≥ a.window_size.toNat ∧ wg_sum.pool_low = 0 ∧ s.youngest ≠ none then a.feed after s
  else if s.donor = none ∧ wg_sum.pool_low ≠ 0 ∧ s.oldest ≠ none then (a, ⟨s.oldest.getD 0, 0, s.donor⟩)
  else if s.donor = none ∧ s.youngest ≠ none ∧ s.oldest ≠ none ∧ s.youngest ≠ s.oldest ∧
      a.ratios.violates s.youngest_age s.oldest_age then
    a.feed after s
  else (a, donate s.donor)

/-- The run is undefined without slots, and where a `w_offset`, which is an `int`, overflows. -/
def run (page_delta : Bool) : Option (ExtMover × ExtMove) :=
  if a.window_size = 0 ∨ (MAX_NUMBER_OF_SLAB_CLASSES - 1) * a.window_size.toNat ≥ 2 ^ 31 then none
  else
    let a := a.global_pool_check i
    let wg_sum := window_global_sum a.window_global a.window_size.toNat
    let a := { a with window_cur := a.window_cur + 1 }.memcheck i
    let s := a.search i.after page_delta
    some ({ a with window_data := s.window_data, before := i.after }.decide_move i.after wg_sum s)

end ExtMover

/-! ## The three copies -/

def slab_automove_extstore_run (a : ExtMover) (i : MoverInput) : Option (ExtMover × ExtMove) := a.run i true

end Memcached.MemoryLru

namespace Memcached.Exstore

def slab_automove_extstore_run (a : MemoryLru.ExtMover) (i : MemoryLru.MoverInput) :
    Option (MemoryLru.ExtMover × MemoryLru.ExtMove) :=
  a.run i true

end Memcached.Exstore

namespace Memcached.MemoryRebalance

def slab_automove_extstore_run (a : MemoryLru.ExtMover) (i : MemoryLru.MoverInput) :
    Option (MemoryLru.ExtMover × MemoryLru.ExtMove) :=
  a.run i false

end Memcached.MemoryRebalance

import Mathlib.Algebra.Order.Ring.Int
import Mathlib.Algebra.Order.Ring.Rat
import Mathlib.Logic.Function.Basic
import Memcached.MemoryLru.Slabs

/-!
# The page mover: memory_lru/slab_automove.c

Statistics are numbers that are not negative, so that their differences do not overflow. Ages have 32 bits, and their sums
do not overflow either.
-/

namespace Memcached.MemoryLru

open Function (update)

def MIN_PAGES_FOR_SOURCE : Nat := 2

structure ItemStatsAutomove where
  evicted : Nat
  outofmemory : Nat
  age : UInt32

structure SlabStatsAutomove where
  chunks_per_page : UInt32
  chunk_size : UInt32
  free_chunks : Nat
  total_pages : Nat

/-- What `fill_item_stats_automove` and `fill_slab_stats_automove` find. -/
structure AutomoveStats where
  iam : Nat → ItemStatsAutomove
  sam : Nat → SlabStatsAutomove

structure WindowData where
  age : Nat
  dirty : Nat
  evicted : Nat
  deriving DecidableEq

def WindowData.zero : WindowData := ⟨0, 0, 0⟩

namespace AutomoveStats

variable (before after : AutomoveStats) (n : Nat)

/-- There are evictions, or allocations that failed. -/
def evicting : Bool :=
  ((after.iam n).evicted - (before.iam n).evicted : Int) > 0 ∨
    ((after.iam n).outofmemory - (before.iam n).outofmemory : Int) > 0

/-- There are pages that the class did not have. -/
def growing : Bool := ((after.sam n).total_pages - (before.sam n).total_pages : Int) > 0

/-- What is written into the slot of a class. -/
def mark : WindowData where
  age := (after.iam n).age.toNat
  dirty := if before.evicting after n ∨ before.growing after n then 1 else 0
  evicted := if before.evicting after n then 1 else 0

/-- There are more free chunks than `MIN_PAGES_FOR_RECLAIM` pages have. -/
def many_free : Bool := 2 * (after.sam n).free_chunks > 5 * (after.sam n).chunks_per_page.toNat

end AutomoveStats

/-- `slab_automove`. `window_data` has the slots of each class. -/
structure SlabAutomove where
  window_data : Nat → Nat → WindowData
  window_size : UInt32
  window_cur : UInt32
  max_age_ratio : ℚ
  before : AutomoveStats

def slab_automove_init (window_size : UInt32) (max_age_ratio : ℚ) (before : AutomoveStats) : SlabAutomove where
  window_data := fun _ _ => .zero
  window_size := window_size
  window_cur := 0
  max_age_ratio := max_age_ratio
  before := before

def window_sum (wd : Nat → WindowData) (size : Nat) : WindowData where
  age := ((List.range size).map fun x => (wd x).age).sum
  dirty := ((List.range size).map fun x => (wd x).dirty).sum
  evicted := ((List.range size).map fun x => (wd x).evicted).sum

/-- What a run of the loop over the classes has found. `reclaim` is the class at which it stopped. -/
structure Search where
  window_data : Nat → Nat → WindowData
  oldest : Option Nat
  oldest_age : Nat
  youngest : Option Nat
  youngest_age : Nat
  youngest_evicting : Bool
  reclaim : Option Nat

namespace SlabAutomove

variable (a : SlabAutomove) (after : AutomoveStats)

/-- The slot of this run. -/
def slot : Nat := a.window_cur.toNat % a.window_size.toNat

/-- The sum over the slots of a class, with that of this run cleared. -/
def w_sum (n : Nat) : WindowData := window_sum (update (a.window_data n) a.slot .zero) a.window_size.toNat

/-- The average of the window. -/
def age (n : Nat) : Nat := (a.w_sum n).age / a.window_size.toNat

/-- A page of the class is for the global pool. -/
def reclaims (n : Nat) : Bool := after.many_free n ∧ (a.w_sum n).dirty = 0

/-- The slot of this run is written. -/
def set_window (n : Nat) (s : Search) : Search :=
  { s with window_data := update s.window_data n (update (a.window_data n) a.slot (a.before.mark after n)) }

/-- The class may be the oldest or the youngest so far. -/
def compare_age (n : Nat) (s : Search) : Search :=
  let s :=
    if a.age n > s.oldest_age ∧ (after.sam n).total_pages > MIN_PAGES_FOR_SOURCE then
      { s with oldest := some n, oldest_age := a.age n }
    else s
  if a.age n < s.youngest_age ∧ (a.w_sum n).evicted > a.window_size.toNat / 2 then
    { s with youngest := some n, youngest_age := a.age n, youngest_evicting := (a.before.mark after n).evicted ≠ 0 }
  else s

/-- The loop over the classes; each is visited once. -/
def search : List Nat → Search → Search
  | [], s => s
  | n :: ns, s =>
      let s := a.set_window after n s
      if a.reclaims after n then { s with reclaim := some n } else search ns (a.compare_age after n s)

/-- `*src` and `*dst`. -/
def move (s : Search) : Int × Int :=
  let reclaim : Int × Int :=
    match s.reclaim with
    | some n => (n, 0)
    | none => (-1, -1)
  match s.youngest, s.oldest with
  | some youngest, some oldest =>
      if a.window_cur > a.window_size ∧ s.youngest_age < s.oldest_age * a.max_age_ratio ∧ s.youngest_evicting then
        (oldest, youngest)
      else reclaim
  | _, _ => reclaim

end SlabAutomove

/-- The run is undefined without slots, and where a `w_offset`, which is an `int`, overflows. -/
def slab_automove_run (a : SlabAutomove) (after : AutomoveStats) : Option (SlabAutomove × Int × Int) :=
  if a.window_size = 0 ∨ (MAX_NUMBER_OF_SLAB_CLASSES - 1) * a.window_size.toNat ≥ 2 ^ 31 then none
  else
    let a := { a with window_cur := a.window_cur + 1 }
    let s := a.search after (List.range' POWER_SMALLEST (MAX_NUMBER_OF_SLAB_CLASSES - POWER_SMALLEST))
      ⟨a.window_data, none, 0, none, 2 ^ 64 - 1, false, none⟩
    some ({ a with window_data := s.window_data, before := after }, a.move s)

end Memcached.MemoryLru

import Mathlib.Data.Rat.Floor
import Memcached.MemoryLru.Slabs

/-!
# The slab classes of memory_lru/slabs.c

`slabs_init` computes the sizes of the classes, each the last times the growth factor, and `slabs_clsid` looks for the class
of an item. The factor is a rational number, and a product is exact before it is truncated.
-/

namespace Memcached.MemoryLru

/-- The settings that decide on the classes. -/
structure ClassSettings where
  chunk_size : Int
  slab_chunk_size_max : Nat
  slab_page_size : Nat
  item_size_max : Nat
  factor : ℚ
  deriving DecidableEq

/-- `size` and `perslab` of `slabclass`. -/
structure SlabClasses where
  power_largest : Nat
  size : Nat → Nat
  perslab : Nat → Nat

namespace ClassSettings

variable (settings : ClassSettings)

/-- `size` as `slabs_init` begins, an `unsigned int`. -/
def first_size : Nat := ((sizeof_item + settings.chunk_size) % 2 ^ 32).toNat

/-- Items are always n-byte aligned. -/
def align (size : Nat) : Nat :=
  if size % CHUNK_ALIGN_BYTES ≠ 0 then size + (CHUNK_ALIGN_BYTES - size % CHUNK_ALIGN_BYTES) else size

/-- The loop of `slabs_init`, without `slab_sizes`: the sizes of `n` more classes at most. There is none where it divides by
zero, or a product is too large for an `unsigned int`. -/
def classes : Nat → Nat → Option (List Nat)
  | 0, _ => some []
  | n + 1, size =>
      if size ≥ settings.slab_chunk_size_max / settings.factor then some []
      else
        let size := align size
        if size = 0 ∨ size * settings.factor ≥ 2 ^ 32 then none
        else (classes n ⌊size * settings.factor⌋₊).map fun sizes => size :: sizes

def slabs_init : Option SlabClasses :=
  if settings.slab_chunk_size_max = 0 then none
  else (settings.classes (MAX_NUMBER_OF_SLAB_CLASSES - 1 - POWER_SMALLEST) settings.first_size).map fun sizes =>
    let size (i : Nat) := (0 :: sizes ++ [settings.slab_chunk_size_max]).getD i 0
    { power_largest := sizes.length + 1
      size := size
      perslab := fun i => settings.slab_page_size / size i }

/-- The loop of `slabs_clsid`, for `n` more rounds at most. -/
def search (t : SlabClasses) (size : Nat) : Nat → Nat → Nat
  | 0, _ => t.power_largest
  | n + 1, res =>
      if size > t.size res then
        if res = t.power_largest then t.power_largest else search t size n (res + 1)
      else res

def slabs_clsid (t : SlabClasses) (size : Nat) : Nat :=
  if size = 0 ∨ size > settings.item_size_max then 0 else search t size t.power_largest POWER_SMALLEST

end ClassSettings

end Memcached.MemoryLru

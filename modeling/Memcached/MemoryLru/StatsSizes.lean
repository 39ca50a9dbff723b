import Memcached.Lib.Run
import Memcached.MemoryLru.Bipbuf
import Memcached.MemoryLru.Chunks

/-!
# The size histogram: `item_stats_sizes_*` of memory_lru/items.c

What links and unlinks items tells the histogram of it; so do `do_item_link` and `do_item_unlink`, the arithmetic of
slabs_curd/memcached.c that changes an item in place, the move of an item to external storage in exstore/storage.c, and
that to another page in memory_lru/slabs.c. A function returns `none` where an assertion of the code fails.
-/

namespace Memcached.MemoryLru

/-- In steps of 32, rounded up. -/
def sizes_bucket (ntotal : Int) : Int := if ntotal.tmod 32 ≠ 0 then ntotal.tdiv 32 + 1 else ntotal.tdiv 32

/-- The bucket of an item, whose `ntotal` is an `int` here. -/
def Item.sizes_bucket (it : Item) : Int := MemoryLru.sizes_bucket (int32 it.ntotal.toNat)

structure SizesSettings extends Settings where
  item_size_max : Int

/-- The items, and the histogram. -/
structure SizesStore where
  store : Store
  stats_sizes_hist : Option (Int → UInt32)
  stats_sizes_cas_min : UInt64
  stats_sizes_buckets : Int

namespace SizesStore

def empty : SizesStore := ⟨.empty, none, 0, 0⟩

def with_store (t : SizesStore) (s : Store) : SizesStore := { t with store := s }

/-! ## The histogram -/

/-- What `item_stats_sizes_add` and `item_stats_sizes_remove` have in common. -/
def item_stats_sizes_count (t : SizesStore) (it : Item) (count : UInt32 → UInt32) : SizesStore :=
  match t.stats_sizes_hist with
  | none => t
  | some hist =>
      if t.stats_sizes_cas_min > it.get_cas then t
      else
        let bucket := it.sizes_bucket
        if bucket < t.stats_sizes_buckets then
          { t with stats_sizes_hist := some (Function.update hist bucket (count (hist bucket))) }
        else t

def item_stats_sizes_add (t : SizesStore) (it : Item) : SizesStore := t.item_stats_sizes_count it (· + 1)

def item_stats_sizes_remove (t : SizesStore) (it : Item) : SizesStore := t.item_stats_sizes_count it (· - 1)

/-- `calloc`: there is memory. -/
def item_stats_sizes_init (cfg : SizesSettings) (t : SizesStore) (calloc : Bool) : SizesStore :=
  if t.stats_sizes_hist.isSome then t
  else
    let s := if cfg.use_cas then { t.store with cas_id := t.store.cas_id + 1 } else t.store
    { store := s
      stats_sizes_hist := if calloc then some fun _ => 0 else none
      stats_sizes_cas_min := if cfg.use_cas then s.cas_id else 0
      stats_sizes_buckets := cfg.item_size_max.tdiv 32 + 1 }

/-- With the statistics that it adds. -/
def item_stats_sizes_enable (cfg : SizesSettings) (t : SizesStore) (calloc : Bool) : SizesStore × List (String × String) :=
  if !cfg.use_cas then (t, [("sizes_status", "error"), ("sizes_error", "cas_support_disabled")])
  else if t.stats_sizes_hist.isNone then
    let t := t.item_stats_sizes_init cfg calloc
    if t.stats_sizes_hist.isSome then (t, [("sizes_status", "enabled")])
    else (t, [("sizes_status", "error"), ("sizes_error", "no_memory")])
  else (t, [("sizes_status", "enabled")])

def item_stats_sizes_disable (t : SizesStore) : SizesStore × List (String × String) :=
  ({ t with stats_sizes_hist := none }, [("sizes_status", "disabled")])

/-! ## Items -/

def do_item_link (cfg : SizesSettings) (t : SizesStore) (it : Ptr) : Option SizesStore := do
  let s ← t.store.do_item_link cfg.toSettings it
  some ((t.with_store s).item_stats_sizes_add (s.heap it))

def do_item_unlink (t : SizesStore) (it : Ptr) : Option SizesStore := do
  let i := t.store.heap it
  let s ← t.store.do_item_unlink it
  some (if i.it_flags.linked then (t.with_store s).item_stats_sizes_remove i else t.with_store s)

def do_item_replace (cfg : SizesSettings) (t : SizesStore) (it new_it : Ptr) : Option SizesStore := do
  if (t.store.heap it).it_flags.slabbed then none
  else
    let t ← t.do_item_unlink it
    t.do_item_link cfg new_it

/-- "replace in-place", in `do_add_delta`. -/
def replace_in_place (cfg : SizesSettings) (t : SizesStore) (it : Ptr) : Option SizesStore := do
  let t := t.item_stats_sizes_remove (t.store.heap it)
  let s := if cfg.use_cas then { t.store with cas_id := t.store.cas_id + 1 } else t.store
  let s := s.modify it fun i => i.set_cas (if cfg.use_cas then s.cas_id else 0)
  let t := (t.with_store s).item_stats_sizes_add (s.heap it)
  let s ← t.store.do_item_update cfg.toSettings it
  some (t.with_store s)

/-- In `do_add_delta`, the replacement by an item with the new number. -/
def replace_item (cfg : SizesSettings) (t : SizesStore) (it new_it : Ptr) : Option SizesStore := do
  let t ← t.do_item_replace cfg it new_it
  let new_cas := (t.store.heap new_it).get_cas
  some (t.with_store (t.store.modify it fun i => i.set_cas (if cfg.use_cas then new_cas else 0)))

/-- In `storage_write`, the replacement by a header item. -/
def replace_header (cfg : SizesSettings) (t : SizesStore) (it hdr_it : Ptr) : Option SizesStore := do
  if (t.store.heap it).refcount < 2 then none
  else
    -- overload nbytes for the header it
    let t := t.with_store (t.store.modify hdr_it fun i => { i with nbytes := (t.store.heap it).nbytes })
    let t ← t.do_item_replace cfg it hdr_it
    -- CAS gets set while linking
    some (t.with_store (t.store.modify hdr_it fun i => i.set_cas (t.store.heap it).get_cas))

/-- In `slab_rebalance_move`, the replacement by a copy. -/
def rescue_item (cfg : SizesSettings) (t : SizesStore) (it new_it : Ptr) : Option SizesStore := do
  let i := t.store.heap it
  let t := t.with_store (t.store.modify new_it fun _ =>
    { i with prev := none, next := none, it_flags := { i.it_flags with linked := false }, refcount := 0 })
  let t ← t.do_item_replace cfg it new_it
  some (t.with_store (t.store.modify it fun i => { i with it_flags := .cleared, refcount := 0 }))

end SizesStore

/-! ## Runs -/

/-- What else may happen: nothing is linked or unlinked, and a linked item keeps its size and CAS. -/
structure Store.Quiet (s s' : Store) : Prop where
  linked : ∀ n, (s'.heap (.item n)).it_flags.linked = (s.heap (.item n)).it_flags.linked
  same : ∀ n, (s.heap (.item n)).it_flags.linked →
    (s'.heap (.item n)).ntotal = (s.heap (.item n)).ntotal ∧ (s'.heap (.item n)).get_cas = (s.heap (.item n)).get_cas
  cas_id : s'.cas_id = s.cas_id ∨ s'.cas_id = s.cas_id + 1

inductive SizesEvent
  | link (n : Nat)
  | unlink (n : Nat)
  | replace (n m : Nat)
  | delta (n : Nat)
  | delta_replace (n m : Nat)
  | storage_write (n m : Nat)
  | move (n m : Nat)
  | enable (calloc : Bool)
  | disable
  | rest
  deriving DecidableEq

namespace SizesStore

/-- The items that are changed or moved are linked; those that take their places are not. -/
def Step (cfg : SizesSettings) (t : SizesStore) (e : SizesEvent) (t' : SizesStore) : Prop :=
  let linked (n : Nat) : Bool := (t.store.heap (.item n)).it_flags.linked
  match e with
  | .link n => t.do_item_link cfg (.item n) = some t'
  | .unlink n => t.do_item_unlink (.item n) = some t'
  | .replace n m => t.do_item_replace cfg (.item n) (.item m) = some t'
  | .delta n => linked n ∧ t.replace_in_place cfg (.item n) = some t'
  | .delta_replace n m => linked n ∧ !linked m ∧ t.replace_item cfg (.item n) (.item m) = some t'
  | .storage_write n m => linked n ∧ !linked m ∧ t.replace_header cfg (.item n) (.item m) = some t'
  | .move n m => linked n ∧ !linked m ∧ t.rescue_item cfg (.item n) (.item m) = some t'
  | .enable calloc => t' = (t.item_stats_sizes_enable cfg calloc).1
  | .disable => t' = t.item_stats_sizes_disable.1
  | .rest => t.store.Quiet t'.store ∧ t' = t.with_store t'.store

end SizesStore

end Memcached.MemoryLru

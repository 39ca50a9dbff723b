import Memcached.Lib.Run
import Memcached.MemoryLru.Lemmas.Crawls

/-!
# The LRUs, the hash table and the counters agree

In every state of every run, from the empty cache on.
-/

namespace Memcached.MemoryLru

open Linked Transition

namespace Store

/-- The lists `l` of the LRUs, and what the items and the counters say of them, in the arithmetic of the counters. -/
structure LruConsistent (s : Store) (l : UInt8 → List Ptr) : Prop where
  next : ∀ id, Walk (fun p => (s.heap p).next) (s.heads id) (l id)
  prev : ∀ id, Walk (fun p => (s.heap p).prev) (s.tails id) (l id).reverse
  acyclic : ∀ id, (l id).Nodup
  queued : ∀ n id, .item n ∈ l id ↔ (s.heap (.item n)).it_flags.linked ∧ (s.heap (.item n)).slabs_clsid = id
  hashed : ∀ n, (s.heap (.item n)).it_flags.linked ↔ ∃ k, s.table k = some (.item n)
  keyed : ∀ k p, s.table k = some p → ∃ n, p = .item n ∧ (s.heap p).key = k
  sizes : ∀ id, s.sizes id = .ofNat (items (l id)).length
  sizes_bytes : ∀ id, s.sizes_bytes id = ((items (l id)).map fun p => (s.heap p).accounted).sum
  curr_items : s.curr_items = ∑ id, .ofNat (items (l id)).length
  /-- The `sizes` have 32 bits, their sum has 64. -/
  sum_sizes : (∀ id, (items (l id)).length < 2 ^ 32) → s.curr_items = ∑ id, (s.sizes id).toUInt64
  curr_bytes : s.curr_bytes = ∑ id, ((items (l id)).map fun p => (s.heap p).ntotal).sum

theorem Consistent.lru {s : Store} {l : UInt8 → List Ptr} (hc : Consistent s l) : LruConsistent s l := by
  have hones (xs : List Ptr) : s.bytes (fun _ => 1) xs = .ofNat (items xs).length := by
    simp only [bytes]
    induction items xs with
    | nil => rfl
    | cons p ps ih =>
        rw [List.map_cons, List.sum_cons, ih, List.length_cons, UInt64.ofNat_add, add_comm]
        rfl
  have hcurr : s.curr_items = ∑ id, .ofNat (items (l id)).length := by
    rw [hc.curr_items, total]
    exact Finset.sum_congr rfl fun id _ => hones _
  refine ⟨fun id => (hc.holds id).walk_next, fun id => (hc.holds id).walk_prev, fun id => (hc.holds id).nodup,
    fun n id => (Pull.queued_iff hc).symm, fun n => ?_, fun k p ht => ?_, hc.sizes, hc.sizes_bytes, hcurr, fun hlen => ?_,
    hc.curr_bytes⟩
  · refine ⟨fun hl => ⟨_, ((hc.placed _).table _).mpr ⟨rfl, hl, rfl⟩⟩, fun h => ?_⟩
    obtain ⟨k, ht⟩ := h
    exact (((hc.placed _).table k).mp ht).2.1
  · obtain ⟨hitem, -, hkey⟩ := ((hc.placed p).table k).mp ht
    cases p with
    | item n => exact ⟨n, rfl, hkey⟩
    | crawler i => simp at hitem
  · rw [hcurr]
    refine Finset.sum_congr rfl fun id _ => ?_
    rw [hc.sizes]
    refine UInt64.toNat_inj.mp ?_
    have hid := hlen id
    simp only [UInt64.toNat_ofNat', UInt32.toNat_toUInt64, UInt32.toNat_ofNat']
    omega

variable {cfg : Settings} {s : Store} {es : List Event}

theorem run_sound (h : Run (Step cfg) empty es s) : s.Sound := h.invariant (fun hs hst => hs.step hst) sound_empty

/-- The queues, the links, the hash table and the counters agree in every reachable state. -/
theorem lru_consistent (h : Run (Step cfg) empty es s) : ∃ l, LruConsistent s l := by
  obtain ⟨l, hc⟩ := run_sound h
  exact ⟨l, hc.lru⟩

/-- The settings of a segmented cache. -/
def settings : Settings where
  lru_segmented := true
  temp_lru := false
  evict_to_free := true
  use_cas := true
  inline_ascii_response := false
  temporary_ttl := 61
  tail_repair_time := 0
  hot_lru_pct := 20
  warm_lru_pct := 40
  slab_chunk_size_max := 524288
  slabs_clsid := fun size => if size ≤ 96 then 1 else 2

/-- Two items are linked, hit, moved and crawled over, and one of them is replaced. -/
def busy : List Event := [
  .alloc ⟨[97], 0, 0, 3⟩ [⟨some (.item 0), 0, [], [], []⟩], .link 0, .remove 0,
  .alloc ⟨[98], 5, 100, 4⟩ [⟨some (.item 1), 0, [], [], []⟩], .link 1,
  .get [97] true false, .get [97] true false, .remove 0, .remove 0,
  .crawler_start 1 0, .pull ⟨1, .HOT_LRU, 1000, {}, 0⟩ [true, true],
  .crawler 1 (.expired true) true true,
  .alloc ⟨[98], 0, 0, 9⟩ [⟨some (.item 2), 0, [], [], []⟩], .replace 1 2, .remove 1]

theorem busy_runs : (busy.foldlM (Store.step settings) empty).isSome := by decide +kernel

theorem lru_consistent_witness :
    ∃ l, LruConsistent ((busy.foldlM (Store.step settings) empty).get busy_runs) l :=
  lru_consistent (Run.of_foldlM (Option.some_get busy_runs).symm)

end Store

end Memcached.MemoryLru

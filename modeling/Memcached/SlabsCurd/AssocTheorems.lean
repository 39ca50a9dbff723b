import Memcached.SlabsCurd.Lemmas.AssocGrowth
import Memcached.SlabsCurd.Lemmas.AssocInvariant

/-!
# The hash table is a map

In every state of every run, from the start of the server on, the two tables together hold the items inserted and
not deleted, each once, and every worker that keeps its lock was told what the map holds, as long as there are at most
`2 ^ 32` buckets. When the maintenance thread wakes without being told to, there can be more; then `expand_bucket` wraps.
-/

namespace Memcached.SlabsCurd.System

open Transition Assoc

variable {hash : Key → UInt32} {s : System}

/-- The server before its first request: `settings_init` leaves `hashpower_init` at 0. -/
def main_init (nthreads : Nat) : Option System := memcached_thread_init (assoc_init 0) nthreads

/-- The chains of both tables that hold items now. -/
def live (s : System) (p : Place) : List Item := s.assoc.live (cur s.maintenance) p

structure RepresentsMap (hash : Key → UInt32) (s : System) : Prop where
  /-- The map holds an item exactly if it is in some chain; none is lost. -/
  holds : ∀ key it, s.items key = some it ↔ it.key = key ∧ ∃ p, it ∈ s.live p
  /-- No item is in two buckets, or twice in a chain. -/
  once : ∀ (p q : Place) (i j : Nat) (it : Item), (s.live p)[i]? = some it → (s.live q)[j]? = some it → p = q ∧ i = j
  /-- Where no migration is under way, looking a key up finds what the map holds. -/
  find : ∀ key, cur s.maintenance = none →
    s.assoc.assoc_find (s.assoc.place s.assoc.expanding (hash key)) key = s.items key
  /-- A worker is told what the map holds, and that stays so while it keeps the lock. -/
  found : ∀ t key r, s.workers t = .done (.find key) r → r = s.items key
  inserted : ∀ t it r, s.workers t = .done (.insert it) r → s.items it.key = some it
  deleted : ∀ t key r, s.workers t = .done (.delete key) r → s.items key = none
  /-- `assert(*before != 0)` does not fail. -/
  no_abort : ∀ t, s.workers t ≠ .aborted
  /-- The lock of a hash value is the lock of both its buckets. -/
  covers : s.item_lock_hashpower < s.assoc.hashpower ∧ ∀ hv : UInt32,
    s.item_lock_of (s.assoc.old_bucket hv) = s.item_lock_of hv.toNat ∧
    s.item_lock_of (s.assoc.new_bucket hv) = s.item_lock_of hv.toNat
  /-- A worker at a bucket, and the maintenance thread migrating one, hold the lock of what they touch. -/
  locked : (∀ t c p, s.workers t = .at_bucket c p → s.item_locks (s.item_lock_of (hash c.key).toNat) = some (.worker t)) ∧
    (cur s.maintenance ≠ none → s.item_locks (s.item_lock_of s.assoc.expand_bucket) = some .maintenance)

theorem Inv.find (h : Inv hash s) {key : Key} (hcur : cur s.maintenance = none) :
    s.assoc.assoc_find (s.assoc.place s.assoc.expanding (hash key)) key = s.items key := by
  refine h.tables.assoc_find ?_
  unfold Assoc.place
  split
  · rename_i hc; exact ⟨rfl, hc.1, hc.2, fun _ => hcur⟩
  · rename_i hc
    refine ⟨rfl, fun he => ?_⟩
    have hlt : ¬ s.assoc.old_bucket (hash key) ≥ s.assoc.expand_bucket := fun hge => hc ⟨he, hge⟩
    omega

theorem Inv.represents (h : Inv hash s) : RepresentsMap hash s where
  holds := by
    intro key it
    constructor
    · intro hi
      obtain rfl := h.tables.keyed key it hi
      have hc := h.tables.count it
      rw [if_pos hi] at hc
      refine ⟨rfl, ?_⟩
      rcases Nat.eq_zero_or_pos ((s.assoc.live (cur s.maintenance) (.primary (s.assoc.new_bucket (hash it.key)))).count it)
        with h0 | hpos
      · rw [h0, Nat.zero_add] at hc
        exact ⟨_, List.count_pos_iff.mp (hc ▸ Nat.one_pos)⟩
      · exact ⟨_, List.count_pos_iff.mp hpos⟩
    · rintro ⟨rfl, p, hm⟩
      exact h.tables.of_mem hm
  once := fun _ _ _ _ _ hi hj => h.tables.once hi hj
  find := fun _ hcur => h.find hcur
  found := by
    intro t key r hw
    have hwi := h.workers t
    rw [hw] at hwi
    exact hwi.2
  inserted := by
    intro t it r hw
    have hwi := h.workers t
    rw [hw] at hwi
    exact hwi.2
  deleted := by
    intro t key r hw
    have hwi := h.workers t
    rw [hw] at hwi
    exact hwi.2
  no_abort := by
    intro t hw
    have hwi := h.workers t
    rw [hw] at hwi
    exact hwi
  covers := ⟨h.power.1, fun hv => ⟨item_lock_of_old_bucket h.power.1 hv, item_lock_of_new_bucket h.power.1 hv⟩⟩
  locked := by
    refine ⟨fun t c p hw => ?_, fun hcur => ?_⟩
    · have hwi := h.workers t
      rw [hw] at hwi
      exact hwi.1
    · have hmi := h.maintenance
      cases hm : s.maintenance with
      | relinking l it => rw [hm] at hmi; obtain ⟨_, _, rfl, howner⟩ := hmi; exact howner
      | cleared l => rw [hm] at hmi; obtain ⟨_, _, rfl, howner⟩ := hmi; exact howner
      | running | advanced l | unlocking l | waiting => rw [hm] at hcur; exact absurd rfl hcur

theorem inv_main_init {nthreads : Nat} (h : main_init nthreads = some s) : Inv hash s := by
  unfold main_init memcached_thread_init at h
  split at h
  · exact nomatch h
  · rename_i hpow
    cases h
    exact {
      tables := tables_assoc_init 0
      power := ⟨Nat.lt_of_not_le hpow, (show HASHPOWER_DEFAULT ≤ HASHPOWER_MAX by decide)⟩
      workers := fun _ => trivial
      maintenance := fun he => nomatch he }

theorem run_inv {n : Nat} {s₀ : System} {es : List Event} (h0 : main_init n = some s₀) (h : Run (Step hash) s₀ es s)
    (hmax : s.assoc.hashpower ≤ HASHPOWER_MAX) : Inv hash s :=
  h.invariant (P := fun s => s.assoc.hashpower ≤ HASHPOWER_MAX → Inv hash s)
    (fun hi hst hmax => (hi (hst.hashpower_le.trans hmax)).step hst hmax) (fun _ => inv_main_init h0) hmax

/-- The tables represent the map in every reachable state with at most `2 ^ 32` buckets. -/
theorem assoc_represents_map {n : Nat} {s₀ : System} {es : List Event} (h0 : main_init n = some s₀)
    (h : Run (Step hash) s₀ es s) (hmax : s.assoc.hashpower ≤ HASHPOWER_MAX) : RepresentsMap hash s :=
  (run_inv h0 h hmax).represents

/-- The server with four threads. -/
def start : System where
  assoc := assoc_init 0
  item_lock_hashpower := 12
  item_locks := fun _ => none
  workers := fun _ => .idle
  maintenance := .running
  items := fun _ => none

/-- A worker inserts an item while the table expands to twice its size. -/
theorem assoc_represents_map_witness : ∃ s, RepresentsMap (fun _ => 7) s ∧ s.assoc.hashpower = 17 ∧
    s.items [0x61] = some { addr := 1, key := [0x61] } := by
  have r : Run (Step fun _ => 7) start [] start := .nil _
  have r := r.snoc (.wait rfl rfl)
  have r := r.snoc (.assoc_start_expand (n := 98305))
  have r := r.snoc (@Step.assoc_expand _ _ true rfl fun _ => rfl)
  have r := r.snoc (.item_lock (t := 0) (c := .insert { addr := 1, key := [0x61] }) rfl rfl)
  have r := r.snoc (.read_expanding (t := 0) (c := .insert { addr := 1, key := [0x61] }) rfl)
  have r := r.snoc (.choose (t := 0) (c := .insert { addr := 1, key := [0x61] }) (e := true) rfl)
  have r := r.snoc (@Step.assoc_insert _ _ 0 { addr := 1, key := [0x61] } (.old 7) rfl rfl)
  have hr := assoc_represents_map (n := 4) rfl r (by decide)
  exact ⟨_, hr, rfl, rfl⟩

theorem quiet_start : Quiet start := ⟨rfl, fun _ => rfl, fun _ => rfl, fun _ => rfl⟩

/-- Woken 17 times without a signal, the maintenance thread makes `2 ^ 33` buckets. When `expand_bucket` has passed all that it
can count, an item of a migrated bucket is looked for in the old table, and is not found. -/
theorem item_lost_beyond_max : ∃ s₀ es s, main_init 4 = some s₀ ∧ Run (Step fun _ => 0) s₀ es s ∧
    ¬ RepresentsMap (fun _ => 0) s := by
  obtain ⟨es, s₁, hrun, hq, hsame, hp, hoff⟩ :=
    quiet_start.grow (fun _ => 0) rfl (fun _ => rfl) (n := 16) (by decide)
  have hp : s₁.assoc.hashpower = 32 := hp
  obtain ⟨fs, s₂, hrun', hq', hsame', hp', hb', hon'⟩ :=
    hq.expand (fun _ => 0) hoff fun b => congrFun hsame.primary b
  have hold (a : Assoc) : a.old_bucket 0 = 0 := Nat.zero_and _
  have hsize : hashsize (33 - 1) = 2 ^ 32 := hashsize_eq 32
  have hp' : s₂.assoc.hashpower = 33 := by omega
  -- one bucket, then the item, then all other buckets
  obtain ⟨gs, s₃, hrun₃, hq₃, hsame₃, hp₃, hb₃, hon₃⟩ :=
    hq'.rounds (fun _ => 0) hon' (n := 1) (by omega) (by rw [hp', hsize]; omega)
  have habsent : s₃.items [0x61] = none := by
    rw [hsame₃.items, hsame'.items, hsame.items]
    rfl
  obtain ⟨hs, s₄, hrun₄, hq₄, hitem, hp₄, hb₄, hon₄⟩ := hq₃.insert (fun _ => 0) { addr := 1, key := [0x61] }
    (by rw [hold]; omega) habsent
  have hleft : s₄.assoc.expand_bucket = 1 := by omega
  obtain ⟨is, s₅, hrun₅, hq₅, hsame₅, hp₅, hb₅, hon₅⟩ :=
    hq₄.rounds (fun _ => 0) (hon₄.trans hon₃) (n := 2 ^ 32 - 2) (by omega) (by rw [hp₄, hp₃, hp', hsize]; omega)
  obtain ⟨js, s₆, hrun₆, hq₆, hsame₆, hp₆, hb₆, hon₆⟩ := hq₅.round (fun _ => 0) hon₅
  have hwrap : (s₅.assoc.expand_bucket + 1) % 2 ^ 32 = 0 := by omega
  have hon : s₆.assoc.expanding = true := by
    rw [hon₆, hwrap, hp₅, hp₄, hp₃, hp', hsize]
    rfl
  refine ⟨start, _, s₆, rfl, ((((hrun.append hrun').append hrun₃).append hrun₄).append hrun₅).append hrun₆, fun h => ?_⟩
  have hfind := h.find [0x61] (by rw [hq₆.running]; rfl)
  have hplace : s₆.assoc.place s₆.assoc.expanding 0 = .old 0 := by
    rw [Assoc.place, hold, if_pos ⟨hon, by omega⟩]
  rw [hplace, Assoc.assoc_find, Assoc.chain, hq₆.old, hsame₆.items, hsame₅.items, hitem] at hfind
  cases hfind

end Memcached.SlabsCurd.System

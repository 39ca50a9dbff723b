import Memcached.Exstore.ScanTheorems
import Memcached.Exstore.StorageWrite
import Memcached.MemoryLru.ItemTheorems
import Memcached.MemoryLru.Lemmas.ReturnPulls

/-!
# What `storage_write` leaves behind

It takes the lock of the item that it pulls and never gives it back: where `item_unlock` is due it calls `item_unlink`.
-/

namespace Memcached.Exstore

open MemoryLru Transition

/-! ## Atomic moves -/

/-- Nothing was written. In `s` the item has the reference of the pull, and `hdr_it` is the header that was allocated. -/
structure Unmoved (s : Store) (it : Ptr) (hdr_it : Option Ptr) (s' : Store) : Prop where
  table : s'.table (s.heap it).key = some it
  item : s'.heap it = { s.heap it with refcount := (s.heap it).refcount - 1 }
  linked : (s'.heap it).it_flags.linked
  curr_items : s'.curr_items = s.curr_items
  curr_bytes : s'.curr_bytes = s.curr_bytes
  sizes : s'.sizes = s.sizes
  sizes_bytes : s'.sizes_bytes = s.sizes_bytes
  header : ∀ p, hdr_it = some p → (s'.heap p).it_flags.slabbed

/-- The header took the place of the item, and names the object that was written for it. -/
structure Moved (cfg : StorageSettings) (w : World) (it hdr_it : Ptr) (w' : World) : Prop where
  table : w'.store.table (w.store.heap it).key = some hdr_it
  linked : (w'.store.heap hdr_it).it_flags.linked
  hdr : (w'.store.heap hdr_it).it_flags.hdr
  key : (w'.store.heap hdr_it).key = (w.store.heap it).key
  flags : w'.cache.flags cfg.toSettings hdr_it = w.cache.flags cfg.toSettings it
  exptime : (w'.store.heap hdr_it).exptime = (w.store.heap it).exptime
  cas : (w'.store.heap hdr_it).get_cas = (w.store.heap it).get_cas
  nbytes : (w'.store.heap hdr_it).nbytes = (w.store.heap it).nbytes
  stored : ∃ o ∈ w'.stored, w'.hdrs hdr_it = o.hdr ∧ Image cfg.crc32c o.buf o.pos (w.image it)

/-- The store from which on an item is moved, with its header. -/
def World.prepared (cfg : StorageSettings) (w : World) (it : Ptr) (item_age : UInt32) (a : Answers) :
    Option (Store × Option Ptr) :=
  if World.due w.store it item_age then (w.alloc_header cfg it a).map fun r => (r.1.store, r.2) else some (w.store, none)

/-- What `storage_write` is to do, whatever is pulled and whatever fails. -/
structure Atomic (cfg : StorageSettings) (w : World) (clsid : UInt8) (item_age : UInt32) (a : Answers) (n : Nat)
    (w' : World) : Prop where
  item_locks : w'.item_locks = w.item_locks
  page_locks : w'.page_locks = w.page_locks
  held : w'.store.held = w.store.held
  refcount : ∀ p, (w.store.heap p).it_flags.linked → (w'.store.heap p).it_flags.linked →
    (w'.store.heap p).refcount = (w.store.heap p).refcount
  stored : n = 0 → w'.stored = w.stored
  nothing : ∀ s, w.pull cfg clsid a = some (s, none) → n = 0
  unmoved : ∀ s it, w.pull cfg clsid a = some (s, some it) → n = 0 →
    ∃ s₁ hdr_it, (w.set_store s).prepared cfg it item_age a = some (s₁, hdr_it) ∧ Unmoved s₁ it hdr_it w'.store
  moved : ∀ s it, w.pull cfg clsid a = some (s, some it) → n ≠ 0 → ∃ hdr_it, Moved cfg (w.set_store s) it hdr_it w'

variable {cfg : StorageSettings} {w w' : World} {clsid : UInt8} {item_age : UInt32} {a : Answers} {n : Nat}

/-! ## The item lock -/

theorem write_granted_item_locks {it hdr_it : Ptr} {g : Grant} (h : w.write_granted cfg it hdr_it g = some w') :
    w'.item_locks = w.item_locks := by
  simp only [World.write_granted] at h
  obtain ⟨wbuf, -, h⟩ := Option.bind_eq_some_iff.mp h
  obtain ⟨s₁, -, h⟩ := Option.bind_eq_some_iff.mp h
  obtain ⟨s₂, -, h⟩ := Option.bind_eq_some_iff.mp h
  cases h
  rfl

theorem move_item_item_locks {it : Ptr} (h : w.move_item cfg it a = some (n, w')) : w'.item_locks = w.item_locks := by
  simp only [World.move_item] at h
  obtain ⟨⟨c, hdr_it⟩, -, h⟩ := Option.bind_eq_some_iff.mp h
  cases hdr_it with
  | none => cases h; rfl
  | some hdr_it =>
      dsimp only at h
      split at h
      · cases h
      split at h
      · next g _ =>
        obtain ⟨w₁, hgranted, h⟩ := Option.bind_eq_some_iff.mp h
        cases h
        exact (write_granted_item_locks hgranted :)
      · cases h; rfl

theorem storage_write_cases (h : storage_write cfg w clsid item_age a = some (n, w')) :
    ∃ s ret, w.pull cfg clsid a = some (s, ret) ∧
      (ret = none → n = 0 ∧ w' = w.set_store s) ∧
      ∀ it, ret = some it → w'.item_locks = cfg.hash (s.heap it).key :: w.item_locks := by
  simp only [storage_write] at h
  obtain ⟨⟨s, ret⟩, hpull, h⟩ := Option.bind_eq_some_iff.mp h
  refine ⟨s, ret, hpull, ?_, ?_⟩
  · rintro rfl
    cases h
    exact ⟨rfl, rfl⟩
  · rintro it rfl
    dsimp only at h
    split at h
    · obtain ⟨⟨did_moves, w₁⟩, hmove, h⟩ := Option.bind_eq_some_iff.mp h
      obtain ⟨s₁, -, h⟩ := Option.bind_eq_some_iff.mp h
      cases h
      exact (move_item_item_locks hmove :)
    · obtain ⟨_, hsame, h⟩ := Option.bind_eq_some_iff.mp h
      cases hsame
      obtain ⟨s₁, -, h⟩ := Option.bind_eq_some_iff.mp h
      cases h
      rfl

/-! ## The pull -/

/-- The pull returns the first item from the tail on that is not removed and whose lock is free. -/
theorem pull_finds {s : Store} {ret : Option Ptr} (hs : w.store.Sound) (hid : clsid ≠ 0)
    (h : w.pull cfg clsid a = some (s, ret)) :
    ret = Pull.finds cfg.toSettings w.store a.locks 5 (w.store.tails (clsid ||| Lru.COLD_LRU.bits)) ∧
      (ret = none → w.store.Framed s ∧ s.held = w.store.held) := by
  simp only [World.pull] at h
  obtain ⟨⟨s₁, removed, ret'⟩, hpull, h⟩ := Option.bind_eq_some_iff.mp h
  cases h
  exact Store.lru_pull_tail_finds hs rfl rfl hid hpull

theorem pull_zero {s : Store} {ret : Option Ptr} (h : w.pull cfg 0 a = some (s, ret)) : s = w.store ∧ ret = none := by
  simp only [World.pull] at h
  obtain ⟨⟨s₁, removed, ret'⟩, hpull, h⟩ := Option.bind_eq_some_iff.mp h
  cases h
  cases hpull
  exact ⟨rfl, rfl⟩

/-- A move is atomic just where there is nothing to move. -/
theorem moves_atomically_iff (hs : w.store.Sound) (h : storage_write cfg w clsid item_age a = some (n, w')) :
    Atomic cfg w clsid item_age a n w' ↔
      clsid = 0 ∨ Pull.finds cfg.toSettings w.store a.locks 5 (w.store.tails (clsid ||| Lru.COLD_LRU.bits)) = none := by
  obtain ⟨s, ret, hpull, hnone, hsome⟩ := storage_write_cases h
  have hret : (ret = none ↔ clsid = 0 ∨
        Pull.finds cfg.toSettings w.store a.locks 5 (w.store.tails (clsid ||| Lru.COLD_LRU.bits)) = none) ∧
      (ret = none → w.store.Framed s ∧ s.held = w.store.held) := by
    by_cases hid : clsid = 0
    · subst hid
      obtain ⟨rfl, rfl⟩ := pull_zero hpull
      exact ⟨by simp, fun _ => ⟨.refl, rfl⟩⟩
    · obtain ⟨hfinds, hframed⟩ := pull_finds hs hid hpull
      exact ⟨by simp [hfinds, hid], hframed⟩
  rw [← hret.1]
  constructor
  · intro hatomic
    cases ret with
    | none => rfl
    | some it =>
        have hlocks := (hsome it rfl).symm.trans hatomic.item_locks
        simp at hlocks
  · rintro rfl
    obtain ⟨rfl, rfl⟩ := hnone rfl
    obtain ⟨hframed, hheld⟩ := hret.2 rfl
    refine ⟨rfl, rfl, hheld, fun p _ hlinked => (hframed.linked hlinked).refcount, fun _ => rfl, fun _ _ => rfl, ?_, ?_⟩
    · intro s' it hpull'
      rw [hpull] at hpull'
      cases hpull'
    · intro s' it hpull'
      rw [hpull] at hpull'
      cases hpull'

/-! ## One item -/

/-- The LRUs are not segmented, so that a new item is in the COLD one. -/
def unsegmented : StorageSettings where
  toSettings := { Store.settings with lru_segmented := false }
  ext_low_ttl := 0
  hash := fun _ => 7
  crc32c := List.length
  item_unlink := fun _ c => c

def World.of_store (s : Store) : World where
  cache := { store := s, data := fun _ _ => 0, suffix := fun _ => [], beyond := fun _ => [] }
  image := fun _ => plain_source
  hdrs := fun _ => ⟨0, 0, 0⟩
  item_locks := []
  page_locks := []
  stored := []

def cold_one : List MemoryLru.Event :=
  [.alloc ⟨[97], 0, 0, 3⟩ [⟨some (.item 0), 0, [true], [], []⟩], .link 0, .remove 0]

theorem cold_one_runs : (cold_one.foldlM (Store.step unsegmented.toSettings) .empty).isSome := by decide +kernel

def answers (locks : List Bool) : Answers := ⟨locks, [], fun _ => none⟩

theorem cold_one_locked : (storage_write unsegmented (.of_store (Option.get _ cold_one_runs)) 1 0
    (answers [false])).isSome := by decide +kernel

/-- The only item is locked by a client. -/
theorem atomic_when_locked : Atomic unsegmented (.of_store (Option.get _ cold_one_runs)) 1 0 (answers [false])
    (Option.get _ cold_one_locked).1 (Option.get _ cold_one_locked).2 :=
  (moves_atomically_iff (Store.run_sound (.of_foldlM (Option.some_get cold_one_runs).symm))
    (Option.some_get cold_one_locked).symm).mpr (.inr (by decide +kernel))

theorem cold_one_young : (storage_write unsegmented (.of_store (Option.get _ cold_one_runs)) 1 3600
    (answers [true])).isSome := by decide +kernel

/-- The only item is too young to be moved, and stays locked. -/
theorem not_moved_atomically : ∃ s w' n, Run (MemoryLru.Step unsegmented.toSettings) .empty cold_one s ∧
    storage_write unsegmented (.of_store s) 1 3600 (answers [true]) = some (n, w') ∧
    w'.item_locks = [7] ∧ ¬ Atomic unsegmented (.of_store s) 1 3600 (answers [true]) n w' := by
  have hlocks : (Option.get _ cold_one_young).2.item_locks = [7] := by decide +kernel
  refine ⟨_, _, _, .of_foldlM (Option.some_get cold_one_runs).symm, (Option.some_get cold_one_young).symm, hlocks, ?_⟩
  intro h
  have hnone := hlocks.symm.trans h.item_locks
  cases hnone

end Memcached.Exstore

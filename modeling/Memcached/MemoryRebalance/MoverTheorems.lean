import Mathlib.Algebra.Order.Ring.Int
import Memcached.MemoryRebalance.Slabs
import Memcached.MemoryLru.Lemmas.MoverFrames
import Memcached.MemoryLru.ItemTheorems

/-!
# Two copies of slab_rebalance_move

They agree where the class pointer happens to be right and no item is taken for busy for want of a bit in its client flags.
-/

namespace Memcached.MemoryRebalance

open MemoryLru MemoryLru.Memory

variable {m m' : Memory} {cfg : Config} {lock : Bool} {locks : List Bool} {s_cls n it : Nat} {k : Moved}

/-- The round comes to a linked item whose client flags lack the bit of `ITEM_LINKED`, and that could be moved or, after
too many passes, deleted. -/
def overlooks (m : Memory) (lock : Bool) : Prop :=
  ∃ n it, m.target = some (n, it) ∧ ¬ (m.store.heap (.item it)).it_flags.slabbed ∧
    (m.store.heap (.item it)).it_flags.linked ∧ m.flags it &&& ITEM_LINKED = 0 ∧ lock ∧
    ((m.store.heap (.item it)).refcount + 1 = 2 ∨
      (m.store.heap (.item it)).refcount + 1 > 2 ∧ m.slabs.slab_rebal.busy_loops > SLAB_MOVE_MAX_LOOPS)

/-- No round of memory_lru does so. -/
def NoneOverlooked (cfg : Config) : List Bool → Memory → Prop
  | [], _ => True
  | lock :: locks, m =>
      ¬ overlooks m lock ∧ ∀ m' k, m.move_piece cfg MemoryLru.move_copy lock = some (m', k) →
        (m'.advance m.slabs.slab_rebal.s_clsid).cursor.slab_pos < (m'.advance m.slabs.slab_rebal.s_clsid).cursor.slab_end →
        NoneOverlooked cfg locks (m'.advance m.slabs.slab_rebal.s_clsid)

/-- What the page mover does to a piece it can move. -/
def is_move (k : Moved) : Prop := k = .rescued ∨ k = .chunk_rescued ∨ k = .unlinked

/-- The copies do the same, use the class of the move only, and move every item that is idle when they come to it. -/
structure Agree (cfg : Config) (s_cls : Nat) (m : Memory) (locks : List Bool) : Prop where
  same : m.slab_rebalance_move cfg locks = slab_rebalance_move cfg s_cls m locks
  class_only : ∀ v ∈ (m.slab_rebalance_move cfg locks).1 ++ (slab_rebalance_move cfg s_cls m locks).1,
    v.cls = m.slabs.slab_rebal.s_clsid
  idle_moved : ∀ v ∈ (m.slab_rebalance_move cfg locks).1 ++ (slab_rebalance_move cfg s_cls m locks).1,
    v.idle → ∀ k, v.moved = some k → is_move k

/-! ## One round -/

theorem refcount_incr_decr {s : Store} {p : Ptr} : (s.refcount_incr p).refcount_decr p = s := by
  simp [Store.refcount_incr, Store.refcount_decr, Store.modify]

/-- Without references to spare the round leaves the memory as it was. -/
theorem move_piece_agree (h : ¬ overlooks m lock) :
    m.move_piece cfg MemoryLru.move_copy lock = m.move_piece cfg (move_copy m.slabs.slab_rebal.s_clsid) lock := by
  simp only [move_piece]
  cases htarget : m.target with
  | none => rfl
  | some t =>
      obtain ⟨n, it⟩ := t
      simp only [Option.bind_eq_bind, Option.bind_some]
      split
      · rfl
      split
      · rfl
      next hslabbed =>
      have hheap : ((m.store.refcount_incr (.item it)).heap (.item it)).refcount =
          (m.store.heap (.item it)).refcount + 1 := by
        simp [Store.refcount_incr]
      simp only [MemoryLru.move_copy, move_copy, hheap, refcount_incr_decr]
      by_cases hbit : m.flags it &&& ITEM_LINKED = 0
      · cases hlinked : (m.store.heap (.item it)).it_flags.linked with
        | false => simp [hbit]
        | true =>
            cases lock with
            | false => simp [hbit]
            | true =>
                have hrefs : (m.store.heap (.item it)).refcount + 1 ≠ 2 := fun hrefs =>
                  h ⟨n, it, htarget, hslabbed, hlinked, hbit, rfl, .inl hrefs⟩
                have hloops : ¬ ((m.store.heap (.item it)).refcount + 1 > 2 ∧
                    m.slabs.slab_rebal.busy_loops > SLAB_MOVE_MAX_LOOPS) := fun hloops =>
                  h ⟨n, it, htarget, hslabbed, hlinked, hbit, rfl, .inr hloops⟩
                simp [hbit, hrefs, hloops]
      · cases hlinked : (m.store.heap (.item it)).it_flags.linked with
        | true => simp [hbit]
        | false => cases lock <;> simp [hbit]

theorem is_move_of_move_from_lru (h : m.move_from_lru cfg s_cls n it = some (m', k)) : is_move k := by
  obtain ⟨⟨m₁, r⟩, -, h⟩ := Option.bind_eq_some_iff.mp h
  cases r with
  | some new_it =>
      dsimp only at h
      split at h
      · obtain ⟨m₂, -, h⟩ := Option.bind_eq_some_iff.mp h
        cases h
        exact .inr (.inl rfl)
      · obtain ⟨m₂, -, h⟩ := Option.bind_eq_some_iff.mp h
        cases h
        exact .inl rfl
  | none =>
      obtain ⟨m₂, -, h⟩ := Option.bind_eq_some_iff.mp h
      cases h
      exact .inr (.inr rfl)

theorem is_move.ne_busy (h : is_move k) : k ≠ .busy := by
  rintro rfl
  rcases h with h | h | h <;> cases h

theorem ne_cleared {f : Flags} (h : ¬ f.slabbed) : f ≠ .cleared := by
  rintro rfl
  exact h rfl

theorem overlooked_busy (h : overlooks m lock) :
    m.move_piece cfg MemoryLru.move_copy lock = some (m.count_busy, .busy) := by
  obtain ⟨n, it, htarget, hslabbed, -, hbit, -, -⟩ := h
  simp [move_piece, htarget, ne_cleared hslabbed, hslabbed, MemoryLru.move_copy, hbit]

theorem overlooked_moved (h : overlooks m lock) (hpiece : m.move_piece cfg (move_copy s_cls) lock = some (m', k)) :
    k ≠ .busy := by
  obtain ⟨n, it, htarget, hslabbed, hlinked, -, rfl, hrefs⟩ := h
  have hheap : ((m.store.refcount_incr (.item it)).heap (.item it)).refcount =
      (m.store.heap (.item it)).refcount + 1 := by
    simp [Store.refcount_incr]
  simp only [move_piece, htarget, Option.bind_eq_bind, Option.bind_some, ne_cleared hslabbed, if_false, hslabbed,
    Bool.false_eq_true, move_copy, hlinked, if_true, Bool.not_true, hheap, and_true, true_and] at hpiece
  split at hpiece
  · exact (is_move_of_move_from_lru hpiece).ne_busy
  next hne =>
  have hmany := hrefs.resolve_left hne
  rw [if_pos hmany] at hpiece
  obtain ⟨m₁, -, hpiece⟩ := Option.bind_eq_some_iff.mp hpiece
  cases hpiece
  simp

theorem idle_is_move (h : m.idle lock) (hpiece : m.move_piece cfg (move_copy s_cls) lock = some (m', k)) :
    is_move k := by
  obtain ⟨⟨n, it⟩, htarget⟩ : ∃ t, m.target = some t := by
    cases htarget : m.target with
    | none => simp [idle, htarget] at h
    | some t => exact ⟨t, rfl⟩
  simp only [idle, htarget, Option.any_some] at h
  obtain ⟨hlinked, hslabbed, hrefs, rfl⟩ := of_decide_eq_true h
  have hheap : ((m.store.refcount_incr (.item it)).heap (.item it)).refcount = 2 := by
    simp [Store.refcount_incr, hrefs]
  simp only [move_piece, htarget, Option.bind_eq_bind, Option.bind_some, ne_cleared hslabbed, if_false, hslabbed,
    Bool.false_eq_true, move_copy, hlinked, if_true, Bool.not_true, hheap, and_true, true_and] at hpiece
  exact is_move_of_move_from_lru hpiece

/-! ## The rounds -/

theorem advance_s_clsid {copy : MoveCopy} {id : Nat} (h : m.move_piece cfg copy lock = some (m', k)) :
    (m'.advance id).slabs.slab_rebal.s_clsid = m.slabs.slab_rebal.s_clsid := by
  obtain ⟨r, herase, hs, -, -⟩ := progressed_move_piece h
  have hrebal : m'.slabs.slab_rebal = r := congrArg (fun s : Slabs => s.slab_rebal) herase
  exact (congrArg SlabRebalance.s_clsid hrebal).trans hs

theorem visit_cls : ∀ m : Memory, ∀ v ∈ (move_pieces cfg MemoryLru.move_copy locks m).1,
    v.cls = m.slabs.slab_rebal.s_clsid := by
  induction locks with
  | nil => exact fun m v hv => nomatch hv
  | cons lock locks ih =>
      intro m v hv
      simp only [move_pieces] at hv
      split at hv
      · cases List.mem_singleton.mp hv
        rfl
      next m' k hpiece =>
      split at hv
      · cases List.mem_singleton.mp hv
        rfl
      · cases List.mem_cons.mp hv with
        | inl hv => cases hv; rfl
        | inr hv => exact (ih _ v hv).trans (advance_s_clsid hpiece)

theorem visit_idle : ∀ m : Memory, ∀ v ∈ (move_pieces cfg (move_copy s_cls) locks m).1,
    v.idle → ∀ k, v.moved = some k → is_move k := by
  induction locks with
  | nil => exact fun m v hv => nomatch hv
  | cons lock locks ih =>
      intro m v hv hidle k hk
      simp only [move_pieces] at hv
      split at hv
      · cases List.mem_singleton.mp hv
        cases hk
      next m' k' hpiece =>
      split at hv
      · cases List.mem_singleton.mp hv
        cases hk
        exact idle_is_move hidle hpiece
      · cases List.mem_cons.mp hv with
        | inl hv =>
            cases hv
            cases hk
            exact idle_is_move hidle hpiece
        | inr hv => exact ih _ v hv hidle k hk

theorem move_pieces_agree : ∀ {m : Memory}, m.slabs.slab_rebal.s_clsid = s_cls → NoneOverlooked cfg locks m →
    move_pieces cfg MemoryLru.move_copy locks m = move_pieces cfg (move_copy s_cls) locks m := by
  induction locks with
  | nil => exact fun _ _ => rfl
  | cons lock locks ih =>
      intro m hs hnone
      have hagree : m.move_piece cfg MemoryLru.move_copy lock = m.move_piece cfg (move_copy m.slabs.slab_rebal.s_clsid) lock :=
        move_piece_agree hnone.1
      rw [hs] at hagree
      simp only [move_pieces, hagree]
      have hcls : MemoryLru.move_copy.s_cls m = (move_copy s_cls).s_cls m := hs
      rw [hcls]
      cases hpiece : m.move_piece cfg (move_copy s_cls) lock with
      | none => rfl
      | some r =>
          obtain ⟨m', k⟩ := r
          have hlru := hagree.trans hpiece
          dsimp only
          split
          · rfl
          next hrounds =>
          have hrest := hnone.2 m' k hlru (by rw [hs]; exact Nat.lt_of_not_le hrounds)
          rw [hs] at hrest
          have hs' : (m'.advance s_cls).slabs.slab_rebal.s_clsid = s_cls := (advance_s_clsid hlru).trans hs
          have heq := ih hs' hrest
          rw [show (move_copy s_cls).s_cls m = s_cls from rfl, heq]

theorem head_visit {copy : MoveCopy} :
    (move_pieces cfg copy (lock :: locks) m).1.head? =
      some ⟨m.target.map (·.2), m.idle lock, (m.move_piece cfg copy lock).map (·.2), copy.s_cls m⟩ := by
  simp only [move_pieces]
  cases m.move_piece cfg copy lock with
  | none => rfl
  | some r =>
      dsimp only
      split <;> rfl

theorem head_eq (h : (move_pieces cfg MemoryLru.move_copy (lock :: locks) m).1 =
      (move_pieces cfg (move_copy s_cls) (lock :: locks) m).1) :
    (m.move_piece cfg MemoryLru.move_copy lock).map (·.2) = (m.move_piece cfg (move_copy s_cls) lock).map (·.2) ∧
      m.slabs.slab_rebal.s_clsid = s_cls := by
  have hhead := congrArg List.head? h
  rw [head_visit, head_visit] at hhead
  injection hhead with hvisit
  injection hvisit with hit hidle hmoved hcls
  exact ⟨hmoved, hcls⟩

/-- The first round in which the copies differ shows in what they did. -/
theorem none_overlooked : ∀ {m : Memory},
    (move_pieces cfg MemoryLru.move_copy locks m).1 = (move_pieces cfg (move_copy s_cls) locks m).1 →
    NoneOverlooked cfg locks m := by
  induction locks with
  | nil => exact fun _ => trivial
  | cons lock locks ih =>
      intro m h
      obtain ⟨hmoved, hs⟩ := head_eq h
      have hkeep : ¬ overlooks m lock := by
        intro hover
        rw [overlooked_busy hover] at hmoved
        obtain ⟨⟨m', k⟩, hpiece, hk⟩ := Option.map_eq_some_iff.mp hmoved.symm
        exact overlooked_moved hover hpiece hk
      refine ⟨hkeep, fun m' k hpiece hrounds => ?_⟩
      have hpiece' : m.move_piece cfg (move_copy m.slabs.slab_rebal.s_clsid) lock = some (m', k) :=
        (move_piece_agree hkeep).symm.trans hpiece
      have hcls : MemoryLru.move_copy.s_cls m = s_cls := hs
      have hcls' : (move_copy s_cls).s_cls m = s_cls := rfl
      rw [hs] at hpiece' hrounds ⊢
      simp only [move_pieces, hpiece, hpiece', hcls, hcls', if_neg (Nat.not_le_of_gt hrounds)] at h
      exact ih (List.cons_eq_cons.mp h).2

/-! ## The copies -/

/-- The two copies agree exactly if `s_cls` happens to be right, and no item is overlooked. -/
theorem moves_agree_iff (cfg : Config) (s_cls : Nat) (m : Memory) (locks : List Bool) :
    Agree cfg s_cls m locks ↔
      (locks = [] ∨ s_cls = m.slabs.slab_rebal.s_clsid) ∧ NoneOverlooked cfg locks m := by
  constructor
  · intro h
    have hvisits := congrArg Prod.fst h.same
    refine ⟨?_, none_overlooked hvisits⟩
    cases locks with
    | nil => exact .inl rfl
    | cons lock locks => exact .inr (head_eq hvisits).2.symm
  · rintro ⟨hs, hnone⟩
    have heq : move_pieces cfg MemoryLru.move_copy locks m = move_pieces cfg (move_copy s_cls) locks m := by
      cases hs with
      | inl hs => rw [hs]; rfl
      | inr hs => exact move_pieces_agree hs.symm hnone
    have hsame : m.slab_rebalance_move cfg locks = slab_rebalance_move cfg s_cls m locks := by
      simp only [Memory.slab_rebalance_move, slab_rebalance_move, move, heq]
    refine ⟨hsame, fun v hv => ?_, fun v hv => ?_⟩
    · rw [← hsame] at hv
      exact visit_cls m v ((List.mem_append.mp hv).elim id id)
    · rw [hsame] at hv
      exact visit_idle m v ((List.mem_append.mp hv).elim id id)

/-! ## An idle item -/

theorem two_lt_classes : 2 < 64 := by decide

/-- Two classes, and pages of two pieces. -/
def two : Slabs :=
  Slabs.slabs_init { slab_reassign := true, slab_page_size := 192, slab_chunk_size_max := 192, page_pos := by decide }
    { power_largest := 2, size := fun _ => 96, perslab := fun _ => 2, power_lt := two_lt_classes,
      bytes_pos := fun _ _ _ => by decide } 768 0 (some 0)

def settings : Config := { Store.settings with item_size_max := 192 }

/-- A page of class 1. -/
def grow (m : Memory) : Memory := m.do_slabs_newslab 1 { realloc_ok := true, malloc := none }

/-- Class 1 gives a page to class 2. -/
def reassign (m : Memory) : Memory := { m with slabs := (m.slabs.do_slabs_reassign 1 2).2 }.slab_rebalance_start true

/-- The piece at `n` becomes an item with no client flags, and it is linked. -/
def fill (n : Nat) (m : Memory) : Option Memory := do
  let m := m.modify_item n fun i => { i with slabs_clsid := 1, key := [97], nbytes := 3 }
  let m ← m.lift fun s => s.do_item_link settings.toSettings (.item n)
  m.lift fun s => s.do_item_remove (.item n)

/-- Class 1 has an item in its first page, that page is to move, and there is room in the second. -/
def parked : Option Memory := do
  let (m, it) ← (grow (.start two)).do_slabs_alloc 53 1 0 { realloc_ok := true, malloc := none }
  let m ← it.elim (some m) fun n => fill n m
  some (reassign (grow m))

theorem parks : parked.isSome := by decide +kernel

/-- memory_lru skips the item. And where nothing is in the page, memory_rebalance edits class 0. -/
theorem moves_disagree : ¬ Agree settings 1 (parked.get parks) [true, true] ∧
    ¬ Agree settings 0 (reassign (grow (grow (.start two)))) [true] := by
  constructor
  · intro h
    have hvisits := congrArg (fun r => r.1.map Visit.moved) h.same
    revert hvisits
    decide +kernel
  · intro h
    have hvisits := congrArg (fun r => r.1.map Visit.cls) h.same
    revert hvisits
    decide +kernel

end Memcached.MemoryRebalance

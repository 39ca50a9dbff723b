import Memcached.MemoryLru.Mover
import Memcached.MemoryLru.Lemmas.PageSections

/-!
# What the mover leaves alone

Pages, sizes and the move itself stay; only counts and the passes over the page change (`Slabs.Progressed`).
-/

namespace Memcached.MemoryLru

open Slabs

namespace Memory

variable {m m' : Memory} {cfg : Config} {id n it : Nat} {size : UInt64}

/-! ## Links and fields -/

@[simp] theorem modify_item_slabs {f : Item → Item} : (m.modify_item n f).slabs = m.slabs := rfl

@[simp] theorem modify_chunk_slabs {c : ChunkPtr} {f : Chunk → Chunk} : (m.modify_chunk c f).slabs = m.slabs := rfl

@[simp] theorem modify_chunk?_slabs {c : Option ChunkPtr} {f : Chunk → Chunk} :
    (m.modify_chunk? c f).slabs = m.slabs := by
  cases c <;> rfl

@[simp] theorem push_slot_slabs : (m.push_slot id n).slabs = m.slabs := by simp [push_slot]

@[simp] theorem free_piece_slabs : (m.free_piece id n).slabs = m.slabs := by simp [free_piece]

@[simp] theorem clear_piece_slabs : (m.clear_piece n).slabs = m.slabs := rfl

@[simp] theorem clear_move_slabs : (m.clear_move n).slabs = m.slabs := rfl

@[simp] theorem copy_item_slabs {new_it : Nat} : (m.copy_item it new_it size).slabs = m.slabs := rfl

@[simp] theorem split_slabs {page : Page} : (m.split_slab_page_into_freelist page id).slabs = m.slabs := by
  unfold split_slab_page_into_freelist
  generalize m.slabs.page_pieces id page = ns
  induction ns generalizing m with
  | nil => rfl
  | cons n ns ih => rw [List.foldl_cons, ih, free_piece_slabs, clear_piece_slabs]

theorem lift_slabs {f : Store → Option Store} (h : m.lift f = some m') : m'.slabs = m.slabs := by
  obtain ⟨s, -, rfl⟩ := Option.map_eq_some_iff.mp h
  rfl

theorem repoint_slabs {fuel : Nat} : ∀ {c : Option ChunkPtr} {m : Memory},
    repoint n fuel c m = some m' → m'.slabs = m.slabs := by
  induction fuel with
  | zero =>
      intro c m h
      cases c with
      | none => cases h; rfl
      | some c => cases h
  | succ fuel ih =>
      intro c m h
      cases c with
      | none => cases h; rfl
      | some c => exact (ih h).trans rfl

/-! ## Counts -/

theorem progressed_of_eq (h : m'.slabs = m.slabs) : Progressed m.slabs m'.slabs := h ▸ .of_erase rfl

/-- The count of free pieces and the requested bytes of a class change. -/
theorem progressed_modify_class {f : Slabclass → Slabclass}
    (hf : ∀ p, (f p).slabs = p.slabs ∧ (f p).slab_list = p.slab_list ∧ (f p).list_size = p.list_size ∧
      (f p).size = p.size ∧ (f p).perslab = p.perslab) : Progressed m.slabs (m.modify_class id f).slabs := by
  obtain ⟨hslabs, hlist, hlist_size, hsize, hper⟩ := hf (m.slabs.slabclass id)
  exact .of_erase (erase_setClass _ _ _ hslabs hlist hlist_size hsize hper)

theorem progressed_put_piece : Progressed m.slabs (m.put_piece id n size).slabs := .of_erase (erase_put_chunk _ _ _)

theorem progressed_count_busy : Progressed m.slabs m.count_busy.slabs := ⟨_, rfl, rfl, rfl, rfl⟩

theorem progressed_free_chunks {fuel : Nat} : ∀ {c : Option ChunkPtr} {m : Memory},
    free_chunks fuel c m = some m' → Progressed m.slabs m'.slabs := by
  induction fuel with
  | zero =>
      intro c m h
      cases c with
      | none => cases h; exact .of_erase rfl
      | some c => cases h
  | succ fuel ih =>
      intro c m h
      cases c with
      | none => cases h; exact .of_erase rfl
      | some c =>
          cases c with
          | internal n => cases h
          | piece n =>
              simp only [free_chunks] at h
              split at h
              · cases h
              · exact progressed_put_piece.trans (ih h)

theorem progressed_do_slabs_free {i : Item} (h : m.do_slabs_free cfg i n size id = some m') :
    Progressed m.slabs m'.slabs := by
  simp only [do_slabs_free] at h
  split at h
  · cases h; exact .of_erase rfl
  split at h
  · cases h; exact progressed_put_piece
  · have hlink : Progressed m.slabs (m.modify_chunk? (m.chunk (.internal n)).next fun c => { c with prev := none }).slabs :=
      progressed_of_eq modify_chunk?_slabs
    exact hlink.trans (progressed_put_piece.trans (progressed_free_chunks h))

theorem progressed_take_piece : Progressed m.slabs (m.take_piece size id n).slabs := by
  refine .of_erase ?_
  simp only [take_piece, modify_class, modify_item_slabs, modify_chunk?_slabs]
  exact erase_setClass _ _ _ rfl rfl rfl rfl rfl

theorem progressed_do_slabs_alloc {env : MallocEnv} {r : Option Nat}
    (h : m.do_slabs_alloc size id SLABS_ALLOC_NO_NEWPAGE env = some (m', r)) : Progressed m.slabs m'.slabs := by
  simp only [do_slabs_alloc, ne_eq, not_true_eq_false, and_false, if_false] at h
  split at h
  · cases h; exact .of_erase rfl
  split at h
  · cases h
  split at h
  · split at h
    · cases h; exact progressed_take_piece
    · cases h
  · cases h; exact .of_erase rfl

theorem progressed_alloc_loop {x : Nat} {r : Option Nat} : ∀ {m : Memory},
    slab_rebalance_alloc_loop size id x m = some (m', r) → Progressed m.slabs m'.slabs := by
  induction x with
  | zero =>
      intro m h
      cases h
      exact .of_erase rfl
  | succ x ih =>
      intro m h
      obtain ⟨⟨m₁, r₁⟩, halloc, h⟩ := Option.bind_eq_some_iff.mp h
      have hprog := progressed_do_slabs_alloc halloc
      cases r₁ with
      | none => cases h; exact hprog
      | some n =>
          dsimp only at h
          split at h
          · have hreclaim : Progressed m₁.slabs (m₁.modify_class m₁.slabs.slab_rebal.s_clsid fun p =>
                { p with requested := p.requested - size }).slabs :=
              progressed_modify_class fun p => ⟨rfl, rfl, rfl, rfl, rfl⟩
            have hrest := ih h
            exact hprog.trans (hreclaim.trans hrest)
          · cases h; exact hprog

theorem progressed_cut_free {s_cls : Nat} (h : m.slab_rebalance_cut_free s_cls n = some m') :
    Progressed m.slabs m'.slabs := by
  simp only [slab_rebalance_cut_free] at h
  split at h
  · cases h
  cases h
  refine .of_erase ?_
  simp only [modify_class, modify_chunk?_slabs]
  exact erase_setClass _ _ _ rfl rfl rfl rfl rfl

theorem repoint_chunks_slabs (h : m.repoint_chunks n = some m') : m'.slabs = m.slabs := by
  simp only [repoint_chunks] at h
  split at h
  · obtain ⟨next, -, h⟩ := Option.bind_eq_some_iff.mp h
    exact (repoint_slabs h).trans rfl
  · cases h; rfl

theorem rescue_item_slabs {new_it : Nat} (h : m.rescue_item cfg it new_it size = some m') : m'.slabs = m.slabs := by
  simp only [rescue_item] at h
  split at h
  · cases h
  obtain ⟨m₁, hreplace, h⟩ := Option.bind_eq_some_iff.mp h
  obtain ⟨m₂, hpoint, h⟩ := Option.bind_eq_some_iff.mp h
  cases h
  have hsame := lift_slabs hreplace
  exact (repoint_chunks_slabs hpoint).trans hsame

theorem rescue_chunk_slabs {ch nch : Nat} (h : m.rescue_chunk ch it nch = some m') : m'.slabs = m.slabs := by
  obtain ⟨prev, -, h⟩ := Option.bind_eq_some_iff.mp h
  cases h
  exact modify_chunk?_slabs

theorem progressed_new_piece {expired : Bool} {r : Option Nat} (h : m.new_piece expired size = some (m', r)) :
    Progressed m.slabs m'.slabs := by
  simp only [new_piece] at h
  split at h
  · cases h; exact .of_erase rfl
  · exact progressed_alloc_loop h

theorem progressed_unlink_item (h : m.unlink_item cfg it = some m') : Progressed m.slabs m'.slabs := by
  obtain ⟨m₁, hunlink, hfree⟩ := Option.bind_eq_some_iff.mp h
  exact (progressed_of_eq (lift_slabs hunlink)).trans (progressed_do_slabs_free hfree)

theorem progressed_move_from_lru {s_cls : Nat} {k : Moved} (h : m.move_from_lru cfg s_cls n it = some (m', k)) :
    Progressed m.slabs m'.slabs := by
  obtain ⟨⟨m₁, r⟩, halloc, h⟩ := Option.bind_eq_some_iff.mp h
  refine (progressed_new_piece halloc).trans ?_
  cases r with
  | some new_it =>
      dsimp only at h
      split at h
      · obtain ⟨m₂, hrescue, h⟩ := Option.bind_eq_some_iff.mp h
        cases h
        exact (progressed_of_eq (rescue_chunk_slabs hrescue)).trans
          (progressed_modify_class fun p => ⟨rfl, rfl, rfl, rfl, rfl⟩)
      · obtain ⟨m₂, hrescue, h⟩ := Option.bind_eq_some_iff.mp h
        cases h
        exact (progressed_of_eq (rescue_item_slabs hrescue)).trans
          (progressed_modify_class fun p => ⟨rfl, rfl, rfl, rfl, rfl⟩)
  | none =>
      obtain ⟨m₂, hunlink, h⟩ := Option.bind_eq_some_iff.mp h
      cases h
      exact (progressed_unlink_item hunlink).trans ⟨_, rfl, rfl, rfl, rfl⟩

theorem progressed_move_piece {copy : MoveCopy} {lock : Bool} {k : Moved}
    (h : m.move_piece cfg copy lock = some (m', k)) : Progressed m.slabs m'.slabs := by
  simp only [move_piece] at h
  obtain ⟨⟨n, it⟩, -, h⟩ := Option.bind_eq_some_iff.mp h
  dsimp only at h
  split at h
  · cases h; exact .of_erase rfl
  split at h
  · split at h
    · cases h
    obtain ⟨m₁, hcut, h⟩ := Option.bind_eq_some_iff.mp h
    cases h
    exact (progressed_cut_free hcut).trans (progressed_of_eq clear_move_slabs)
  split at h
  · split at h
    · cases h; exact progressed_count_busy
    split at h
    · have hmoved := progressed_move_from_lru h
      exact hmoved
    split at h
    · obtain ⟨m₁, hunlink, h⟩ := Option.bind_eq_some_iff.mp h
      cases h
      have hsame := lift_slabs hunlink
      exact (progressed_of_eq (m := m) hsame).trans ⟨_, rfl, rfl, rfl, rfl⟩
    · cases h
      exact ⟨_, rfl, rfl, rfl, rfl⟩
  · cases h; exact progressed_count_busy

end Memory

end Memcached.MemoryLru

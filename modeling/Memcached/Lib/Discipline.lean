import Mathlib.Data.List.Basic

/-!
# Lock discipline

A thread takes and gives back mutexes, changes what a mutex guards, and reads objects of which it may hold a reference.
What it does is a list of actions; two monitors say which lists are as they should be.
-/

namespace Discipline

universe u v w

inductive Action (M : Type u) (G : Type v) (O : Type w)
  | lock (m : M)
  | unlock (m : M)
  /-- What is guarded changes. -/
  | change (g : G)
  /-- The object is met anew. -/
  | find (o : O)
  | read (o : O)
  /-- The reference of the thread is given up. -/
  | drop (o : O)
  deriving DecidableEq

variable {M : Type u} {G : Type v} {O : Type w} {guard : G → M} {as bs : List (Action M G O)}

/-! ## Mutexes -/

section
variable [DecidableEq M] {held : List M}

/-- What a thread holds after an action. -/
def held_after (held : List M) : Action M G O → List M
  | .lock m => m :: held
  | .unlock m => held.erase m
  | _ => held

/-- What is changed is guarded, what is unlocked is held, and nothing is locked twice. -/
def Locked (guard : G → M) : List M → List (Action M G O) → Prop
  | _, [] => True
  | held, .lock m :: as => m ∉ held ∧ Locked guard (m :: held) as
  | held, .unlock m :: as => m ∈ held ∧ Locked guard (held.erase m) as
  | held, .change g :: as => guard g ∈ held ∧ Locked guard held as
  | held, .find _ :: as => Locked guard held as
  | held, .read _ :: as => Locked guard held as
  | held, .drop _ :: as => Locked guard held as

theorem locked_append : Locked guard held (as ++ bs) ↔
    Locked guard held as ∧ Locked guard (as.foldl held_after held) bs := by
  induction as generalizing held with
  | nil => simp [Locked]
  | cons a as ih => cases a <;> simp only [List.cons_append, Locked, ih, List.foldl_cons, held_after, and_assoc]

/-- The mutexes that are taken, in order. -/
def taken (as : List (Action M G O)) : List M :=
  as.filterMap fun
    | .lock m => some m
    | _ => none

def released (as : List (Action M G O)) : List M :=
  as.filterMap fun
    | .unlock m => some m
    | _ => none

/-- Each mutex is given back as often as it is taken. -/
def Balanced (as : List (Action M G O)) : Prop := (taken as).Perm (released as)

omit [DecidableEq M] in
theorem Balanced.append (h : Balanced as) (h' : Balanced bs) : Balanced (as ++ bs) := by
  rw [Balanced, taken, released, List.filterMap_append, List.filterMap_append]
  exact List.Perm.append h h'

/-- The discipline is kept, and what is held at the end is what was held before. -/
structure Within (guard : G → M) (held : List M) (as : List (Action M G O)) : Prop where
  locked : Locked guard held as
  held_same : as.foldl held_after held = held
  balanced : Balanced as

theorem Within.nil : Within guard held ([] : List (Action M G O)) := ⟨trivial, rfl, .refl _⟩

theorem Within.append (h : Within guard held as) (h' : Within guard held bs) : Within guard held (as ++ bs) where
  locked := locked_append.mpr ⟨h.locked, by rw [h.held_same]; exact h'.locked⟩
  held_same := by rw [List.foldl_append, h.held_same, h'.held_same]
  balanced := h.balanced.append h'.balanced

theorem Within.around {m : M} (h : Within guard (m :: held) as) (hm : m ∉ held) :
    Within guard held (.lock m :: as ++ [.unlock m]) where
  locked := by
    rw [List.cons_append]
    exact ⟨hm, locked_append.mpr ⟨h.locked, by rw [h.held_same]; exact ⟨List.mem_cons_self, trivial⟩⟩⟩
  held_same := by
    rw [List.cons_append, List.foldl_cons, List.foldl_append]
    simp only [held_after, h.held_same, List.foldl_cons, List.foldl_nil, List.erase_cons_head]
  balanced := by
    have hperm : (m :: taken as).Perm (released as ++ [m]) :=
      (h.balanced.cons m).trans (List.perm_append_singleton m (released as)).symm
    simpa [Balanced, taken, released] using hperm

end

/-! ## References -/

section
variable [DecidableEq O] {dropped : List O}

/-- The objects that were given up and not met since, after an action. -/
def dropped_after (dropped : List O) : Action M G O → List O
  | .find o => dropped.filter (· ≠ o)
  | .drop o => o :: dropped
  | _ => dropped

/-- No object is read after it was given up. -/
def Live : List O → List (Action M G O) → Prop
  | _, [] => True
  | dropped, .find o :: as => Live (dropped.filter (· ≠ o)) as
  | dropped, .read o :: as => o ∉ dropped ∧ Live dropped as
  | dropped, .drop o :: as => Live (o :: dropped) as
  | dropped, .lock _ :: as => Live dropped as
  | dropped, .unlock _ :: as => Live dropped as
  | dropped, .change _ :: as => Live dropped as

theorem live_append : Live dropped (as ++ bs) ↔ Live dropped as ∧ Live (as.foldl dropped_after dropped) bs := by
  induction as generalizing dropped with
  | nil => simp [Live]
  | cons a as ih => cases a <;> simp only [List.cons_append, Live, ih, List.foldl_cons, dropped_after, and_assoc]

end

end Discipline

import Mathlib.Logic.Function.Basic

/-!
# Objects that are made, used and done away with

An object is made, built once, given out and taken back any number of times, torn down and disposed of. What happens to
objects is a list of marks; a monitor keeps the phase of each object and says which lists are as they should be.
-/

namespace Lifecycle

open Function (update update_self update_of_ne)

universe u

inductive Phase
  | absent
  /-- It has to be built. -/
  | made
  | idle
  | used
  | torn
  deriving DecidableEq

inductive Mark (α : Type u)
  /-- `build`: it has to be built before it is used. -/
  | make (o : α) (build : Bool)
  | build (o : α) (ok : Bool)
  | give (o : α)
  | take (o : α)
  | tear (o : α)
  /-- `tear`: an object that was built has to be torn down first. -/
  | dispose (o : α) (tear : Bool)
  deriving DecidableEq

variable {α : Type u}

def Mark.object : Mark α → α
  | make o _ | build o _ | give o | take o | tear o | dispose o _ => o

/-- The phase after a mark; `none` if the mark must not be there. -/
def Phase.after : Phase → Mark α → Option Phase
  | absent, .make _ build => some (if build then made else idle)
  | made, .build _ ok => some (if ok then idle else torn)
  | idle, .give _ => some used
  | used, .take _ => some idle
  | idle, .tear _ => some torn
  | idle, .dispose _ false => some absent
  | torn, .dispose _ _ => some absent
  | _, _ => none

variable [DecidableEq α] {phase phase' phase'' : α → Phase} {m : Mark α} {ms ns : List (Mark α)}

def step (phase : α → Phase) (m : Mark α) : Option (α → Phase) :=
  ((phase m.object).after m).map (update phase m.object)

def run (phase : α → Phase) (ms : List (Mark α)) : Option (α → Phase) := ms.foldlM step phase

@[simp] theorem run_nil : run phase ([] : List (Mark α)) = some phase := rfl

theorem run_append : run phase (ms ++ ns) = (run phase ms).bind fun phase => run phase ns := by
  simp only [run, List.foldlM_append]
  rfl

theorem run_trans (h : run phase ms = some phase') (h' : run phase' ns = some phase'') :
    run phase (ms ++ ns) = some phase'' := by
  rw [run_append, h]
  exact h'

theorem run_cons {p : Phase} (h : (phase m.object).after m = some p) (h' : run (update phase m.object p) ms = some phase') :
    run phase (m :: ms) = some phase' := by
  rw [run, List.foldlM_cons]
  simp only [step, h, Option.map_some]
  exact h'

/-- The marks of one object that is built, or need not be. -/
theorem run_make {o : α} (h : phase o = .absent) (build : Bool) :
    run phase (.make o build :: if build then [.build o true] else []) = some (update phase o .idle) := by
  cases build with
  | false => exact run_cons (p := .idle) (by simp [Mark.object, h, Phase.after]) rfl
  | true =>
      refine run_cons (p := .made) (by simp [Mark.object, h, Phase.after]) (run_cons (p := .idle) ?_ ?_)
      · simp [Mark.object, Phase.after]
      · simp [Mark.object]

theorem run_dispose {o : α} (h : phase o = .idle) (tear : Bool) :
    run phase ((if tear then [.tear o] else []) ++ [.dispose o tear]) = some (update phase o .absent) := by
  cases tear with
  | false => exact run_cons (p := .absent) (by simp [Mark.object, h, Phase.after]) rfl
  | true =>
      refine run_cons (p := .torn) (by simp [Mark.object, h, Phase.after]) (run_cons (p := .absent) ?_ ?_)
      · simp [Mark.object, Phase.after]
      · simp [Mark.object]

end Lifecycle

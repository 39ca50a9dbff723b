import Mathlib.Data.List.Basic

/-!
# Calls under a pattern of faults

Calls are numbered in the order in which they are made, and `ok` says which succeed. A plan says, call by call, whether
its failure is checked: a checked call that fails ends the sequence, an unchecked one does not.
-/

namespace Faults

/-- A plan from call `k` on: the number of the next call, and whether the plan was carried out. -/
def run (ok : Nat → Bool) : Nat → List Bool → Nat × Bool
  | k, [] => (k, true)
  | k, checked :: plan => if checked && !ok k then (k + 1, false) else run ok (k + 1) plan

section
variable {ok : Nat → Bool} {k : Nat} {plan plan' : List Bool}

theorem run_append : run ok k (plan ++ plan') =
    if (run ok k plan).2 then run ok (run ok k plan).1 plan' else run ok k plan := by
  induction plan generalizing k with
  | nil => rfl
  | cons checked plan ih =>
      rw [List.cons_append, run, run]
      split
      · rfl
      · exact ih

theorem run_fst (h : (run ok k plan).2 = true) : (run ok k plan).1 = k + plan.length := by
  induction plan generalizing k with
  | nil => rfl
  | cons checked plan ih =>
      rw [run] at h ⊢
      split at h
      · cases h
      next hc =>
        rw [if_neg hc, ih h, List.length_cons]
        omega

theorem run_snd : (run ok k plan).2 = true ↔ ∀ i, plan[i]? = some true → ok (k + i) = true := by
  induction plan generalizing k with
  | nil => simp [run]
  | cons checked plan ih =>
      have hrest : (run ok (k + 1) plan).2 = true ↔ ∀ i, plan[i]? = some true → ok (k + (i + 1)) = true := by
        simpa only [Nat.add_assoc, Nat.add_comm 1] using @ih (k + 1)
      rw [run]
      constructor
      · intro h i hi
        split at h
        · cases h
        next hc =>
          cases i with
          | zero => simp_all
          | succ i => exact hrest.mp h i hi
      · intro h
        have hfirst : checked = true → ok k = true := fun hc => h 0 (by simp [hc])
        rw [if_neg (by simpa using hfirst)]
        exact hrest.mpr fun i hi => h (i + 1) hi

theorem run_of_ok (h : ∀ i, k ≤ i → ok i = true) : run ok k plan = (k + plan.length, true) := by
  have hsnd := run_snd.mpr fun i (_ : plan[i]? = some true) => h (k + i) (Nat.le_add_right ..)
  exact Prod.ext (run_fst hsnd) hsnd

theorem run_fault (h : (run ok k plan).2 = false) : ∃ j, k ≤ j ∧ ok j = false ∧ run ok k plan = (j + 1, false) := by
  induction plan generalizing k with
  | nil => cases h
  | cons checked plan ih =>
      rw [run] at h ⊢
      split at h
      next hc =>
        rw [if_pos hc]
        exact ⟨k, Nat.le_refl k, by simpa using (Bool.and_eq_true_iff.mp hc).2, rfl⟩
      next hc =>
        rw [if_neg hc]
        obtain ⟨j, hj, hok, he⟩ := ih h
        exact ⟨j, Nat.le_of_succ_le hj, hok, he⟩

end

/-! ## Operations that follow a plan -/

/-- The operation `op` makes the calls of `plan`, where `count` is how many calls were made. -/
def Follows {σ : Type} (ok : Nat → Bool) (count : σ → Nat) (plan : List Bool) (op : σ → σ × Bool) : Prop :=
  ∀ s, (count (op s).1, (op s).2) = run ok (count s) plan

section
variable {σ : Type} {ok : Nat → Bool} {count : σ → Nat} {plan plan' : List Bool} {op op' : σ → σ × Bool}

theorem Follows.fst (h : Follows ok count plan op) (s : σ) : count (op s).1 = (run ok (count s) plan).1 :=
  congrArg Prod.fst (h s)

theorem Follows.snd (h : Follows ok count plan op) (s : σ) : (op s).2 = (run ok (count s) plan).2 :=
  congrArg Prod.snd (h s)

/-- One operation after another, where a failure of the first is cleaned up. -/
theorem Follows.bind (h : Follows ok count plan op) (h' : Follows ok count plan' op') {undo : σ → σ}
    (hundo : ∀ s, count (undo s) = count s) :
    Follows ok count (plan ++ plan') fun s => if !(op s).2 then (undo (op s).1, false) else op' (op s).1 := by
  intro s
  have hs := h s
  rw [run_append, ← hs]
  cases hok : (op s).2 with
  | true => simpa [hok] using h' (op s).1
  | false => simp [hok, hundo]

end

/-- Where `op` succeeds, it changes what `view` shows as `f` does. -/
def Yields {σ τ : Type} (view : σ → τ) (f : τ → τ) (op : σ → σ × Bool) : Prop :=
  ∀ s, (op s).2 = true → view (op s).1 = f (view s)

theorem Yields.bind {σ τ : Type} {view : σ → τ} {f g : τ → τ} {op op' : σ → σ × Bool} (h : Yields view f op)
    (h' : Yields view g op') (undo : σ → σ) :
    Yields view (fun t => g (f t)) fun s => if !(op s).2 then (undo (op s).1, false) else op' (op s).1 := by
  intro s hs
  cases hok : (op s).2 with
  | true =>
      simp only [hok] at hs ⊢
      exact (h' (op s).1 hs).trans (congrArg g (h s hok))
  | false => simp [hok] at hs

end Faults

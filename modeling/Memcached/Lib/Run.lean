/-!
# Runs of a labelled step relation

A system is a relation `Step s e s'` between states, labelled by what happened. `Run Step s es t` chains
steps; an invariant is shown once per step and then holds in every state a run reaches.
-/

namespace Transition

universe u v

variable {σ : Type u} {ε : Type v} {Step Step' : σ → ε → σ → Prop}

/-- From `s`, the steps labelled `es`, in this order, lead to `t`. -/
inductive Run (Step : σ → ε → σ → Prop) : σ → List ε → σ → Prop
  | nil (s : σ) : Run Step s [] s
  | cons {s s' t : σ} {e : ε} {es : List ε} (h : Step s e s') (hs : Run Step s' es t) : Run Step s (e :: es) t

theorem run_cons {s t : σ} {e : ε} {es : List ε} :
    Run Step s (e :: es) t ↔ ∃ s', Step s e s' ∧ Run Step s' es t := by
  constructor
  · intro h
    cases h with
    | cons hstep hrun => exact ⟨_, hstep, hrun⟩
  · rintro ⟨s', hstep, hrun⟩
    exact .cons hstep hrun

theorem Run.append {s t u : σ} {es fs : List ε} (h : Run Step s es t) (h' : Run Step t fs u) :
    Run Step s (es ++ fs) u := by
  induction h with
  | nil _ => exact h'
  | cons hstep _ ih => exact .cons hstep (ih h')

theorem Run.snoc {s t u : σ} {es : List ε} {e : ε} (h : Run Step s es t) (h' : Step t e u) :
    Run Step s (es ++ [e]) u :=
  h.append (.cons h' (.nil u))

theorem Run.invariant {P : σ → Prop} (hstep : ∀ {s e s'}, P s → Step s e s' → P s')
    {s t : σ} {es : List ε} (h : Run Step s es t) (hs : P s) : P t := by
  induction h with
  | nil _ => exact hs
  | cons hst _ ih => exact ih (hstep hs hst)

theorem Run.mono (hle : ∀ {s e s'}, Step s e s' → Step' s e s') {s t : σ} {es : List ε}
    (h : Run Step s es t) : Run Step' s es t := by
  induction h with
  | nil s => exact .nil s
  | cons hst _ ih => exact .cons (hle hst) ih

/-! ## Guarded functions

A system whose step is a function under a guard: a list of events is a run if each guard holds in its turn. -/

variable {ok : σ → ε → Prop} {f : σ → ε → σ}

def Guarded (ok : σ → ε → Prop) (f : σ → ε → σ) : σ → List ε → Prop
  | _, [] => True
  | s, e :: es => ok s e ∧ Guarded ok f (f s e) es

instance Guarded.decide [∀ s e, Decidable (ok s e)] : ∀ (es : List ε) (s : σ), Decidable (Guarded ok f s es)
  | [], _ => isTrue trivial
  | e :: es, s => @instDecidableAnd _ _ _ (Guarded.decide es (f s e))

theorem Guarded.run {es : List ε} : ∀ {s : σ}, Guarded ok f s es →
    Run (fun s e s' => ok s e ∧ s' = f s e) s es (es.foldl f s) := by
  induction es with
  | nil => exact fun {s} _ => .nil s
  | cons e es ih => exact fun h => .cons ⟨h.1, rfl⟩ (ih h.2)

/-! ## Partial functions

A system whose step is a function that is undefined where the event cannot happen. -/

theorem Run.of_foldlM {g : σ → ε → Option σ} {es : List ε} {s t : σ} (h : es.foldlM g s = some t) :
    Run (fun s e s' => g s e = some s') s es t := by
  induction es generalizing s with
  | nil =>
      obtain rfl := Option.some.inj h
      exact .nil s
  | cons e es ih =>
      rw [List.foldlM_cons] at h
      obtain ⟨s', hs, ht⟩ := Option.bind_eq_some_iff.mp h
      exact .cons hs (ih ht)

/-- Steps under a condition that can be decided. -/
theorem Run.of_guarded_foldlM [∀ s e, Decidable (ok s e)] {g : σ → ε → Option σ} {es : List ε} {s t : σ}
    (h : es.foldlM (fun s e => if ok s e then g s e else none) s = some t) :
    Run (fun s e s' => g s e = some s' ∧ ok s e) s es t := by
  refine (Run.of_foldlM h).mono fun hstep => ?_
  obtain ⟨hok, hg⟩ := Option.ite_none_right_eq_some.mp hstep
  exact ⟨hg, hok⟩

end Transition

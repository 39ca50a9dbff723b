import Mathlib.Data.List.Basic
import Memcached.Lib.Memory
import Memcached.Lib.Run

/-!
# Readers of a stream

A reader holds what has come in and has not been looked at, and knows its place in the stream. A step takes in more at the
end and passes over some at the front; a run of such steps loses nothing and changes no order.
-/

namespace Transition

universe u v w

variable {α : Type w}

/-- What a step does to what is unread: `got` comes after it, and what lies between the two places comes off its front. -/
structure Reads (unread : List α) (pos : Nat) (got unread' : List α) (pos' : Nat) : Prop where
  forward : pos ≤ pos'
  within : pos' - pos ≤ unread.length + got.length
  unread : unread' = (unread ++ got).drop (pos' - pos)

namespace Reads

variable {us us' us'' got got' : List α} {p p' p'' n : Nat}

theorem refl : Reads us p [] us p := ⟨Nat.le_refl p, by simp, by simp⟩

theorem take_in : Reads us p got (us ++ got) p := ⟨Nat.le_refl p, by simp, by simp⟩

theorem pass_over (h : n ≤ us.length) : Reads us p [] (us.drop n) (p + n) :=
  ⟨Nat.le_add_right p n, by simpa using h, by simp⟩

/-- What is taken in is passed over at once. -/
theorem through : Reads [] p got [] (p + got.length) := ⟨Nat.le_add_right p _, by simp, by simp⟩

theorem length (h : Reads us p got us' p') : p' + us'.length = p + us.length + got.length := by
  have hwithin := h.within
  have hforward := h.forward
  rw [h.unread, List.length_drop, List.length_append]
  omega

theorem trans (h : Reads us p got us' p') (h' : Reads us' p' got' us'' p'') : Reads us p (got ++ got') us'' p'' where
  forward := h.forward.trans h'.forward
  within := by
    have hlength := h.length
    have hwithin := h'.within
    have hforward := h'.forward
    rw [List.length_append]
    omega
  unread := by
    have hwithin := h.within
    have hdrop : p'' - p = p' - p + (p'' - p') := by
      have := h.forward
      have := h'.forward
      omega
    have hfront : (us ++ got ++ got').drop (p' - p) = (us ++ got).drop (p' - p) ++ got' :=
      List.drop_append_of_le_length (by rw [List.length_append]; exact hwithin)
    rw [h'.unread, h.unread, hdrop, ← List.drop_drop, ← List.append_assoc us, hfront]

/-- A reader of a stream holds a part of it. -/
theorem stream {stream : Nat → α} (h : Reads us p got us' p') (hus : us = Memory.read stream p us.length)
    (hgot : got = Memory.read stream (p + us.length) got.length) : us' = Memory.read stream p' us'.length := by
  have hwithin := h.within
  have hall : us ++ got = Memory.read stream p (us.length + got.length) := by
    rw [Memory.read_add, ← hus, ← hgot]
  have hplace : p + (p' - p) = p' := Nat.add_sub_of_le h.forward
  rw [h.unread, hall, Memory.drop_read hwithin, hplace, Memory.length_read]

end Reads

/-- If each step reads, then so does a run. -/
theorem Run.reads {σ : Type u} {ε : Type v} {Step : σ → ε → σ → Prop} {P : σ → Prop} {unread : σ → List α} {pos : σ → Nat}
    {got : ε → List α}
    (hstep : ∀ {s e s'}, P s → Step s e s' → P s' ∧ Reads (unread s) (pos s) (got e) (unread s') (pos s'))
    {s t : σ} {es : List ε} (h : Run Step s es t) (hs : P s) :
    P t ∧ Reads (unread s) (pos s) (es.flatMap got) (unread t) (pos t) := by
  induction h with
  | nil s => exact ⟨hs, .refl⟩
  | cons hst _ ih =>
      obtain ⟨hs', hreads⟩ := hstep hs hst
      obtain ⟨ht, hrest⟩ := ih hs'
      exact ⟨ht, hreads.trans hrest⟩

end Transition

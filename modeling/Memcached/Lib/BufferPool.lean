import Mathlib.Data.Multiset.Range
import Memcached.Lib.Totals

/-!
# A pool of buffers that are written behind

An owner takes a buffer off a stack and fills it. A full one is handed to a worker with a ticket, and the worker puts
the buffer and the ticket back. With as many tickets as buffers, a ticket is left for each buffer that is not full.
-/

namespace BufferPool

open Function (update update_self update_of_ne)
open Ownership (Apart gathered gathered_arrive gathered_congr mem_gathered)

universe u v w

variable {ι : Type u} {κ : Type v} {α : Type w}

structure Pool (ι : Type u) (κ : Type v) (α : Type w) where
  held : ι → Option α
  full : α → Bool
  stack : List α
  tickets : Nat
  queue : κ → List (ι × α)

def Pool.attached (P : Pool ι κ α) (i : ι) : List α := (P.held i).toList

def Pool.queued (P : Pool ι κ α) (k : κ) : List α := (P.queue k).map Prod.snd

variable {s : Finset ι} {t : Finset κ} {buffers : Multiset α} {n : Nat} {P Q : Pool ι κ α} {i : ι} {k : κ} {a : α}

structure Ok (s : Finset ι) (t : Finset κ) (buffers : Multiset α) (n : Nat) (P : Pool ι κ α) : Prop where
  holder : ∀ i a, P.held i = some a → i ∈ s
  buffers : (P.stack : Multiset α) + gathered s P.attached = buffers
  tickets : P.tickets + (gathered t P.queued).card = n
  apart : Apart P.queued
  queued : ∀ k i a, (i, a) ∈ P.queue k → P.held i = some a ∧ P.full a = true

/-- At the start. -/
theorem Ok.start (hheld : ∀ i, P.held i = none) (hqueue : ∀ k, P.queue k = []) :
    Ok s t (P.stack : Multiset α) P.tickets P := by
  have hattached (i : ι) : P.attached i = [] := by simp [Pool.attached, hheld i]
  have hqueued (k : κ) : P.queued k = [] := by simp [Pool.queued, hqueue k]
  refine ⟨fun i a h => ?_, ?_, ?_, ⟨fun k => ?_, fun {k l a} h => ?_⟩, fun k i a h => ?_⟩
  · rw [hheld i] at h
    cases h
  · rw [Ownership.gathered_empty fun i _ => hattached i, add_zero]
  · rw [Ownership.gathered_empty fun k _ => hqueued k]
    rfl
  · rw [hqueued k]
    exact List.nodup_nil
  · rw [hqueued k] at h
    cases h
  · rw [hqueue k] at h
    cases h

theorem mem_attached : a ∈ P.attached i ↔ P.held i = some a := Option.mem_toList

theorem Ok.not_stacked (h : Ok s t buffers n P) (hnd : buffers.Nodup) (hheld : P.held i = some a) : a ∉ P.stack := by
  intro hstack
  rw [← h.buffers, Multiset.nodup_add] at hnd
  have ha : a ∈ gathered s P.attached := mem_gathered.mpr ⟨i, h.holder i a hheld, mem_attached.mpr hheld⟩
  exact Multiset.disjoint_left.mp hnd.2.2 (Multiset.mem_coe.mpr hstack) ha

theorem mem_queued : a ∈ P.queued k ↔ ∃ i, (i, a) ∈ P.queue k := by simp [Pool.queued]

theorem Ok.full (h : Ok s t buffers n P) (ha : a ∈ P.queued k) : P.full a = true := by
  obtain ⟨i, hi⟩ := mem_queued.mp ha
  exact (h.queued k i a hi).2

/-! ## Steps -/

/-- What the owners `s` and the workers `t` do. -/
inductive Step [DecidableEq ι] [DecidableEq κ] [DecidableEq α] (s : Finset ι) (t : Finset κ) (P : Pool ι κ α) :
    Pool ι κ α → Prop
  | take {i : ι} {a : α} {rest : List α} (hi : i ∈ s) (hheld : P.held i = none) (hstack : P.stack = a :: rest) :
      Step s t P { P with held := update P.held i (some a), full := update P.full a false, stack := rest }
  | submit {i : ι} {k : κ} {a : α} (hk : k ∈ t) (hheld : P.held i = some a) (hfull : P.full a = false)
      (hticket : 0 < P.tickets) :
      Step s t P { P with
        full := update P.full a true, tickets := P.tickets - 1, queue := update P.queue k (P.queue k ++ [(i, a)]) }
  | give_back {i : ι} {k : κ} {a : α} {rest : List (ι × α)} (hk : k ∈ t) (hqueue : P.queue k = (i, a) :: rest) :
      Step s t P { P with
        held := update P.held i none, stack := a :: P.stack, tickets := P.tickets + 1, queue := update P.queue k rest }

theorem Ok.take [DecidableEq ι] [DecidableEq α] (h : Ok s t buffers n P) (hnd : buffers.Nodup) {rest : List α} (hi : i ∈ s)
    (hheld : P.held i = none) (hstack : P.stack = a :: rest) :
    Ok s t buffers n
      { P with held := update P.held i (some a), full := update P.full a false, stack := rest } := by
  let Q : Pool ι κ α := { P with held := update P.held i (some a), full := update P.full a false, stack := rest }
  refine ⟨fun j b hj => ?_, ?_, h.tickets, h.apart, fun k j b hk => ?_⟩
  · by_cases hji : j = i
    · exact hji ▸ hi
    · dsimp only at hj
      rw [update_of_ne hji] at hj
      exact h.holder j b hj
  · have hall : gathered s Q.attached = ([a] : List α) + gathered s P.attached :=
      gathered_arrive hi (by simp [Q, Pool.attached, hheld]) fun j hj => by simp [Q, Pool.attached, hj]
    show (rest : Multiset α) + gathered s Q.attached = buffers
    rw [hall, ← h.buffers, hstack, ← add_assoc, add_comm (rest : Multiset α)]
    rfl
  · obtain ⟨hj, hb⟩ := h.queued k j b hk
    have hji : j ≠ i := by
      rintro rfl
      rw [hheld] at hj
      cases hj
    have hba : b ≠ a := by
      rintro rfl
      exact h.not_stacked hnd hj (hstack ▸ List.mem_cons_self)
    dsimp only
    rw [update_of_ne hji, update_of_ne hba]
    exact ⟨hj, hb⟩

theorem Ok.submit [DecidableEq κ] [DecidableEq α] (h : Ok s t buffers n P) (hk : k ∈ t) (hheld : P.held i = some a)
    (hfull : P.full a = false) (hticket : 0 < P.tickets) :
    Ok s t buffers n { P with
      full := update P.full a true, tickets := P.tickets - 1, queue := update P.queue k (P.queue k ++ [(i, a)]) } := by
  have hnew (l : κ) : a ∉ P.queued l := by
    intro ha
    rw [h.full ha] at hfull
    cases hfull
  let Q : Pool ι κ α := { P with
    full := update P.full a true, tickets := P.tickets - 1, queue := update P.queue k (P.queue k ++ [(i, a)]) }
  have hself : (Q.queued k).Perm ([a] ++ P.queued k) := by
    simp only [Q, Pool.queued, update_self, List.map_append, List.map_cons, List.map_nil]
    exact List.perm_append_singleton a _
  have hrest (l : κ) (hl : l ≠ k) : Q.queued l = P.queued l := by simp only [Q, Pool.queued, update_of_ne hl]
  refine ⟨h.holder, h.buffers, ?_, ?_, fun l j b hl => ?_⟩
  · show P.tickets - 1 + (gathered t Q.queued).card = n
    rw [gathered_arrive hk hself hrest, ← h.tickets, Multiset.card_add]
    show P.tickets - 1 + (1 + _) = _
    omega
  · refine h.apart.arrive (List.nodup_singleton a) (fun b hb l => ?_) hself hrest
    rw [List.mem_singleton.mp hb]
    exact hnew l
  · have hold (hl : (j, b) ∈ P.queue l) : P.held j = some b ∧ update P.full a true b = true := by
      obtain ⟨hj, hb⟩ := h.queued l j b hl
      refine ⟨hj, ?_⟩
      by_cases hba : b = a
      · rw [hba, update_self]
      · rw [update_of_ne hba]
        exact hb
    by_cases hlk : l = k
    · subst hlk
      simp only [update_self, List.mem_append, List.mem_singleton] at hl
      rcases hl with hl | hl
      · exact hold hl
      · obtain ⟨rfl, rfl⟩ := Prod.mk.inj hl
        exact ⟨hheld, update_self ..⟩
    · simp only [update_of_ne hlk] at hl
      exact hold hl

theorem Ok.give_back [DecidableEq ι] [DecidableEq κ] (h : Ok s t buffers n P) {rest : List (ι × α)} (hk : k ∈ t)
    (hqueue : P.queue k = (i, a) :: rest) :
    Ok s t buffers n { P with
      held := update P.held i none, stack := a :: P.stack, tickets := P.tickets + 1, queue := update P.queue k rest } := by
  let Q : Pool ι κ α := { P with
    held := update P.held i none, stack := a :: P.stack, tickets := P.tickets + 1, queue := update P.queue k rest }
  have hheld := (h.queued k i a (hqueue ▸ List.mem_cons_self)).1
  have hself : (P.queued k).Perm ([a] ++ Q.queued k) := by
    simp only [Q, Pool.queued, hqueue, update_self, List.map_cons]
    exact .refl _
  have hrest (l : κ) (hl : l ≠ k) : P.queued l = Q.queued l := by simp only [Q, Pool.queued, update_of_ne hl]
  have hnd : ([a] ++ Q.queued k).Nodup := hself.nodup_iff.mp (h.apart.nodup k)
  have hsub {b : α} {l : κ} (hb : b ∈ Q.queued l) : b ∈ P.queued l := by
    by_cases hl : l = k
    · subst hl
      exact hself.mem_iff.mpr (List.mem_append_right _ hb)
    · rw [hrest l hl]
      exact hb
  have hgone (l : κ) : a ∉ Q.queued l := by
    intro ha
    have hl : l = k := h.apart.place (hsub ha) (hself.mem_iff.mpr List.mem_cons_self)
    subst hl
    exact (List.nodup_cons.mp hnd).1 ha
  refine ⟨fun j b hj => ?_, ?_, ?_, ⟨fun l => ?_, fun hl hm => h.apart.place (hsub hl) (hsub hm)⟩, fun l j b hl => ?_⟩
  · by_cases hji : j = i
    · subst hji
      simp at hj
    · simp only [update_of_ne hji] at hj
      exact h.holder j b hj
  · have hall : gathered s P.attached = ([a] : List α) + gathered s Q.attached :=
      gathered_arrive (h.holder i a hheld) (by simp [Q, Pool.attached, hheld]) fun j hj => by simp [Q, Pool.attached, hj]
    show ((a :: P.stack : List α) : Multiset α) + gathered s Q.attached = buffers
    rw [← h.buffers, hall, add_left_comm, ← add_assoc]
    rfl
  · show P.tickets + 1 + (gathered t Q.queued).card = n
    rw [← h.tickets, gathered_arrive hk hself hrest, Multiset.card_add]
    exact Nat.add_assoc ..
  · by_cases hlk : l = k
    · subst hlk
      exact (List.nodup_cons.mp hnd).2
    · exact hrest l hlk ▸ h.apart.nodup l
  · have hb : b ∈ Q.queued l := mem_queued.mpr ⟨j, hl⟩
    have hba : b ≠ a := fun hba => hgone l (hba ▸ hb)
    have hold : (j, b) ∈ P.queue l := by
      by_cases hlk : l = k
      · subst hlk
        simp only [update_self] at hl
        exact hqueue ▸ List.mem_cons_of_mem _ hl
      · simpa only [update_of_ne hlk] using hl
    obtain ⟨hj, hfull⟩ := h.queued l j b hold
    have hji : j ≠ i := by
      rintro rfl
      exact hba (Option.some.inj (hj.symm.trans hheld))
    dsimp only
    rw [update_of_ne hji]
    exact ⟨hj, hfull⟩

theorem Ok.step [DecidableEq ι] [DecidableEq κ] [DecidableEq α] (h : Ok s t buffers n P) (hnd : buffers.Nodup)
    (hstep : Step s t P Q) : Ok s t buffers n Q := by
  cases hstep with
  | take hi hheld hstack => exact h.take hnd hi hheld hstack
  | submit hk hheld hfull hticket => exact h.submit hk hheld hfull hticket
  | give_back hk hqueue => exact h.give_back hk hqueue

/-- The queued buffers are full and attached, so they are fewer than the buffers there are. -/
theorem Ok.ticket_left [DecidableEq κ] (h : Ok s t buffers n P) (hn : buffers.card ≤ n) (hheld : P.held i = some a)
    (hfull : P.full a = false) : 0 < P.tickets := by
  have hlt : (gathered t P.queued).card < (gathered s P.attached).card := by
    refine h.apart.card_gathered_lt (fun k _ b hb => ?_)
      (mem_gathered.mpr ⟨i, h.holder i a hheld, mem_attached.mpr hheld⟩) fun k _ ha => ?_
    · obtain ⟨j, hj⟩ := mem_queued.mp hb
      have hj := (h.queued k j b hj).1
      exact mem_gathered.mpr ⟨j, h.holder j b hj, mem_attached.mpr hj⟩
    · rw [h.full ha] at hfull
      cases hfull
  have hle : (gathered s P.attached).card ≤ buffers.card := by
    rw [← h.buffers, Multiset.card_add]
    exact Nat.le_add_left ..
  have htickets := h.tickets
  omega

end BufferPool

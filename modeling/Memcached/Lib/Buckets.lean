import Mathlib.Algebra.Order.Ring.Int
import Mathlib.Algebra.BigOperators.Group.List.Basic
import Mathlib.Data.List.Basic
import Mathlib.Logic.Function.Basic

/-!
# Chained hash tables

A table is a chain of entries for each slot. It represents a map if the chain of a key's slot holds the entry of the key,
and no other chain does.
-/

namespace Buckets

universe u v

variable {α : Type u} {κ : Type v} [DecidableEq κ] {key : α → κ} {slot : κ → Nat} {n b i : Nat} {t : Nat → List α}
  {m : κ → Option α} {a : α} {k : κ} {f : α → α} {l : List α}

/-- The entries of the `n` chains. -/
def entries (n : Nat) (t : Nat → List α) : List α := (List.range n).flatMap t

def Represents (key : α → κ) (slot : κ → Nat) (t : Nat → List α) (m : κ → Option α) : Prop :=
  ∀ b k, (t b).filter (key · = k) = if slot k = b then (m k).toList else []

/-! ## Entries -/

theorem entries_update (hb : b < n) : ∃ l₁ l₂, entries n t = l₁ ++ (t b ++ l₂) ∧
    ∀ l, entries n (Function.update t b l) = l₁ ++ (l ++ l₂) := by
  induction n with
  | zero => exact absurd hb (Nat.not_lt_zero b)
  | succ n ih =>
      simp only [entries, List.range_succ, List.flatMap_append, List.flatMap_singleton] at ih ⊢
      rcases Nat.lt_succ_iff_lt_or_eq.mp hb with hlt | rfl
      · obtain ⟨l₁, l₂, heq, hupdate⟩ := ih hlt
        refine ⟨l₁, l₂ ++ t n, by simp [heq], fun l => ?_⟩
        rw [hupdate, Function.update_of_ne (Nat.ne_of_gt hlt)]
        simp
      · refine ⟨(List.range b).flatMap t, [], by simp, fun l => ?_⟩
        rw [Function.update_self, List.append_nil]
        congr 1
        refine List.flatMap_congr fun i hi => ?_
        rw [Function.update_of_ne (Nat.ne_of_lt (List.mem_range.mp hi))]

/-- What the entries sum up to, when one chain is replaced. -/
theorem sum_entries_update (g : α → Nat) (hb : b < n) :
    ((entries n (Function.update t b l)).map g).sum + ((t b).map g).sum = ((entries n t).map g).sum + (l.map g).sum := by
  obtain ⟨l₁, l₂, heq, hupdate⟩ := entries_update (t := t) hb
  rw [heq, hupdate]
  simp only [List.map_append, List.sum_append]
  omega

theorem Represents.entries (h : Represents key slot t m) (hk : slot k < n) :
    (Buckets.entries n t).filter (key · = k) = (m k).toList := by
  rw [Buckets.entries, List.filter_flatMap]
  simp only [h _ k]
  induction n with
  | zero => exact absurd hk (Nat.not_lt_zero _)
  | succ n ih =>
      rw [List.range_succ, List.flatMap_append, List.flatMap_singleton]
      rcases Nat.lt_succ_iff_lt_or_eq.mp hk with hlt | rfl
      · rw [ih hlt, if_neg (Nat.ne_of_lt hlt), List.append_nil]
      · rw [if_pos rfl, List.flatMap_eq_nil_iff.mpr fun i hi => if_neg (Nat.ne_of_gt (List.mem_range.mp hi)), List.nil_append]

/-! ## Lookups and changes -/

theorem represents_empty : Represents key slot (fun _ => []) fun _ => none := by
  intro b k
  simp

theorem Represents.mem (h : Represents key slot t m) : a ∈ t b ↔ slot (key a) = b ∧ m (key a) = some a := by
  have hiff : a ∈ t b ↔ a ∈ (t b).filter (key · = key a) := by simp
  rw [hiff, h b (key a)]
  split
  · next hslot => simp [hslot, Option.mem_toList]
  · next hslot => simp [hslot]

/-- A new entry goes to the front of its chain. -/
theorem Represents.cons (h : Represents key slot t m) (hnew : m (key a) = none) :
    Represents key slot (Function.update t (slot (key a)) (a :: t (slot (key a)))) (Function.update m (key a) (some a)) := by
  intro b k
  by_cases hb : b = slot (key a)
  · subst hb
    rw [Function.update_self, List.filter_cons, h]
    by_cases hk : key a = k
    · subst hk
      simp [hnew]
    · rw [if_neg (by simpa using hk), Function.update_of_ne (Ne.symm hk)]
  · rw [Function.update_of_ne hb, h]
    by_cases hk : key a = k
    · subst hk
      rw [if_neg (Ne.symm hb), if_neg (Ne.symm hb)]
    · rw [Function.update_of_ne (Ne.symm hk)]

theorem filter_modify (hf : ∀ a, key (f a) = key a) (hi : l[i]? = some a) (honly : l.filter (key · = key a) = [a]) :
    (l.modify i f).filter (key · = k) = if k = key a then [f a] else l.filter (key · = k) := by
  induction l generalizing i with
  | nil => cases hi
  | cons x l ih =>
      cases i with
      | zero =>
          obtain rfl := Option.some.inj hi
          rw [List.modify_zero_cons]
          by_cases hk : k = key x
          · subst hk
            rw [List.filter_cons, if_pos (by simp)] at honly
            rw [List.filter_cons, if_pos (by simp [hf]), if_pos rfl, (List.cons.inj honly).2]
          · rw [List.filter_cons, if_neg (by simpa [hf] using Ne.symm hk), if_neg hk, List.filter_cons,
              if_neg (by simpa using Ne.symm hk)]
      | succ i =>
          have ha : a ∈ l := List.mem_of_getElem? hi
          rw [List.modify_succ_cons]
          by_cases hx : key x = key a
          · rw [List.filter_cons, if_pos (by simpa using hx)] at honly
            have hnil := (List.cons.inj honly).2
            have hmem : a ∈ l.filter (key · = key a) := by simp [ha]
            rw [hnil] at hmem
            cases hmem
          · rw [List.filter_cons, if_neg (by simpa using hx)] at honly
            rw [List.filter_cons, ih hi honly, List.filter_cons]
            by_cases hk : k = key a
            · subst hk
              rw [if_neg (by simpa using hx)]
              simp
            · simp [hk]

/-- The entry of a key is changed where it stands. -/
theorem Represents.modify (h : Represents key slot t m) (hf : ∀ a, key (f a) = key a) (hi : (t b)[i]? = some a) :
    Represents key slot (Function.update t b ((t b).modify i f)) (Function.update m (key a) (some (f a))) := by
  obtain ⟨rfl, hm⟩ := h.mem.mp (List.mem_of_getElem? hi)
  have honly : (t (slot (key a))).filter (key · = key a) = [a] := by rw [h, if_pos rfl, hm]; rfl
  intro b k
  by_cases hk : k = key a
  · subst hk
    by_cases hb : b = slot (key a)
    · subst hb
      rw [Function.update_self, filter_modify hf hi honly]
      simp
    · rw [Function.update_of_ne hb, h, if_neg (Ne.symm hb), if_neg (Ne.symm hb)]
  · rw [Function.update_of_ne hk]
    by_cases hb : b = slot (key a)
    · subst hb
      rw [Function.update_self, filter_modify hf hi honly, if_neg hk, h]
    · rw [Function.update_of_ne hb, h]

end Buckets

import Mathlib.Logic.Function.Basic
import Mathlib.Data.List.Nodup
import Mathlib.Data.List.Perm.Basic

/-!
# Things in places

`held i` lists the things at the place `i`. They are apart when no thing is at two places, or at one place twice.
A move between two places, or the arrival of new things at one, keeps them apart.
-/

namespace Ownership

universe u v

variable {ι : Type u} {α : Type v} {held held' : ι → List α} {i j : ι}

structure Apart (held : ι → List α) : Prop where
  nodup : ∀ i, (held i).Nodup
  place : ∀ {i j x}, x ∈ held i → x ∈ held j → i = j

theorem Apart.disjoint (h : Apart held) (hij : i ≠ j) : (held i).Disjoint (held j) :=
  fun _ hi hj => hij (h.place hi hj)

theorem Apart.not_mem (h : Apart held) {x : α} (hx : x ∈ held i) (hij : j ≠ i) : x ∉ held j :=
  fun hj => hij (h.place hj hx)

theorem Apart.move (h : Apart held) (hij : i ≠ j) (hp : (held' i ++ held' j).Perm (held i ++ held j))
    (hrest : ∀ k, k ≠ i → k ≠ j → held' k = held k) : Apart held' := by
  have hnd : (held' i ++ held' j).Nodup :=
    hp.nodup_iff.mpr (List.nodup_append'.mpr ⟨h.nodup i, h.nodup j, h.disjoint hij⟩)
  obtain ⟨hi, hj, hdis⟩ := List.nodup_append'.mp hnd
  have hmem {x : α} (hx : x ∈ held' i ∨ x ∈ held' j) : x ∈ held i ∨ x ∈ held j :=
    List.mem_append.mp (hp.mem_iff.mp (List.mem_append.mpr hx))
  have hother {k : ι} {x : α} (hki : k ≠ i) (hkj : k ≠ j) (hk : x ∈ held' k) : ¬(x ∈ held' i ∨ x ∈ held' j) := by
    rw [hrest k hki hkj] at hk
    intro hx
    rcases hmem hx with hx | hx
    · exact hki (h.place hk hx)
    · exact hkj (h.place hk hx)
  constructor
  · intro k
    by_cases hki : k = i
    · exact hki ▸ hi
    by_cases hkj : k = j
    · exact hkj ▸ hj
    exact hrest k hki hkj ▸ h.nodup k
  · intro k l x hk hl
    by_cases hki : k = i
    · subst hki
      by_cases hlk : l = k
      · exact hlk.symm
      by_cases hlj : l = j
      · subst hlj
        exact absurd hl (hdis hk)
      exact absurd (.inl hk) (hother hlk hlj hl)
    by_cases hkj : k = j
    · subst hkj
      by_cases hlk : l = k
      · exact hlk.symm
      by_cases hli : l = i
      · subst hli
        exact absurd hk (hdis hl)
      exact absurd (.inr hk) (hother hli hlk hl)
    by_cases hli : l = i
    · subst hli
      exact absurd (.inl hl) (hother hki hkj hk)
    by_cases hlj : l = j
    · subst hlj
      exact absurd (.inr hl) (hother hki hkj hk)
    rw [hrest k hki hkj] at hk
    rw [hrest l hli hlj] at hl
    exact h.place hk hl

theorem Apart.arrive (h : Apart held) {xs : List α} (hxs : xs.Nodup) (hnew : ∀ x ∈ xs, ∀ k, x ∉ held k)
    (hp : (held' i).Perm (xs ++ held i)) (hrest : ∀ k, k ≠ i → held' k = held k) : Apart held' := by
  have hmem {x : α} : x ∈ held' i ↔ x ∈ xs ∨ x ∈ held i := by rw [hp.mem_iff, List.mem_append]
  have hother {k : ι} {x : α} (hk : k ≠ i) (hx : x ∈ held' k) : x ∉ held' i := by
    rw [hrest k hk] at hx
    intro hi
    rcases hmem.mp hi with hi | hi
    · exact hnew x hi k hx
    · exact hk (h.place hx hi)
  constructor
  · intro k
    by_cases hk : k = i
    · subst hk
      exact hp.nodup_iff.mpr (List.nodup_append'.mpr ⟨hxs, h.nodup k, fun x hx => hnew x hx k⟩)
    exact hrest k hk ▸ h.nodup k
  · intro k l x hk hl
    by_cases hki : k = i
    · subst hki
      by_cases hli : l = k
      · exact hli.symm
      exact absurd hk (hother hli hl)
    by_cases hli : l = i
    · subst hli
      exact absurd hl (hother hki hk)
    rw [hrest k hki] at hk
    rw [hrest l hli] at hl
    exact h.place hk hl

/-! ## Places as a function that is updated -/

section
variable [DecidableEq ι] {xs ys : List α}

open Function (update update_self update_of_ne)

theorem Apart.move_update (h : Apart held) (hij : i ≠ j) (hp : (xs ++ ys).Perm (held i ++ held j)) :
    Apart (update (update held i xs) j ys) := by
  refine h.move hij ?_ fun k hki hkj => ?_
  · rw [update_of_ne hij, update_self, update_self]
    exact hp
  · rw [update_of_ne hkj, update_of_ne hki]

theorem Apart.arrive_update (h : Apart held) (hxs : xs.Nodup) (hnew : ∀ x ∈ xs, ∀ k, x ∉ held k)
    (hp : ys.Perm (xs ++ held i)) : Apart (update held i ys) := by
  refine h.arrive hxs hnew ?_ fun k hk => update_of_ne hk ..
  rw [update_self]
  exact hp

theorem mem_of_move_update {x : α} {k : ι} (hij : i ≠ j) (hp : (xs ++ ys).Perm (held i ++ held j))
    (hx : x ∈ update (update held i xs) j ys k) : ∃ l, x ∈ held l := by
  have hmem (hx : x ∈ xs ++ ys) : ∃ l, x ∈ held l := by
    rcases List.mem_append.mp (hp.mem_iff.mp hx) with hx | hx
    · exact ⟨i, hx⟩
    · exact ⟨j, hx⟩
  by_cases hkj : k = j
  · subst hkj
    rw [update_self] at hx
    exact hmem (List.mem_append_right _ hx)
  rw [update_of_ne hkj] at hx
  by_cases hki : k = i
  · subst hki
    rw [update_self] at hx
    exact hmem (List.mem_append_left _ hx)
  rw [update_of_ne hki] at hx
  exact ⟨k, hx⟩

end

end Ownership

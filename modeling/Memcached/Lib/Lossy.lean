import Mathlib.Logic.Function.Basic
import Memcached.Lib.Run

/-!
# Maps that lose entries

A cache is a map that may lose entries at any time. Where every new entry gets the next version, one that has an old version
has been there since.
-/

namespace Lossy

open Transition

universe u v

variable {κ : Type u} {ν : Type v} {m m' m'' : κ → Option ν} {k : κ} {v w : ν}

/-- What is in `m'` was in `m`. -/
def Loses (m m' : κ → Option ν) : Prop := ∀ k v, m' k = some v → m k = some v

theorem Loses.refl : Loses m m := fun _ _ h => h

theorem Loses.trans (h : Loses m m') (h' : Loses m' m'') : Loses m m'' := fun k v hv => h k v (h' k v hv)

section
variable [DecidableEq κ]

/-- `w` is put at `k`, and elsewhere entries may be lost. -/
theorem loses_put (hother : ∀ k', k' ≠ k → ∀ v, m' k' = some v → m k' = some v) (hk : m' k = some w) :
    ∃ m₁, Loses m m₁ ∧ m₁ k = m k ∧ m' = Function.update m₁ k (some w) := by
  refine ⟨Function.update m' k (m k), fun k' v hv => ?_, Function.update_self _ _ _, ?_⟩
  · by_cases hk' : k' = k
    · subst hk'
      rwa [Function.update_self] at hv
    · rw [Function.update_of_ne hk'] at hv
      exact hother k' hk' v hv
  · rw [Function.update_idem, ← hk, Function.update_eq_self]

end

/-! ## Versions -/

/-- A change to a map in which every entry has a version, of which the last was `t`: entries are lost, a new one is put at a
key, or one becomes another that counts as the same. -/
inductive Change [DecidableEq κ] (version : ν → Nat) (Same : ν → ν → Prop) :
    (κ → Option ν) × Nat → Option κ → (κ → Option ν) × Nat → Prop
  | lose {m m' : κ → Option ν} {t : Nat} (h : Loses m m') : Change version Same (m, t) none (m', t)
  | put {m : κ → Option ν} {t : Nat} {k : κ} {v : ν} (hv : version v = t + 1) :
      Change version Same (m, t) (some k) (Function.update m k (some v), t + 1)
  | become {m : κ → Option ν} {t : Nat} {k : κ} {v w : ν} (hk : m k = some v) (hsame : Same v w) :
      Change version Same (m, t) none (Function.update m k (some w), t)

section
variable [DecidableEq κ] {version : ν → Nat} {Same : ν → ν → Prop} {s s' : (κ → Option ν) × Nat} {ks : List (Option κ)}

/-- No entry has a version that is yet to come. -/
def Past (version : ν → Nat) (s : (κ → Option ν) × Nat) : Prop := ∀ k v, s.1 k = some v → version v ≤ s.2

theorem Past.change {key : Option κ} (hversion : ∀ v w, Same v w → version w = version v) (hs : Past version s)
    (h : Change version Same s key s') : Past version s' := by
  intro k v hv
  cases h with
  | lose hloses => exact hs k v (hloses k v hv)
  | @put m t j w hw =>
      by_cases hk : k = j
      · obtain rfl : w = v := by simpa [hk] using hv
        exact Nat.le_of_eq hw
      · exact Nat.le_succ_of_le (hs k v (by simpa [hk] using hv))
  | @become m t j u w hu hsame =>
      by_cases hk : k = j
      · obtain rfl : w = v := by simpa [hk] using hv
        exact Nat.le_trans (Nat.le_of_eq (hversion u w hsame)) (hs j u hu)
      · exact hs k v (by simpa [hk] using hv)

theorem change_later {key : Option κ} (h : Change version Same s key s') : s.2 ≤ s'.2 := by
  cases h with
  | lose => exact Nat.le_refl _
  | put => exact Nat.le_succ _
  | become => exact Nat.le_refl _

/-- An entry with an old version is what was there at the time, and nothing has been put in its place. -/
theorem unchanged_since {clock : Nat} (hrefl : ∀ v, Same v v) (htrans : ∀ u v w, Same u v → Same v w → Same u w)
    (hversion : ∀ v w, Same v w → version w = version v) (h : Run (Change version Same) s ks s') (hclock : clock ≤ s.2)
    (hk : s'.1 k = some v) (hold : version v ≤ clock) : some k ∉ ks ∧ ∃ u, s.1 k = some u ∧ Same u v := by
  induction h with
  | nil s => exact ⟨List.not_mem_nil, v, hk, hrefl v⟩
  | cons hchange _ ih =>
      obtain ⟨hnot, u, hu, hsame⟩ := ih (Nat.le_trans hclock (change_later hchange)) hk
      cases hchange with
      | lose hloses => exact ⟨by simpa using hnot, u, hloses k u hu, hsame⟩
      | @put m t j w hw =>
          have hkj : k ≠ j := by
            rintro rfl
            obtain rfl : w = u := by simpa using hu
            have hsame := hversion w v hsame
            dsimp only at hclock
            omega
          exact ⟨by simpa [hkj] using hnot, u, by simpa [hkj] using hu, hsame⟩
      | @become m t j x w hx hbecome =>
          by_cases hkj : k = j
          · subst hkj
            obtain rfl : w = u := by simpa using hu
            exact ⟨by simpa using hnot, x, hx, htrans x w v hbecome hsame⟩
          · exact ⟨by simpa using hnot, u, by simpa [hkj] using hu, hsame⟩

end

end Lossy

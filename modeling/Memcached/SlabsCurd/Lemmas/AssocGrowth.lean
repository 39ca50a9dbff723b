import Memcached.Lib.Run
import Memcached.SlabsCurd.Lemmas.AssocTables

/-!
# How far the table can grow

The maintenance thread alone, with nothing to migrate: each time it wakes it doubles the table, up to `2 ^ 32` buckets and
beyond.
-/

namespace Memcached.SlabsCurd.System

open Transition

variable (hash : Key → UInt32) {s : System}

/-- No thread is in a section, and no item waits to be migrated. -/
structure Quiet (s : System) : Prop where
  running : s.maintenance = .running
  free : ∀ l, s.item_locks l = none
  idle : ∀ t, s.workers t = .idle
  old : ∀ b, s.assoc.old_hashtable b = []

/-- The tables that are looked up, and what they should hold, stay. -/
structure Same (s s' : System) : Prop where
  primary : s'.assoc.primary_hashtable = s.assoc.primary_hashtable
  items : s'.items = s.items

theorem Same.trans {s₁ s₂ : System} (h : Same s s₁) (h' : Same s₁ s₂) : Same s s₂ :=
  ⟨h'.primary.trans h.primary, h'.items.trans h.items⟩

/-- One bucket is migrated. -/
theorem Quiet.round (h : Quiet s) (he : s.assoc.expanding = true) : ∃ es s', Run (Step hash) s es s' ∧ Quiet s' ∧ Same s s' ∧
    s'.assoc.hashpower = s.assoc.hashpower ∧ s'.assoc.expand_bucket = (s.assoc.expand_bucket + 1) % 2 ^ 32 ∧
    s'.assoc.expanding = !decide ((s.assoc.expand_bucket + 1) % 2 ^ 32 = hashsize (s.assoc.hashpower - 1)) := by
  have r : Run (Step hash) s _ _ := (Run.nil s).snoc (.item_trylock h.running he (h.free _))
  rw [h.old] at r
  have r := r.snoc (.clear rfl)
  have r := r.snoc (.advance rfl)
  have r := r.snoc (.finish rfl)
  have r := r.snoc (.item_trylock_unlock rfl)
  refine ⟨_, _, r, ⟨rfl, fun l => ?_, h.idle, fun b => ?_⟩, ⟨rfl, rfl⟩, rfl, rfl, ?_⟩
  · simp only [setLock, Function.update_idem]
    exact (congrFun (Function.update_eq_self_iff.mpr (h.free _).symm) l).trans (h.free l)
  · exact (congrFun (Function.update_eq_self_iff.mpr (h.old _).symm) b).trans (h.old b)
  · simp only [Assoc.setChain, setLock, he]
    by_cases hlast : (s.assoc.expand_bucket + 1) % 2 ^ 32 = hashsize (s.assoc.hashpower - 1)
    · rw [if_pos hlast, decide_eq_true hlast, Bool.not_true]
    · rw [if_neg hlast, decide_eq_false hlast, Bool.not_false]

/-- As many buckets are migrated as are left but one. -/
theorem Quiet.rounds (h : Quiet s) (he : s.assoc.expanding = true) {n : Nat} (hword : s.assoc.expand_bucket + n < 2 ^ 32)
    (hleft : s.assoc.expand_bucket + n < hashsize (s.assoc.hashpower - 1)) :
    ∃ es s', Run (Step hash) s es s' ∧ Quiet s' ∧ Same s s' ∧ s'.assoc.hashpower = s.assoc.hashpower ∧
      s'.assoc.expand_bucket = s.assoc.expand_bucket + n ∧ s'.assoc.expanding = true := by
  induction n with
  | zero => exact ⟨[], s, .nil s, h, ⟨rfl, rfl⟩, rfl, rfl, he⟩
  | succ n ih =>
      obtain ⟨es, s₁, hrun, hq, hsame, hpower, hbucket, hon⟩ := ih (by omega) (by omega)
      obtain ⟨fs, s₂, hrun', hq', hsame', hpower', hbucket', hon'⟩ := hq.round hash hon
      have hnext : (s₁.assoc.expand_bucket + 1) % 2 ^ 32 = s.assoc.expand_bucket + (n + 1) := by
        rw [hbucket, Nat.mod_eq_of_lt (by omega)]
        omega
      rw [hnext] at hbucket' hon'
      refine ⟨_, s₂, hrun.append hrun', hq', hsame.trans hsame', hpower'.trans hpower, hbucket', ?_⟩
      rw [hon', hpower, decide_eq_false (by omega), Bool.not_false]

/-- The maintenance thread wakes. -/
theorem Quiet.expand (h : Quiet s) (he : s.assoc.expanding = false) (hempty : ∀ b, s.assoc.primary_hashtable b = []) :
    ∃ es s', Run (Step hash) s es s' ∧ Quiet s' ∧ Same s s' ∧ s'.assoc.hashpower = s.assoc.hashpower + 1 ∧
      s'.assoc.expand_bucket = 0 ∧ s'.assoc.expanding = true := by
  have r : Run (Step hash) s _ _ := (Run.nil s).snoc (.wait h.running he)
  have r := r.snoc (@Step.assoc_expand _ _ true rfl h.idle)
  exact ⟨_, _, r, ⟨rfl, h.free, h.idle, hempty⟩, ⟨(funext hempty).symm, rfl⟩, rfl, rfl, rfl⟩

/-- The table doubles. -/
theorem Quiet.double (h : Quiet s) (he : s.assoc.expanding = false) (hempty : ∀ b, s.assoc.primary_hashtable b = [])
    (hpower : s.assoc.hashpower < HASHPOWER_MAX) :
    ∃ es s', Run (Step hash) s es s' ∧ Quiet s' ∧ Same s s' ∧ s'.assoc.hashpower = s.assoc.hashpower + 1 ∧
      s'.assoc.expanding = false := by
  obtain ⟨es, s₁, hrun, hq, hsame, hp, hb, hon⟩ := h.expand hash he hempty
  have hsize : hashsize (s₁.assoc.hashpower - 1) = 2 ^ s.assoc.hashpower := by rw [hp, Nat.add_sub_cancel, hashsize_eq]
  have hpos : 0 < 2 ^ s.assoc.hashpower := Nat.two_pow_pos _
  have hlt : 2 ^ s.assoc.hashpower < 2 ^ 32 := Nat.pow_lt_pow_right (by decide) hpower
  obtain ⟨fs, s₂, hrun', hq', hsame', hp', hb', hon'⟩ :=
    hq.rounds hash hon (n := 2 ^ s.assoc.hashpower - 1) (by omega) (by omega)
  obtain ⟨gs, s₃, hrun'', hq'', hsame'', hp'', -, hoff⟩ := hq'.round hash hon'
  refine ⟨_, s₃, (hrun.append hrun').append hrun'', hq'', (hsame.trans hsame').trans hsame'', by omega, ?_⟩
  have hlast : (s₂.assoc.expand_bucket + 1) % 2 ^ 32 = 2 ^ s.assoc.hashpower := by
    rw [hb', hb, Nat.mod_eq_of_lt (by omega)]
    omega
  rw [hoff, hlast, hp', hsize, decide_eq_true rfl, Bool.not_true]

theorem Quiet.grow (h : Quiet s) (he : s.assoc.expanding = false) (hempty : ∀ b, s.assoc.primary_hashtable b = [])
    {n : Nat} (hpower : s.assoc.hashpower + n ≤ HASHPOWER_MAX) :
    ∃ es s', Run (Step hash) s es s' ∧ Quiet s' ∧ Same s s' ∧ s'.assoc.hashpower = s.assoc.hashpower + n ∧
      s'.assoc.expanding = false := by
  induction n with
  | zero => exact ⟨[], s, .nil s, h, ⟨rfl, rfl⟩, rfl, he⟩
  | succ n ih =>
      obtain ⟨es, s₁, hrun, hq, hsame, hp, hoff⟩ := ih (by omega)
      obtain ⟨fs, s₂, hrun', hq', hsame', hp', hoff'⟩ :=
        hq.double hash hoff (fun b => by rw [hsame.primary, hempty]) (by omega)
      exact ⟨_, s₂, hrun.append hrun', hq', hsame.trans hsame', by omega, hoff'⟩

/-- A worker inserts an item whose old bucket is migrated. -/
theorem Quiet.insert (h : Quiet s) (it : Item) (hlt : s.assoc.old_bucket (hash it.key) < s.assoc.expand_bucket)
    (habsent : s.items it.key = none) :
    ∃ es s', Run (Step hash) s es s' ∧ Quiet s' ∧ s'.items it.key = some it ∧ s'.assoc.hashpower = s.assoc.hashpower ∧
      s'.assoc.expand_bucket = s.assoc.expand_bucket ∧ s'.assoc.expanding = s.assoc.expanding := by
  have hplace : s.assoc.place s.assoc.expanding (hash (Call.insert it).key) = .primary (s.assoc.new_bucket (hash it.key)) :=
    if_neg fun hc => Nat.not_le.mpr hlt hc.2
  have r : Run (Step hash) s _ _ := (Run.nil s).snoc (.item_lock (t := 0) (c := .insert it) (h.idle 0) (h.free _))
  have r := r.snoc (.read_expanding (t := 0) (c := .insert it) rfl)
  have r := r.snoc (.choose (t := 0) (c := .insert it) rfl)
  have r := r.snoc (@Step.assoc_insert _ _ 0 it _ rfl habsent)
  have r := r.snoc (.item_unlock (t := 0) (c := .insert it) rfl)
  refine ⟨_, _, r, ⟨h.running, fun l => ?_, fun t => ?_, fun b => ?_⟩, Function.update_self .., ?_⟩
  · simp only [setLock, setWorker, item_lock_of, Function.update_idem]
    exact (congrFun (Function.update_eq_self_iff.mpr (h.free _).symm) l).trans (h.free l)
  · simp only [setLock, setWorker, Function.update_idem]
    exact (congrFun (Function.update_eq_self_iff.mpr (h.idle _).symm) t).trans (h.idle t)
  all_goals simp only [setLock, setWorker, Assoc.assoc_insert, hplace, Assoc.setChain]
  · exact h.old b
  · exact ⟨trivial, trivial, trivial⟩

end Memcached.SlabsCurd.System

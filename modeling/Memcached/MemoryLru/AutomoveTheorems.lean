import Mathlib.Data.Rat.Cast.Order
import Mathlib.Tactic.NormNum
import Memcached.Lib.Ring
import Memcached.Lib.Run
import Memcached.MemoryLru.Automove

/-!
# Windows and moves of the page mover

A run that is regular writes what happened into the window of each class, and moves a page only between different classes,
and only out of a clean window for the global pool.
-/

namespace Memcached.MemoryLru

open Function (update)
open Transition

/-! ## What a run should do -/

/-- What happened in the runs with the given statistics, the last run first. -/
def AutomoveStats.rows (before : AutomoveStats) : List AutomoveStats → List (Nat → WindowData)
  | [] => []
  | after :: es => after.rows es ++ [before.mark after]

/-- The window of each class has what happened in the last `window_size` runs; before the first run nothing did. -/
def SlabAutomove.Described (a : SlabAutomove) (rows : List (Nat → WindowData)) : Prop :=
  ∀ n, POWER_SMALLEST ≤ n → n < MAX_NUMBER_OF_SLAB_CLASSES →
    Ring.Holds a.window_size.toNat a.window_cur.toNat (a.window_data n) (rows.map (· n)) .zero

/-- After a run with the rows `rows`, the state `a` and the move `move`. -/
structure RightMove (a : SlabAutomove) (after : AutomoveStats) (rows : List (Nat → WindowData)) (move : Int × Int) :
    Prop where
  described : a.Described rows
  clean : ∀ n : Nat, move = ((n : Int), 0) → ∀ k < a.window_size.toNat, ((rows.getD k fun _ => .zero) n).dirty = 0
  pair : move = (-1, -1) ∨ ∃ src dst : Nat, move = ((src : Int), (dst : Int)) ∧ src ≠ dst ∧ src < MAX_NUMBER_OF_SLAB_CLASSES ∧
    dst < MAX_NUMBER_OF_SLAB_CLASSES ∧ 2 ≤ (after.sam src).total_pages

/-- The run that is about to take place. -/
def SlabAutomove.next (a : SlabAutomove) : SlabAutomove := { a with window_cur := a.window_cur + 1 }

section
variable (a : SlabAutomove) (after : AutomoveStats)

/-- The class is the oldest of those with pages to give, and the first one. -/
structure SlabAutomove.IsOldest (n : Nat) : Prop where
  pages : (after.sam n).total_pages > MIN_PAGES_FOR_SOURCE
  age : 0 < a.age n
  oldest : ∀ m, POWER_SMALLEST ≤ m → m < MAX_NUMBER_OF_SLAB_CLASSES → a.reclaims after m = false →
    (after.sam m).total_pages > MIN_PAGES_FOR_SOURCE → a.age m ≤ a.age n ∧ (m < n → a.age m < a.age n)

/-- The class is the youngest of those that evicted in most of the window, and the first one. -/
structure SlabAutomove.IsYoungest (n : Nat) : Prop where
  evicted : (a.w_sum n).evicted > a.window_size.toNat / 2
  age : a.age n < 2 ^ 64 - 1
  youngest : ∀ m, POWER_SMALLEST ≤ m → m < MAX_NUMBER_OF_SLAB_CLASSES → a.reclaims after m = false →
    (a.w_sum m).evicted > a.window_size.toNat / 2 → a.age n ≤ a.age m ∧ (m < n → a.age n < a.age m)

/-- The class would be given a page of its own: it is the oldest and the youngest, and the ratio is over 1. -/
structure SlabAutomove.SelfMove (n : Nat) : Prop where
  oldest : a.IsOldest after n
  youngest : a.IsYoungest after n
  filled : a.window_cur > a.window_size
  ratio : (a.age n : ℚ) < a.age n * a.max_age_ratio
  evicting : a.before.evicting after n = true

/-- There are slots, and the offsets are `int`s; the count of the runs stays a 32-bit number, or the window divides its range; a class that can
give a page to the global pool is the last one, nothing happened to it in this run, and it has two pages; and no class
would be given its own page. -/
structure SlabAutomove.Regular : Prop where
  size : a.window_size ≠ 0
  offsets : (MAX_NUMBER_OF_SLAB_CLASSES - 1) * a.window_size.toNat < 2 ^ 31
  count : a.window_cur.toNat + 1 < 2 ^ 32 ∨ a.window_size.toNat ∣ 2 ^ 32
  reclaim : ∀ n, POWER_SMALLEST ≤ n → n < MAX_NUMBER_OF_SLAB_CLASSES → a.next.reclaims after n = true →
    n = MAX_NUMBER_OF_SLAB_CLASSES - 1 ∧ (a.before.mark after n).dirty = 0 ∧ 2 ≤ (after.sam n).total_pages
  ages : ∀ n, POWER_SMALLEST ≤ n → n < MAX_NUMBER_OF_SLAB_CLASSES → ¬ a.next.SelfMove after n

end

/-! ## The first of the best -/

/-- Of the candidates in `vs`, `x` is the first of the best that are better than `start`, and `top` its value. -/
structure FirstBest (better : Nat → Nat → Prop) (cand : Nat → Prop) (val : Nat → Nat) (start : Nat) (vs : List Nat)
    (x : Option Nat) (top : Nat) : Prop where
  absent : x = none → top = start ∧ ∀ m ∈ vs, cand m → ¬ better (val m) start
  present : ∀ n, x = some n → n ∈ vs ∧ cand n ∧ better (val n) start ∧ top = val n ∧
    ∀ m ∈ vs, cand m → ¬ better (val m) (val n) ∧ (m < n → better (val n) (val m))

section
variable {better : Nat → Nat → Prop} [DecidableRel better] {cand : Nat → Prop} [DecidablePred cand] {val : Nat → Nat}
  {start n top : Nat} {vs : List Nat} {x : Option Nat}

omit [DecidableRel better] [DecidablePred cand] in
theorem firstBest_nil : FirstBest better cand val start [] none start where
  absent := fun _ => ⟨rfl, by simp⟩
  present := fun _ h => by cases h

theorem FirstBest.snoc (h : FirstBest better cand val start vs x top) (hlast : ∀ m ∈ vs, m < n)
    (hasymm : ∀ b c, better b c → ¬ better c b) (htrans : ∀ b c d, better b c → ¬ better d c → better b d) :
    FirstBest better cand val start (vs ++ [n]) (if better (val n) top ∧ cand n then some n else x)
      (if better (val n) top ∧ cand n then val n else top) := by
  split
  · next hnew =>
    obtain ⟨hbetter, hcand⟩ := hnew
    have hall : better (val n) start ∧ ∀ m ∈ vs, cand m → better (val n) (val m) := by
      cases hx : x with
      | none =>
          obtain ⟨rfl, hnone⟩ := h.absent hx
          exact ⟨hbetter, fun m hm hc => htrans _ _ _ hbetter (hnone m hm hc)⟩
      | some y =>
          obtain ⟨-, -, hstart, rfl, hbest⟩ := h.present y hx
          exact ⟨htrans _ _ _ hbetter (hasymm _ _ hstart), fun m hm hc => htrans _ _ _ hbetter (hbest m hm hc).1⟩
    refine ⟨(by cases ·), fun y hy => ?_⟩
    obtain rfl := Option.some.inj hy
    refine ⟨by simp, hcand, hall.1, rfl, fun m hm hc => ?_⟩
    obtain hm | hm := List.mem_append.mp hm
    · exact ⟨hasymm _ _ (hall.2 m hm hc), fun _ => hall.2 m hm hc⟩
    · obtain rfl := List.mem_singleton.mp hm
      exact ⟨fun h => hasymm _ _ h h, fun hlt => absurd hlt (Nat.lt_irrefl _)⟩
  · next hnot =>
    refine ⟨fun hx => ?_, fun y hy => ?_⟩
    · obtain ⟨rfl, hnone⟩ := h.absent hx
      refine ⟨rfl, fun m hm hc => ?_⟩
      obtain hm | hm := List.mem_append.mp hm
      · exact hnone m hm hc
      · obtain rfl := List.mem_singleton.mp hm
        exact fun hb => hnot ⟨hb, hc⟩
    · obtain ⟨hmem, hcand, hstart, rfl, hbest⟩ := h.present y hy
      refine ⟨by simp [hmem], hcand, hstart, rfl, fun m hm hc => ?_⟩
      obtain hm | hm := List.mem_append.mp hm
      · exact hbest m hm hc
      · obtain rfl := List.mem_singleton.mp hm
        exact ⟨fun hb => hnot ⟨hb, hc⟩, fun hlt => absurd hlt (Nat.not_lt_of_gt (hlast y hmem))⟩

end

/-! ## The loop -/

/-- What the loop has found at the classes `vs`, none of which it stopped at. -/
structure SlabAutomove.Found (a : SlabAutomove) (after : AutomoveStats) (vs : List Nat) (s : Search) : Prop where
  data : ∀ n, s.window_data n = if n ∈ vs then update (a.window_data n) a.slot (a.before.mark after n) else a.window_data n
  oldest : FirstBest (· > ·) (fun n => (after.sam n).total_pages > MIN_PAGES_FOR_SOURCE) a.age 0 vs s.oldest s.oldest_age
  youngest : FirstBest (· < ·) (fun n => (a.w_sum n).evicted > a.window_size.toNat / 2) a.age (2 ^ 64 - 1) vs s.youngest
    s.youngest_age
  evicting : ∀ n ∈ s.youngest, s.youngest_evicting = a.before.evicting after n

section
variable {a a' : SlabAutomove} {after : AutomoveStats} {vs ns : List Nat} {s : Search} {n : Nat}

theorem mark_evicted (before after : AutomoveStats) (n : Nat) :
    decide ((before.mark after n).evicted ≠ 0) = before.evicting after n := by
  cases h : before.evicting after n <;> simp [AutomoveStats.mark, h]

@[simp] theorem compare_age_window_data : (a.compare_age after n s).window_data = s.window_data := by
  simp only [SlabAutomove.compare_age]
  split_ifs <;> rfl

@[simp] theorem compare_age_reclaim : (a.compare_age after n s).reclaim = s.reclaim := by
  simp only [SlabAutomove.compare_age]
  split_ifs <;> rfl

theorem compare_age_oldest :
    (a.compare_age after n s).oldest =
        (if a.age n > s.oldest_age ∧ (after.sam n).total_pages > MIN_PAGES_FOR_SOURCE then some n else s.oldest) ∧
      (a.compare_age after n s).oldest_age =
        if a.age n > s.oldest_age ∧ (after.sam n).total_pages > MIN_PAGES_FOR_SOURCE then a.age n else s.oldest_age := by
  simp only [SlabAutomove.compare_age]
  split_ifs <;> exact ⟨rfl, rfl⟩

theorem compare_age_youngest :
    (a.compare_age after n s).youngest =
        (if a.age n < s.youngest_age ∧ (a.w_sum n).evicted > a.window_size.toNat / 2 then some n else s.youngest) ∧
      (a.compare_age after n s).youngest_age =
        (if a.age n < s.youngest_age ∧ (a.w_sum n).evicted > a.window_size.toNat / 2 then a.age n else s.youngest_age) ∧
      (a.compare_age after n s).youngest_evicting =
        if a.age n < s.youngest_age ∧ (a.w_sum n).evicted > a.window_size.toNat / 2 then
          decide ((a.before.mark after n).evicted ≠ 0)
        else s.youngest_evicting := by
  simp only [SlabAutomove.compare_age]
  split_ifs <;> exact ⟨rfl, rfl, rfl⟩

theorem SlabAutomove.Found.visit (h : a.Found after vs s) (hlast : ∀ m ∈ vs, m < n) :
    a.Found after (vs ++ [n]) (a.compare_age after n (a.set_window after n s)) where
  data := by
    intro m
    rw [compare_age_window_data, SlabAutomove.set_window]
    by_cases hm : m = n
    · subst hm
      simp
    · simp [hm, h.data m]
  oldest := by
    rw [compare_age_oldest.1, compare_age_oldest.2]
    exact h.oldest.snoc hlast (fun _ _ => Nat.lt_asymm) fun _ _ _ h h' => Nat.lt_of_le_of_lt (Nat.le_of_not_gt h') h
  youngest := by
    rw [compare_age_youngest.1, compare_age_youngest.2.1]
    exact h.youngest.snoc hlast (fun _ _ => Nat.lt_asymm) fun _ _ _ h h' => Nat.lt_of_lt_of_le h (Nat.le_of_not_lt h')
  evicting := by
    intro m hm
    rw [compare_age_youngest.1] at hm
    rw [compare_age_youngest.2.2]
    split at hm
    · next hnew =>
      obtain rfl := Option.some.inj hm
      rw [if_pos hnew, mark_evicted]
    · next hnot =>
      rw [if_neg hnot]
      exact h.evicting m hm

/-- Up to the class at which the loop stops, or the end. -/
theorem SlabAutomove.Found.search (h : a.Found after vs s) (hstop : s.reclaim = none)
    (hsorted : (vs ++ ns).Pairwise (· < ·)) :
    ∃ us s', vs <+: us ∧ a.Found after us s' ∧ s'.reclaim = none ∧
      (us = vs ++ ns ∧ a.search after ns s = s' ∨
        ∃ n ps, vs ++ ns = us ++ n :: ps ∧ a.reclaims after n = true ∧
          a.search after ns s = { a.set_window after n s' with reclaim := some n }) := by
  induction ns generalizing vs s with
  | nil => exact ⟨vs, s, List.prefix_rfl, h, hstop, .inl ⟨by simp, rfl⟩⟩
  | cons n ns ih =>
      rw [SlabAutomove.search]
      dsimp only
      split
      · next hreclaim => exact ⟨vs, s, List.prefix_rfl, h, hstop, .inr ⟨n, ns, rfl, hreclaim, rfl⟩⟩
      · next hreclaim =>
        have hlast : ∀ m ∈ vs, m < n := fun m hm => (List.pairwise_append.mp hsorted).2.2 m hm n (by simp)
        obtain ⟨us, s', hpre, hfound, hnone, hends⟩ := ih (h.visit hlast) (by simpa [SlabAutomove.set_window] using hstop)
          (by simpa using hsorted)
        rw [List.append_assoc, List.singleton_append] at hends
        exact ⟨us, s', (List.prefix_append ..).trans hpre, hfound, hnone, hends⟩

/-! ## Windows -/

theorem window_sum_dirty {wd : Nat → WindowData} {size : Nat} :
    (window_sum wd size).dirty = 0 ↔ ∀ i < size, (wd i).dirty = 0 := by
  simp [window_sum, List.sum_eq_zero_iff_forall_eq_nat]

theorem getD_map {rows : List (Nat → WindowData)} {k : Nat} :
    (rows.map fun row => row n).getD k .zero = (rows.getD k fun _ => .zero) n := by
  simp only [List.getD_eq_getElem?_getD, List.getElem?_map]
  cases rows[k]? <;> rfl

/-- The window of a class with the slot of this run written. -/
theorem SlabAutomove.Described.put {rows : List (Nat → WindowData)} (h : a.Described rows) (hn : POWER_SMALLEST ≤ n)
    (hlt : n < MAX_NUMBER_OF_SLAB_CLASSES) (hcount : a.window_cur.toNat + 1 < 2 ^ 32 ∨ a.window_size.toNat ∣ 2 ^ 32)
    (x : WindowData) :
    Ring.Holds a.window_size.toNat a.next.window_cur.toNat (update (a.window_data n) a.next.slot x)
      (x :: rows.map (· n)) .zero := by
  refine (h n hn hlt).put ?_ x
  have hcur : a.next.window_cur.toNat = (a.window_cur.toNat + 1) % 2 ^ 32 := UInt32.toNat_add ..
  rw [hcur]
  obtain hsmall | hdvd := hcount
  · rw [Nat.mod_eq_of_lt hsmall]
  · exact Nat.mod_mod_of_dvd _ hdvd

/-- What the test of the pool means for the runs before. -/
theorem SlabAutomove.Described.reclaims {rows : List (Nat → WindowData)} (h : a.Described rows) (hn : POWER_SMALLEST ≤ n)
    (hlt : n < MAX_NUMBER_OF_SLAB_CLASSES) (hcount : a.window_cur.toNat + 1 < 2 ^ 32 ∨ a.window_size.toNat ∣ 2 ^ 32)
    (hreclaims : a.next.reclaims after n = true) {row : Nat → WindowData} (hrow : (row n).dirty = 0) :
    ∀ k < a.window_size.toNat, (((row :: rows).getD k fun _ => .zero) n).dirty = 0 := by
  have hdirty : (a.next.w_sum n).dirty = 0 := by
    rw [SlabAutomove.reclaims, decide_eq_true_eq] at hreclaims
    exact hreclaims.2
  have hclear : ∀ i < a.window_size.toNat, (update (a.window_data n) a.next.slot .zero i).dirty = 0 :=
    window_sum_dirty.mp hdirty
  have hall := (h.put hn hlt hcount .zero).forall_iff (p := fun d => d.dirty = 0).mp hclear
  intro k hk
  cases k with
  | zero => exact hrow
  | succ k =>
      have hold := hall (k + 1) hk
      rw [List.getD_cons_succ, getD_map] at hold
      exact hold

/-! ## Runs -/

/-- The classes that a run visits. -/
theorem classes_sorted :
    (List.range' POWER_SMALLEST (MAX_NUMBER_OF_SLAB_CLASSES - POWER_SMALLEST)).Pairwise (· < ·) := by
  decide

theorem mem_classes : n ∈ List.range' POWER_SMALLEST (MAX_NUMBER_OF_SLAB_CLASSES - POWER_SMALLEST) ↔
    POWER_SMALLEST ≤ n ∧ n < MAX_NUMBER_OF_SLAB_CLASSES := by
  simp only [List.mem_range'_1, POWER_SMALLEST, MAX_NUMBER_OF_SLAB_CLASSES]

/-- The oldest and the youngest class that a whole run has found are not the same one, if it would be moved to. -/
theorem SlabAutomove.Found.selfMove {us : List Nat} (h : a.Found after us s)
    (hus : ∀ m, POWER_SMALLEST ≤ m → m < MAX_NUMBER_OF_SLAB_CLASSES → a.reclaims after m = false → m ∈ us)
    (holdest : s.oldest = some n) (hyoungest : s.youngest = some n) (hfilled : a.window_cur > a.window_size)
    (hratio : (s.youngest_age : ℚ) < s.oldest_age * a.max_age_ratio) (hevicting : s.youngest_evicting = true) :
    a.SelfMove after n := by
  obtain ⟨-, hpages, hold, hoage, hmax⟩ := h.oldest.present n holdest
  obtain ⟨-, hevicted, hyoung, hyage, hmin⟩ := h.youngest.present n hyoungest
  rw [hoage, hyage] at hratio
  refine ⟨⟨hpages, hold, fun m hm hlt hrec hp => ?_⟩, ⟨hevicted, hyoung, fun m hm hlt hrec hp => ?_⟩, hfilled, hratio, ?_⟩
  · obtain ⟨hle, hfirst⟩ := hmax m (hus m hm hlt hrec) hp
    exact ⟨Nat.le_of_not_gt hle, hfirst⟩
  · obtain ⟨hle, hfirst⟩ := hmin m (hus m hm hlt hrec) hp
    exact ⟨Nat.le_of_not_lt hle, hfirst⟩
  · exact (h.evicting n hyoungest).symm.trans hevicting

/-- Where a run starts to look. -/
def Search.start (a : SlabAutomove) : Search := ⟨a.window_data, none, 0, none, 2 ^ 64 - 1, false, none⟩

/-- A regular run visits all classes; at most it stops at the last one. -/
theorem SlabAutomove.Regular.search (h : a.Regular after) : ∃ us s s', a.next.Found after us s ∧
    (∀ m, POWER_SMALLEST ≤ m → m < MAX_NUMBER_OF_SLAB_CLASSES → a.next.reclaims after m = false → m ∈ us) ∧
    (∀ m ∈ us, POWER_SMALLEST ≤ m ∧ m < MAX_NUMBER_OF_SLAB_CLASSES) ∧
    a.next.search after (List.range' POWER_SMALLEST (MAX_NUMBER_OF_SLAB_CLASSES - POWER_SMALLEST)) (.start a.next) = s' ∧
    s'.oldest = s.oldest ∧ s'.oldest_age = s.oldest_age ∧ s'.youngest = s.youngest ∧ s'.youngest_age = s.youngest_age ∧
    s'.youngest_evicting = s.youngest_evicting ∧
    (∀ n ∈ s'.reclaim, POWER_SMALLEST ≤ n ∧ n < MAX_NUMBER_OF_SLAB_CLASSES ∧ a.next.reclaims after n = true) ∧
    ∀ n, POWER_SMALLEST ≤ n → n < MAX_NUMBER_OF_SLAB_CLASSES →
      s'.window_data n = update (a.window_data n) a.next.slot (a.before.mark after n) := by
  have hstart : a.next.Found after [] (.start a.next) :=
    ⟨fun _ => by simp [Search.start], firstBest_nil, firstBest_nil, fun _ h => by cases h⟩
  have hsorted : ([] ++ List.range' POWER_SMALLEST (MAX_NUMBER_OF_SLAB_CLASSES - POWER_SMALLEST)).Pairwise (· < ·) :=
    classes_sorted
  obtain ⟨us, s, -, hfound, hnone, hends⟩ := hstart.search rfl hsorted
  rw [List.nil_append] at hends
  obtain ⟨rfl, hsearch⟩ | ⟨n, ps, hsplit, hreclaims, hsearch⟩ := hends
  · refine ⟨_, s, s, hfound, fun m hm hlt _ => mem_classes.mpr ⟨hm, hlt⟩, fun m hm => mem_classes.mp hm, hsearch, rfl, rfl, rfl, rfl,
      rfl, by simp [hnone], fun n hn hlt => ?_⟩
    rw [hfound.data n, if_pos (mem_classes.mpr ⟨hn, hlt⟩)]
    rfl
  · have hmem (m : Nat) : POWER_SMALLEST ≤ m ∧ m < MAX_NUMBER_OF_SLAB_CLASSES ↔ m ∈ us ++ n :: ps := by
      rw [← hsplit, mem_classes]
    have hsorted := hsplit ▸ classes_sorted
    obtain ⟨hn, hlt⟩ := (hmem n).mpr (by simp)
    obtain ⟨rfl, -⟩ := h.reclaim n hn hlt hreclaims
    have hps : ps = [] := by
      refine List.eq_nil_iff_forall_not_mem.mpr fun m hm => ?_
      have hlarge := (List.pairwise_cons.mp (List.pairwise_append.mp hsorted).2.1).1 m hm
      have hsmall := ((hmem m).mpr (by simp [hm])).2
      omega
    subst hps
    refine ⟨us, s, _, hfound, fun m hm hmlt hrec => ?_, fun m hm => (hmem m).mpr (by simp [hm]), hsearch, rfl, rfl, rfl, rfl, rfl, ?_,
      fun m hm hmlt => ?_⟩
    · obtain hu | hlast := List.mem_append.mp ((hmem m).mp ⟨hm, hmlt⟩)
      · exact hu
      · obtain rfl := List.mem_singleton.mp hlast
        rw [hreclaims] at hrec
        cases hrec
    · rintro m hm
      obtain rfl := Option.some.inj hm
      exact ⟨hn, hlt, hreclaims⟩
    · obtain hu | hlast := List.mem_append.mp ((hmem m).mp ⟨hm, hmlt⟩)
      · have hne : m ≠ MAX_NUMBER_OF_SLAB_CLASSES - 1 := by
          have := (List.pairwise_append.mp hsorted).2.2 m hu _ (List.mem_singleton_self _)
          omega
        simp only [SlabAutomove.set_window, Function.update_of_ne hne, hfound.data m, if_pos hu]
        rfl
      · obtain rfl := List.mem_singleton.mp hlast
        simp only [SlabAutomove.set_window, Function.update_self]
        rfl

/-- A move for the global pool, or between two classes. -/
theorem move_cases (a : SlabAutomove) (s : Search) :
    s.reclaim = none ∧ a.move s = (-1, -1) ∨ (∃ n, s.reclaim = some n ∧ a.move s = ((n : Int), 0)) ∨
      ∃ youngest oldest, s.youngest = some youngest ∧ s.oldest = some oldest ∧ a.window_cur > a.window_size ∧
        (s.youngest_age : ℚ) < s.oldest_age * a.max_age_ratio ∧ s.youngest_evicting = true ∧
        a.move s = ((oldest : Int), (youngest : Int)) := by
  rw [SlabAutomove.move]
  split
  · next youngest oldest hyoungest holdest =>
    split
    · next hcond => exact .inr (.inr ⟨youngest, oldest, hyoungest, holdest, hcond.1, hcond.2.1, hcond.2.2, rfl⟩)
    · cases hreclaim : s.reclaim with
      | none => exact .inl ⟨rfl, rfl⟩
      | some n => exact .inr (.inl ⟨n, rfl, rfl⟩)
  · cases hreclaim : s.reclaim with
    | none => exact .inl ⟨rfl, rfl⟩
    | some n => exact .inr (.inl ⟨n, rfl, rfl⟩)

/-- A regular run. -/
theorem SlabAutomove.Described.run {rows : List (Nat → WindowData)} (h : a.Described rows) (hregular : a.Regular after) :
    ∃ a' move, slab_automove_run a after = some (a', move) ∧ a'.before = after ∧
      RightMove a' after (a.before.mark after :: rows) move := by
  obtain ⟨us, s, s', hfound, hus, hclass, hsearch, hold, hoage, hyoung, hyage, hevicting, hreclaim, hdata⟩ := hregular.search
  have hrun : slab_automove_run a after =
      some ({ a.next with window_data := s'.window_data, before := after }, a.next.move s') := by
    rw [slab_automove_run, if_neg (not_or.mpr ⟨hregular.size, Nat.not_le_of_lt hregular.offsets⟩)]
    exact congrArg (fun s => some (({ a.next with window_data := s.window_data, before := after } : SlabAutomove), a.next.move s)) hsearch
  refine ⟨_, _, hrun, rfl, ?_, ?_, ?_⟩
  · intro n hn hlt
    rw [show ({ a.next with window_data := s'.window_data, before := after } : SlabAutomove).window_data n = _ from
      hdata n hn hlt]
    exact h.put hn hlt hregular.count _
  · intro n hmove
    obtain ⟨-, heq⟩ | ⟨m, hm, heq⟩ | ⟨youngest, oldest, hy, -, -, -, -, heq⟩ := move_cases a.next s'
    · rw [heq] at hmove
      have := (Prod.mk.inj hmove).2
      omega
    · rw [heq] at hmove
      obtain rfl : m = n := by simpa using hmove
      obtain ⟨hn, hlt, hrec⟩ := hreclaim m hm
      exact h.reclaims hn hlt hregular.count hrec (hregular.reclaim m hn hlt hrec).2.1
    · rw [heq] at hmove
      have hzero : youngest = 0 := by simpa using (Prod.mk.inj hmove).2
      have hpos := (hclass youngest (hfound.youngest.present youngest (hyoung ▸ hy)).1).1
      simp [hzero, POWER_SMALLEST] at hpos
  · obtain ⟨-, heq⟩ | ⟨m, hm, heq⟩ | ⟨youngest, oldest, hy, ho, hfilled, hratio, hev, heq⟩ := move_cases a.next s'
    · exact .inl heq
    · obtain ⟨hn, hlt, hrec⟩ := hreclaim m hm
      refine .inr ⟨m, 0, by simp [heq], Nat.ne_of_gt hn, hlt, by decide, (hregular.reclaim m hn hlt hrec).2.2⟩
    · rw [hyoung] at hy
      rw [hold] at ho
      rw [hoage, hyage] at hratio
      rw [hevicting] at hev
      obtain ⟨homem, hpages, -⟩ := hfound.oldest.present oldest ho
      obtain ⟨hymem, -⟩ := hfound.youngest.present youngest hy
      refine .inr ⟨oldest, youngest, heq, ?_, (hclass oldest homem).2, (hclass youngest hymem).2, Nat.le_of_lt hpages⟩
      rintro rfl
      exact hregular.ages oldest (hclass oldest homem).1 (hclass oldest homem).2
        (hfound.selfMove hus ho hy hfilled hratio hev)

/-- A step of a run whose statistics are regular. -/
def RegularStep (a : SlabAutomove) (after : AutomoveStats) (a' : SlabAutomove) : Prop :=
  a.Regular after ∧ ∃ move, slab_automove_run a after = some (a', move)

theorem rows_snoc {before : AutomoveStats} {es : List AutomoveStats} :
    before.rows (es ++ [after]) = (es.getLastD before).mark after :: before.rows es := by
  induction es generalizing before with
  | nil => rfl
  | cons e es ih =>
      rw [List.cons_append, AutomoveStats.rows, ih, List.getLastD_cons, AutomoveStats.rows, List.cons_append]

theorem described_run {es : List AutomoveStats} {rows : List (Nat → WindowData)} (hrun : Run RegularStep a es a')
    (h : a.Described rows) : a'.Described (a.before.rows es ++ rows) ∧ a'.before = es.getLastD a.before := by
  induction hrun generalizing rows with
  | nil a => exact ⟨h, rfl⟩
  | cons hstep _ ih =>
      obtain ⟨hregular, move, hstep⟩ := hstep
      obtain ⟨a₁, move₁, heq, hbefore, hright⟩ := h.run hregular
      obtain ⟨rfl, -⟩ := Prod.mk.inj (Option.some.inj (heq.symm.trans hstep))
      obtain ⟨hdescribed, hlast⟩ := ih hright.described
      rw [hbefore] at hdescribed hlast
      exact ⟨by simpa [AutomoveStats.rows] using hdescribed, by rw [hlast, List.getLastD_cons]⟩

/-- In runs with regular statistics the window and the move are right after each run. -/
theorem slab_automove_right {window_size : UInt32} {max_age_ratio : ℚ} {before : AutomoveStats} {es : List AutomoveStats}
    (hrun : Run RegularStep (slab_automove_init window_size max_age_ratio before) es a) (h : a.Regular after) :
    ∃ a' move, slab_automove_run a after = some (a', move) ∧ RightMove a' after (before.rows (es ++ [after])) move := by
  have hstart : (slab_automove_init window_size max_age_ratio before).Described [] := fun _ _ _ => Ring.holds_start
  obtain ⟨hdescribed, hbefore⟩ := described_run hrun hstart
  obtain ⟨a', move, heq, -, hright⟩ := hdescribed.run h
  rw [hbefore, List.append_nil] at hright
  rw [rows_snoc]
  exact ⟨a', move, heq, hright⟩

theorem slab_automove_run_kept {move : Int × Int} (h : slab_automove_run a after = some (a', move)) :
    a'.window_size = a.window_size ∧ a'.window_cur = a.window_cur + 1 ∧ a'.max_age_ratio = a.max_age_ratio := by
  rw [slab_automove_run] at h
  split at h
  · cases h
  · obtain ⟨rfl, -⟩ := Prod.mk.inj (Option.some.inj h)
    exact ⟨rfl, rfl, rfl⟩

/-- With a ratio of at most 1, and no class with many free chunks. -/
theorem regular_of_ratio_le (hsize : a.window_size ≠ 0)
    (hoffsets : (MAX_NUMBER_OF_SLAB_CLASSES - 1) * a.window_size.toNat < 2 ^ 31) (hcount : a.window_cur.toNat + 1 < 2 ^ 32)
    (hratio : a.max_age_ratio ≤ 1) (hfree : ∀ n, after.many_free n = false) : a.Regular after where
  size := hsize
  offsets := hoffsets
  count := .inl hcount
  reclaim := fun n _ _ h => by simp [SlabAutomove.reclaims, hfree] at h
  ages := by
    intro n _ _ h
    have hage : (0 : ℚ) ≤ a.next.age n := Nat.cast_nonneg _
    exact absurd h.ratio (not_lt_of_ge (mul_le_of_le_one_right hage hratio))

end

/-! Two runs in which class 2 evicts and class 1 has old items. -/

def evictions (evicted : Nat) : AutomoveStats where
  iam := fun n => if n = 1 then ⟨0, 0, 100⟩ else if n = 2 then ⟨evicted, 0, 1⟩ else ⟨0, 0, 0⟩
  sam := fun n => if n = 1 then ⟨10, 96, 0, 5⟩ else if n = 2 then ⟨10, 120, 0, 1⟩ else ⟨0, 0, 0, 0⟩

theorem slab_automove_right_witness : ∃ a, Run RegularStep (slab_automove_init 1 (4 / 5) (evictions 0)) [evictions 1] a ∧
    ∃ a' move, slab_automove_run a (evictions 2) = some (a', move) ∧
      RightMove a' (evictions 2) ((evictions 0).rows [evictions 1, evictions 2]) move := by
  have hfree (k n : Nat) : (evictions k).many_free n = false := by
    simp only [AutomoveStats.many_free, evictions]
    split_ifs <;> rfl
  have hratio : (4 / 5 : ℚ) ≤ 1 := by norm_num
  have hregular : (slab_automove_init 1 (4 / 5) (evictions 0)).Regular (evictions 1) :=
    regular_of_ratio_le (by decide) (by decide) (by decide) hratio (hfree 1)
  obtain ⟨a, move, heq, -⟩ := slab_automove_right (.nil _) hregular
  obtain ⟨hsize, hcur, hkept⟩ := slab_automove_run_kept heq
  have hrun : Run RegularStep (slab_automove_init 1 (4 / 5) (evictions 0)) [evictions 1] a :=
    .cons ⟨hregular, move, heq⟩ (.nil a)
  refine ⟨a, hrun, slab_automove_right hrun (regular_of_ratio_le ?_ ?_ ?_ ?_ (hfree 2))⟩
  · rw [hsize]; decide
  · rw [hsize]; decide
  · rw [hcur]; decide
  · rw [hkept]; exact hratio

/-- Class 1 has ten free pages and evicts: a page of it is for the global pool. -/
theorem evicting_class_reclaimed : ∃ window_size max_age_ratio before after a' move, window_size ≠ 0 ∧
    slab_automove_run (slab_automove_init window_size max_age_ratio before) after = some (a', move) ∧
    ¬ RightMove a' after (before.rows [after]) move := by
  have hmove : (slab_automove_run (slab_automove_init 1 0 ⟨fun _ => ⟨0, 0, 0⟩, fun _ => ⟨10, 96, 100, 10⟩⟩)
      ⟨fun _ => ⟨1, 0, 0⟩, fun _ => ⟨10, 96, 100, 10⟩⟩).map Prod.snd = some (1, 0) := by decide +kernel
  obtain ⟨⟨a', move⟩, heq, rfl⟩ := Option.map_eq_some_iff.mp hmove
  refine ⟨1, 0, _, _, a', _, by decide, heq, fun h => ?_⟩
  obtain ⟨hsize, -⟩ := slab_automove_run_kept heq
  have hdirty := h.clean 1 rfl 0 (by rw [hsize]; decide)
  revert hdirty
  decide

end Memcached.MemoryLru

import Mathlib.Data.List.Basic
import Memcached.MemoryLru.AutomoveExtstore
import Memcached.MemoryLru.AutomoveTheorems

/-!
# Donors of the page mover for external storage

In regular runs the three copies do the same, and the rule about free chunks proposes no class to which something happened in
the window.
-/

namespace Memcached.MemoryLru

open Function (update)
open Transition

/-- The copies of `slab_automove_extstore_run`. -/
inductive MoverCopy
  | exstore
  | memory_lru
  | memory_rebalance

def MoverCopy.run : MoverCopy → ExtMover → MoverInput → Option (ExtMover × ExtMove)
  | .exstore => Exstore.slab_automove_extstore_run
  | .memory_lru => MemoryLru.slab_automove_extstore_run
  | .memory_rebalance => MemoryRebalance.slab_automove_extstore_run

/-- The class evicted, ran out of memory, or got a page. -/
def AutomoveStats.event (before after : AutomoveStats) (n : Nat) : Bool := before.evicting after n ∨ before.growing after n

/-- To which classes something happened in the runs with the given inputs, the last run first. -/
def AutomoveStats.events (before : AutomoveStats) : List MoverInput → List (Nat → Bool)
  | [] => []
  | i :: is => i.after.events is ++ [before.event i.after]

/-- There are slots, and the offsets are `int`s; the count of the runs stays a 32-bit number, or the window divides its
range; a class that gets a page also evicts or runs out of memory; and a class that evicts or runs out of memory does not
pass the rule about free chunks. -/
structure ExtMover.Regular (a : ExtMover) (i : MoverInput) : Prop where
  size : a.window_size ≠ 0
  offsets : (MAX_NUMBER_OF_SLAB_CLASSES - 1) * a.window_size.toNat < 2 ^ 31
  count : a.window_cur.toNat + 1 < 2 ^ 32 ∨ a.window_size.toNat ∣ 2 ^ 32
  growing : ∀ n, POWER_SMALLEST ≤ n → n < MAX_NUMBER_OF_SLAB_CLASSES → a.before.growing i.after n = true →
    a.before.evicting i.after n = true
  reclaims : ∀ n, POWER_SMALLEST ≤ n → n < MAX_NUMBER_OF_SLAB_CLASSES → a.before.evicting i.after n = true →
    a.reclaims i.after n = false

/-- A step of a run of a copy with regular inputs. -/
def MoverStep (copy : MoverCopy) (a : ExtMover) (i : MoverInput) (a' : ExtMover) : Prop :=
  a.Regular i ∧ ∃ move, copy.run a i = some (a', move)

/-- The slots say to which classes something happened. -/
def ExtMover.Described (a : ExtMover) (events : List (Nat → Bool)) : Prop :=
  ∀ n, POWER_SMALLEST ≤ n → n < MAX_NUMBER_OF_SLAB_CLASSES →
    Ring.Holds a.window_size.toNat a.window_cur.toNat (fun x => (a.window_data n x).dirty)
      (events.map fun event => if event n then 1 else 0) 0

section
variable {a a' : ExtMover} {i : MoverInput} {after : AutomoveStats} {n : Nat} {ns : List Nat} {s : ExtSearch}
  {page_delta : Bool} {move : ExtMove} {events : List (Nat → Bool)} {copy copy' : MoverCopy}

/-! ## The loop -/

@[simp] theorem visit_window_data : (a.visit after page_delta s n).window_data =
    update s.window_data n (update (a.window_data n) a.slot (a.mark after n page_delta)) := by
  simp only [ExtMover.visit]
  split_ifs <;> rfl

@[simp] theorem visit_donor : (a.visit after page_delta s n).donor = if a.reclaims after n then some n else s.donor := by
  simp only [ExtMover.visit]
  split_ifs <;> rfl

theorem visits_window_data : (ns.foldl (a.visit after page_delta) s).window_data n =
    if n ∈ ns then update (a.window_data n) a.slot (a.mark after n page_delta) else s.window_data n := by
  induction ns generalizing s with
  | nil => simp
  | cons m ns ih =>
      rw [List.foldl_cons, ih, visit_window_data]
      by_cases hn : n ∈ ns
      · simp [hn]
      · by_cases hm : n = m
        · subst hm
          simp [hn]
        · simp [hn, hm]

theorem visits_donor (h : (ns.foldl (a.visit after page_delta) s).donor = some n) :
    s.donor = some n ∨ n ∈ ns ∧ a.reclaims after n = true := by
  induction ns generalizing s with
  | nil => exact .inl h
  | cons m ns ih =>
      obtain hdonor | ⟨hmem, hreclaims⟩ := ih h
      · rw [visit_donor] at hdonor
        split at hdonor
        · next hreclaims =>
          obtain rfl := Option.some.inj hdonor
          exact .inr ⟨by simp, hreclaims⟩
        · exact .inl hdonor
      · exact .inr ⟨by simp [hmem], hreclaims⟩

/-- Where each class that grows also evicts, the copies mark the same. -/
theorem mark_same (h : a.before.growing after n = true → a.before.evicting after n = true) :
    a.mark after n page_delta = a.mark after n true := by
  cases he : a.before.evicting after n with
  | true => simp [ExtMover.mark, he]
  | false =>
      have hg : a.before.growing after n = false := by
        cases hg : a.before.growing after n with
        | true => exact (h hg).symm.trans he
        | false => rfl
      simp [ExtMover.mark, he, hg]

theorem visits_same (h : ∀ n ∈ ns, a.before.growing after n = true → a.before.evicting after n = true) :
    ns.foldl (a.visit after page_delta) s = ns.foldl (a.visit after true) s := by
  refine List.foldl_ext _ _ _ fun s n hn => ?_
  simp only [ExtMover.visit, mark_same (h n hn)]

/-! ## Around the loop -/

/-- What the checks before the loop, and the decisions after it, leave as it is. -/
structure Kept (a a' : ExtMover) : Prop where
  window_size : a'.window_size = a.window_size
  window_cur : a'.window_cur = a.window_cur
  item_size : a'.item_size = a.item_size
  before : a'.before = a.before

theorem global_pool_check_kept : Kept a (a.global_pool_check i) ∧ (a.global_pool_check i).window_data = a.window_data := by
  simp only [ExtMover.global_pool_check]
  split_ifs <;> exact ⟨⟨rfl, rfl, rfl, rfl⟩, rfl⟩

theorem memcheck_kept : Kept a (a.memcheck i) ∧ (a.memcheck i).window_data = a.window_data := by
  simp only [ExtMover.memcheck]
  split_ifs <;> exact ⟨⟨rfl, rfl, rfl, rfl⟩, rfl⟩

theorem relax_dirty (youngest m x : Nat) :
    ((a.relax youngest).window_data m x).dirty = (a.window_data m x).dirty := by
  simp only [ExtMover.relax, Function.update_apply]
  split_ifs with hm
  · subst hm
    rw [Function.update_apply]
    split_ifs with hx
    · rw [hx]
    · rfl
  · rfl

theorem donate_donor (donor : Option Nat) : (ExtMover.donate donor).donor = donor := by cases donor <;> rfl

theorem feed_kept : Kept a (a.feed after s).1 ∧
    (∀ m x, ((a.feed after s).1.window_data m x).dirty = (a.window_data m x).dirty) ∧ (a.feed after s).2.donor = s.donor := by
  refine ⟨⟨rfl, rfl, rfl, rfl⟩, relax_dirty _, ?_⟩
  simp only [ExtMover.feed]
  split_ifs
  · rfl
  · exact donate_donor _

theorem decide_move_kept (wg_sum : WindowGlobal) : Kept a (a.decide_move after wg_sum s).1 ∧
    (∀ m x, ((a.decide_move after wg_sum s).1.window_data m x).dirty = (a.window_data m x).dirty) ∧
    (a.decide_move after wg_sum s).2.donor = s.donor := by
  have hself : Kept a a := ⟨rfl, rfl, rfl, rfl⟩
  simp only [ExtMover.decide_move]
  split_ifs
  · exact ⟨hself, fun _ _ => rfl, donate_donor _⟩
  · exact feed_kept
  · exact ⟨hself, fun _ _ => rfl, rfl⟩
  · exact feed_kept
  · exact ⟨hself, fun _ _ => rfl, donate_donor _⟩

/-! ## Runs -/

/-- The state in which a run goes through the classes. -/
def ExtMover.prepared (a : ExtMover) (i : MoverInput) : ExtMover :=
  { a.global_pool_check i with window_cur := (a.global_pool_check i).window_cur + 1 }.memcheck i

theorem prepared_eq : (a.prepared i).window_data = a.window_data ∧ (a.prepared i).window_size = a.window_size ∧
    (a.prepared i).window_cur = a.window_cur + 1 ∧ (a.prepared i).item_size = a.item_size ∧
    (a.prepared i).before = a.before := by
  obtain ⟨hpool, hpdata⟩ := @global_pool_check_kept a i
  obtain ⟨hmem, hmdata⟩ := @memcheck_kept
    { a.global_pool_check i with window_cur := (a.global_pool_check i).window_cur + 1 } i
  exact ⟨hmdata.trans hpdata, hmem.window_size.trans hpool.window_size,
    hmem.window_cur.trans (congrArg (· + 1) hpool.window_cur), hmem.item_size.trans hpool.item_size,
    hmem.before.trans hpool.before⟩

/-- The state with what the loop has written. -/
def ExtMover.searched (a : ExtMover) (i : MoverInput) (page_delta : Bool) : ExtMover :=
  { a.prepared i with window_data := ((a.prepared i).search i.after page_delta).window_data, before := i.after }

/-- `wg_sum` of a run. -/
def ExtMover.pool_sum (a : ExtMover) (i : MoverInput) : WindowGlobal :=
  window_global_sum (a.global_pool_check i).window_global (a.global_pool_check i).window_size.toNat

theorem run_eq (h : a.Regular i) : a.run i page_delta =
    some ((a.searched i page_delta).decide_move i.after (a.pool_sum i) ((a.prepared i).search i.after page_delta)) := by
  rw [ExtMover.run, if_neg (not_or.mpr ⟨h.size, Nat.not_le_of_lt h.offsets⟩)]
  rfl

/-- With regular inputs all copies do what that of exstore does. -/
theorem run_same (h : a.Regular i) : a.run i page_delta = a.run i true := by
  have hsearch : (a.prepared i).search i.after page_delta = (a.prepared i).search i.after true := by
    refine visits_same fun n hn hg => ?_
    obtain ⟨hle, hlt⟩ := mem_classes.mp hn
    rw [prepared_eq.2.2.2.2] at hg ⊢
    exact h.growing n hle hlt hg
  rw [run_eq h, run_eq h, ExtMover.searched, hsearch]
  rfl

theorem copies_same (h : a.Regular i) : copy.run a i = a.run i true := by
  cases copy with
  | exstore => rfl
  | memory_lru => rfl
  | memory_rebalance => exact run_same h

theorem ext_window_sum_dirty {wd : Nat → ExtWindowData} {size : Nat} :
    (ext_window_sum wd size).dirty = 0 ↔ ∀ x < size, (wd x).dirty = 0 := by
  simp [ext_window_sum, List.sum_eq_zero_iff_forall_eq_nat]

theorem getD_event {k : Nat} : (events.map fun event => if event n then 1 else 0).getD k 0 =
    if (events.getD k fun _ => false) n then 1 else 0 := by
  simp only [List.getD_eq_getElem?_getD, List.getElem?_map]
  cases events[k]? <;> rfl

/-- What the rule about free chunks means for the runs before. -/
theorem ExtMover.Described.reclaims (h : a.Described events) (hn : POWER_SMALLEST ≤ n) (hlt : n < MAX_NUMBER_OF_SLAB_CLASSES)
    (hreclaims : a.reclaims after n = true) : ∀ k < a.window_size.toNat, (events.getD k fun _ => false) n = false := by
  have hdirty : (a.w_sum n).dirty = 0 := by
    rw [ExtMover.reclaims, decide_eq_true_eq] at hreclaims
    exact hreclaims.2.1
  have hall := (h n hn hlt).forall_iff (p := fun d => d = 0).mp (ext_window_sum_dirty.mp hdirty)
  intro k hk
  have hzero := hall k hk
  rw [getD_event] at hzero
  simpa using hzero

theorem reclaims_prepared : (a.prepared i).reclaims after n = a.reclaims after n := by
  obtain ⟨hdata, hsize, -, hitem, hbefore⟩ := @prepared_eq a i
  rw [Bool.eq_iff_iff, ExtMover.reclaims, ExtMover.reclaims, decide_eq_true_eq, decide_eq_true_eq]
  simp only [ExtMover.w_sum, ExtMover.small_slab, hdata, hsize, hitem, hbefore]

theorem event_mark (before : AutomoveStats) (h : a.before = before) :
    (a.mark after n true).dirty = if before.event after n then 1 else 0 := by
  subst h
  simp [ExtMover.mark, AutomoveStats.event]

/-- What a run writes into the window. -/
theorem searched_dirty (hn : POWER_SMALLEST ≤ n) (hlt : n < MAX_NUMBER_OF_SLAB_CLASSES) :
    (fun x => ((a.searched i true).window_data n x).dirty) = update (fun x => (a.window_data n x).dirty) (a.prepared i).slot
      (if a.before.event i.after n then 1 else 0) := by
  obtain ⟨hdata, -, -, -, hbefore⟩ := @prepared_eq a i
  have hwindow : (a.searched i true).window_data n =
      update (a.window_data n) (a.prepared i).slot ((a.prepared i).mark i.after n true) := by
    rw [← hdata]
    exact visits_window_data.trans (if_pos (mem_classes.mpr ⟨hn, hlt⟩))
  funext x
  rw [hwindow, Function.update_apply, Function.update_apply, ← event_mark a.before hbefore]
  split_ifs <;> rfl

/-- A regular run. -/
theorem ExtMover.Described.run (h : a.Described events) (hregular : a.Regular i) : ∃ a' move, a.run i true = some (a', move) ∧
    a'.before = i.after ∧ a'.window_size = a.window_size ∧ a'.Described (a.before.event i.after :: events) ∧
    ∀ n, move.donor = some n → ∀ k < a.window_size.toNat,
      (((a.before.event i.after :: events).getD k fun _ => false) n) = false := by
  obtain ⟨-, hsize, hcur, -, -⟩ := @prepared_eq a i
  obtain ⟨hkept, hdirty, hdonor⟩ := @decide_move_kept (a.searched i true) i.after ((a.prepared i).search i.after true)
    (a.pool_sum i)
  have hrun : a.run i true = _ := run_eq hregular
  generalize (a.searched i true).decide_move i.after (a.pool_sum i) ((a.prepared i).search i.after true) = r at *
  refine ⟨r.1, r.2, hrun, hkept.before, hkept.window_size.trans hsize, fun n hn hlt => ?_, fun n hn k hk => ?_⟩
  · have hwindow : (fun x => (r.1.window_data n x).dirty) = update (fun x => (a.window_data n x).dirty) (a.prepared i).slot
        (if a.before.event i.after n then 1 else 0) := by
      rw [← searched_dirty hn hlt]
      exact funext fun x => hdirty n x
    have hslot : (a.prepared i).slot = (a.window_cur + 1).toNat % a.window_size.toNat := by
      rw [ExtMover.slot, hcur, hsize]
    rw [hwindow, hslot, hkept.window_size.trans hsize, hkept.window_cur.trans hcur]
    refine (h n hn hlt).put ?_ _
    rw [UInt32.toNat_add]
    obtain hsmall | hdvd := hregular.count
    · exact congrArg (· % a.window_size.toNat) (Nat.mod_eq_of_lt hsmall)
    · exact Nat.mod_mod_of_dvd _ hdvd
  · rw [hdonor] at hn
    obtain hstart | ⟨hmem, hreclaims⟩ := visits_donor hn
    · cases hstart
    obtain ⟨hle, hlt⟩ := mem_classes.mp hmem
    rw [reclaims_prepared] at hreclaims
    cases k with
    | zero =>
        cases hevent : a.before.event i.after n with
        | false => exact hevent
        | true =>
            have hevicting : a.before.evicting i.after n = true := by
              rw [AutomoveStats.event, decide_eq_true_eq] at hevent
              exact hevent.elim id (hregular.growing n hle hlt)
            exact absurd (hregular.reclaims n hle hlt hevicting) (by simp [hreclaims])
    | succ k => exact h.reclaims hle hlt hreclaims k (by omega)

theorem events_snoc {before : AutomoveStats} {is : List MoverInput} :
    before.events (is ++ [i]) = ((is.map (·.after)).getLastD before).event i.after :: before.events is := by
  induction is generalizing before with
  | nil => rfl
  | cons j is ih =>
      rw [List.cons_append, AutomoveStats.events, ih, List.map_cons, List.getLastD_cons, AutomoveStats.events, List.cons_append]

theorem MoverStep.other (h : MoverStep copy a i a') (copy' : MoverCopy) : MoverStep copy' a i a' := by
  obtain ⟨hregular, move, heq⟩ := h
  have hsame : copy.run a i = a.run i true := copies_same hregular
  exact ⟨hregular, move, by rw [copies_same hregular, ← hsame, heq]⟩

theorem mover_described {is : List MoverInput} (hrun : Run (MoverStep copy) a is a') (h : a.Described events) :
    a'.Described (a.before.events is ++ events) ∧ a'.before = (is.map (·.after)).getLastD a.before ∧
      a'.window_size = a.window_size := by
  induction hrun generalizing events with
  | nil a => exact ⟨h, rfl, rfl⟩
  | cons hstep _ ih =>
      obtain ⟨hregular, move, heq⟩ := hstep
      obtain ⟨a₁, move₁, heq₁, hbefore, hsize, hdescribed, -⟩ := h.run hregular
      rw [copies_same hregular, heq₁] at heq
      obtain ⟨rfl, -⟩ := Prod.mk.inj (Option.some.inj heq)
      obtain ⟨hd, hb, hs⟩ := ih hdescribed
      rw [hbefore] at hd hb
      exact ⟨by simpa [AutomoveStats.events] using hd, by rw [hb, List.map_cons, List.getLastD_cons], hs.trans hsize⟩

/-- In runs with regular inputs all copies reach the same states and move the same pages, and the class that the rule about
free chunks proposes had nothing happen to it in this run and in the others of the window. -/
theorem mover_copies_right {window_size item_size : UInt32} {ratios : MoverRatios} {chunks : Nat → UInt32}
    {before : AutomoveStats} {is : List MoverInput}
    (hrun : Run (MoverStep copy) (slab_automove_extstore_init window_size item_size ratios chunks before) is a)
    (h : a.Regular i) : ∃ a' move, (∀ copy', copy'.run a i = some (a', move) ∧
      Run (MoverStep copy') (slab_automove_extstore_init window_size item_size ratios chunks before) is a) ∧
    ∀ n, move.donor = some n → ∀ k < window_size.toNat,
      ((before.events (is ++ [i])).getD k fun _ => false) n = false := by
  have hstart : (slab_automove_extstore_init window_size item_size ratios chunks before).Described [] :=
    fun _ _ _ => Ring.holds_start
  obtain ⟨hdescribed, hbefore, hsize⟩ := mover_described hrun hstart
  obtain ⟨a', move, heq, -, -, -, hdonor⟩ := hdescribed.run h
  rw [hbefore, List.append_nil, hsize] at hdonor
  rw [events_snoc]
  exact ⟨a', move, fun copy' => ⟨(copies_same h).trans heq, hrun.mono fun hstep => hstep.other copy'⟩, hdonor⟩

end

/-- A window of one run, and class 2 of `evictions`. -/
def one_run : ExtMover := slab_automove_extstore_init 1 512 ⟨fun _ => 0, fun _ _ => false⟩ (fun _ => 0) (evictions 0)

theorem mover_copies_right_witness : ∃ a i, i.after = evictions 2 ∧
    Run (MoverStep .memory_rebalance) one_run [⟨evictions 1, 1, 0, false⟩] a ∧
    ∃ a' move, (∀ copy', copy'.run a i = some (a', move) ∧
        Run (MoverStep copy') one_run [⟨evictions 1, 1, 0, false⟩] a) ∧
      ∀ n, move.donor = some n → ∀ k < (1 : UInt32).toNat,
        (((evictions 0).events [⟨evictions 1, 1, 0, false⟩, i]).getD k fun _ => false) n = false := by
  have hregular (a : ExtMover) (k : Nat) (hsize : a.window_size = 1) (hbefore : a.before = evictions k) :
      a.Regular ⟨evictions (k + 1), 1, 0, false⟩ := by
    refine ⟨by simp [hsize], by rw [hsize]; decide, .inr (by simp [hsize]), fun n _ _ hg => ?_, fun n _ _ _ => ?_⟩
    · rw [hbefore] at hg
      simp [AutomoveStats.growing, evictions] at hg
    · have hfree : (evictions (k + 1)).many_free n = false := by
        simp only [AutomoveStats.many_free, evictions]
        split_ifs <;> rfl
      simp [ExtMover.reclaims, hfree]
  have hfirst : one_run.Regular ⟨evictions 1, 1, 0, false⟩ := hregular one_run 0 rfl rfl
  have hnil : Run (MoverStep .exstore) one_run [] one_run := .nil one_run
  obtain ⟨a, move, hall, -⟩ := mover_copies_right hnil hfirst
  have hrun : Run (MoverStep .memory_rebalance) one_run [⟨evictions 1, 1, 0, false⟩] a :=
    .cons ⟨hfirst, move, (hall .memory_rebalance).1⟩ (.nil a)
  have hstart : one_run.Described [] := fun _ _ _ => Ring.holds_start
  obtain ⟨-, hbefore, hsize⟩ := mover_described hrun hstart
  exact ⟨a, _, rfl, hrun, mover_copies_right hrun (hregular a 1 hsize hbefore)⟩

/-- Class 1 has small chunks, ten free pages, and evicts: it is proposed. And after it got a page, it is proposed by one copy
and not by the others. -/
theorem evicting_class_donated :
    (∃ a i, a = slab_automove_extstore_init 1 512 ⟨fun _ => 0, fun _ _ => false⟩ (fun _ => 0)
        ⟨fun _ => ⟨0, 0, 0⟩, fun n => if n = 1 then ⟨10, 96, 100, 10⟩ else ⟨0, 0, 0, 0⟩⟩ ∧
      (Exstore.slab_automove_extstore_run a i).map Prod.snd = some ⟨1, 0, some 1⟩ ∧ a.before.evicting i.after 1 = true) ∧
    ∃ a i j, a = slab_automove_extstore_init 2 512 ⟨fun _ => 0, fun _ _ => false⟩ (fun _ => 0)
        ⟨fun _ => ⟨0, 0, 0⟩, fun n => if n = 1 then ⟨10, 96, 0, 10⟩ else ⟨0, 0, 0, 0⟩⟩ ∧
      ((Exstore.slab_automove_extstore_run a i).bind fun r => Exstore.slab_automove_extstore_run r.1 j).map Prod.snd ≠
        ((MemoryRebalance.slab_automove_extstore_run a i).bind fun r =>
          MemoryRebalance.slab_automove_extstore_run r.1 j).map Prod.snd := by
  refine ⟨⟨_, ⟨⟨fun n => if n = 1 then ⟨1, 0, 0⟩ else ⟨0, 0, 0⟩, fun n => if n = 1 then ⟨10, 96, 100, 10⟩ else ⟨0, 0, 0, 0⟩⟩,
      1, 0, false⟩, rfl, by decide +kernel, by decide⟩,
    _, ⟨⟨fun _ => ⟨0, 0, 0⟩, fun n => if n = 1 then ⟨10, 96, 0, 11⟩ else ⟨0, 0, 0, 0⟩⟩, 1, 0, false⟩,
    ⟨⟨fun _ => ⟨0, 0, 0⟩, fun n => if n = 1 then ⟨10, 96, 100, 11⟩ else ⟨0, 0, 0, 0⟩⟩, 2, 0, false⟩, rfl, by decide +kernel⟩

end Memcached.MemoryLru

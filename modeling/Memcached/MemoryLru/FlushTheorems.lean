import Memcached.MemoryLru.Flush
import Memcached.MemoryLru.LinkTheorems
import Memcached.MemoryLru.Lemmas.ItemFrames

/-!
# What was flushed stays flushed

An item that a flush has invalidated is not found again, unless a later flush puts the deadline back or into the future, or
a bump gives the item a new time and its CAS does not tell.
-/

namespace Memcached.MemoryLru

open Transition

namespace Store

def flushed (s : Store) (n : Nat) : Bool := s.item_is_flushed (s.heap (.item n))

/-- Flushed, and its CAS says so. -/
def flushed_by_cas (s : Store) (it : Item) : Bool := s.oldest_cas ≠ 0 ∧ it.get_cas ≠ 0 ∧ it.get_cas < s.oldest_cas

/-- Whether `do_item_update` gives the item a new time. -/
def rewrites (cfg : Settings) (s : Store) (p : Ptr) : Bool :=
  (s.heap p).it_flags.linked ∧
    (cfg.lru_segmented = true ∧ (s.heap p).lruid = Lru.COLD_LRU.bits ∧ (s.heap p).it_flags.active ∨ s.update_due p)

/-- The deadline that a flush sets. -/
def new_oldest_live (cfg : Settings) (s : Store) (delayed : Option UInt32) : UInt32 :=
  delayed.getD s.current_time - if cfg.use_cas then 1 else 0

/-- A flush moves a deadline that has passed forward, but not past the present; a bump gives no new time to an item that
was flushed for its time alone, before this second. -/
def Lasting (cfg : Settings) (s : Store) : FlushEvent → Prop
  | .flush_all delayed =>
      s.oldest_live = 0 ∨ s.current_time < s.oldest_live ∨
        s.oldest_live ≤ s.new_oldest_live cfg delayed ∧ s.new_oldest_live cfg delayed ≤ s.current_time ∧
          (cfg.use_cas = true → s.oldest_cas ≤ s.cas_id + 1)
  | .bump n =>
      s.flushed n = false ∨ s.flushed_by_cas (s.heap (.item n)) = true ∨ s.oldest_live = s.current_time ∨
        s.rewrites cfg (.item n) = false
  | .get _ _ _ | .tick _ => True

structure LastingStep (cfg : Settings) (s : Store) (e : FlushEvent) (s' : Store) : Prop where
  step : FlushStep cfg s e s'
  lasting : Lasting cfg s e

/-- The item is not to be found: it is flushed, if it is linked at all. -/
def Gone (s : Store) (n : Nat) : Prop := (s.heap (.item n)).it_flags.linked → s.flushed n

section
variable {cfg : Settings} {s s' s'' : Store} {p : Ptr} {n m : Nat}

theorem item_is_flushed_iff {it : Item} : s.item_is_flushed it = true ↔
    s.oldest_live ≠ 0 ∧ s.oldest_live ≤ s.current_time ∧ (it.time ≤ s.oldest_live ∨ s.flushed_by_cas it = true) := by
  simp only [item_is_flushed, flushed_by_cas]
  split_ifs with h
  · refine iff_of_false (by simp) ?_
    rintro ⟨hne, hle, -⟩
    rcases h with h | h
    · exact hne h
    · exact UInt32.not_lt.mpr hle h
  · rw [not_or, UInt32.not_lt] at h
    simp [h.1, h.2]

/-! ## The clock and the deadline -/

structure SameClock (s s' : Store) : Prop where
  current_time : s'.current_time = s.current_time
  oldest_live : s'.oldest_live = s.oldest_live
  oldest_cas : s'.oldest_cas = s.oldest_cas

theorem SameClock.refl : SameClock s s := ⟨rfl, rfl, rfl⟩

theorem SameClock.trans (h : SameClock s s') (h' : SameClock s' s'') : SameClock s s'' :=
  ⟨h'.current_time.trans h.current_time, h'.oldest_live.trans h.oldest_live, h'.oldest_cas.trans h.oldest_cas⟩

theorem SameClock.kept (h : Kept s s' p) : SameClock s s' := ⟨by rw [h.rest], by rw [h.rest], by rw [h.rest]⟩

theorem SameClock.core (h : SameCore s s') : SameClock s s' := ⟨by rw [h.rest], by rw [h.rest], by rw [h.rest]⟩

theorem SameClock.do_item_remove (h : s.do_item_remove p = some s') : SameClock s s' := by
  obtain ⟨-, ⟨-, -, rfl⟩ | ⟨-, -, rfl⟩⟩ := do_item_remove_cases h
  · exact .kept refcount_decr_kept
  · exact ⟨rfl, rfl, rfl⟩

theorem SameClock.do_item_unlink (h : s.do_item_unlink p = some s') : SameClock s s' := by
  obtain ⟨-, rfl⟩ | ⟨-, s₁, hunlink, hremove⟩ := do_item_unlink_cases h
  · exact .refl
  · have hunlinking : SameClock s (s.unlinking p) := ⟨rfl, rfl, rfl⟩
    exact (hunlinking.trans (.core (do_item_unlink_q_core hunlink))).trans (.do_item_remove hremove)

theorem SameClock.flushed_core (h : SameClock s s') (hcore : (s'.heap (.item n)).core = (s.heap (.item n)).core) :
    s'.flushed n = s.flushed n := by
  have htime : (s'.heap (.item n)).time = (s.heap (.item n)).time := Item.core_congr Item.time (fun _ => rfl) hcore
  have hcas : (s'.heap (.item n)).get_cas = (s.heap (.item n)).get_cas := Item.core_congr Item.get_cas (fun _ => rfl) hcore
  simp only [flushed, item_is_flushed, h.current_time, h.oldest_live, h.oldest_cas, htime, hcas]

theorem Gone.core (hg : Gone s n) (h : SameClock s s') (hcore : (s'.heap (.item n)).core = (s.heap (.item n)).core) :
    Gone s' n := by
  intro hl
  rw [h.flushed_core hcore]
  exact hg ((Item.core_congr (·.it_flags.linked) (fun _ => rfl) hcore).symm.trans hl)

/-! ## Flushes -/

theorem flush_all_heap (delayed : Option UInt32) : (s.flush_all cfg delayed).heap = s.heap := by
  simp only [flush_all]
  split_ifs <;> rfl

theorem flush_all_current_time (delayed : Option UInt32) : (s.flush_all cfg delayed).current_time = s.current_time := by
  simp only [flush_all]
  split_ifs <;> rfl

theorem flush_all_oldest_live (delayed : Option UInt32) :
    (s.flush_all cfg delayed).oldest_live = s.new_oldest_live cfg delayed := by
  simp only [flush_all, new_oldest_live]
  split_ifs <;> simp

/-- A deadline that is not in the future comes with a new CAS, if CAS is used. -/
theorem flush_all_oldest_cas {delayed : Option UInt32} (h : s.new_oldest_live cfg delayed ≤ s.current_time) :
    (s.flush_all cfg delayed).oldest_cas = if cfg.use_cas then s.cas_id + 1 else s.oldest_cas := by
  cases huse : cfg.use_cas with
  | true =>
      simp only [new_oldest_live, huse, if_true] at h
      simp [flush_all, huse, h]
  | false => simp [flush_all, huse]

theorem flushed_by_cas_mono {it : Item} (h : s.flushed_by_cas it = true) (hle : s.oldest_cas ≤ s'.oldest_cas) :
    s'.flushed_by_cas it = true := by
  simp only [flushed_by_cas, decide_eq_true_eq] at h ⊢
  obtain ⟨-, hcas, hlt⟩ := h
  have hlt' := UInt64.lt_of_lt_of_le hlt hle
  refine ⟨fun hzero => ?_, hcas, hlt'⟩
  rw [hzero] at hlt'
  exact absurd hlt' (UInt64.not_lt.mpr (UInt64.le_iff_toNat_le.mpr (Nat.zero_le _)))

theorem Gone.flush_all {delayed : Option UInt32} (hg : Gone s n) (h : Lasting cfg s (.flush_all delayed)) :
    Gone (s.flush_all cfg delayed) n := by
  intro hl
  rw [flush_all_heap] at hl
  obtain ⟨hne, hpassed, htime⟩ := item_is_flushed_iff.mp (hg hl)
  rcases h with hnone | hfuture | ⟨hlater, hnow, hcount⟩
  · exact absurd hnone hne
  · exact absurd hfuture (UInt32.not_lt.mpr hpassed)
  rw [flushed, item_is_flushed_iff, flush_all_heap, flush_all_current_time, flush_all_oldest_live]
  refine ⟨fun hzero => ?_, hnow, htime.imp (fun ht => UInt32.le_trans ht hlater) fun hcas => ?_⟩
  · rw [hzero] at hlater
    exact hne (UInt32.toNat_inj.mp (Nat.le_zero.mp (UInt32.le_iff_toNat_le.mp hlater)))
  · refine flushed_by_cas_mono hcas ?_
    rw [flush_all_oldest_cas hnow]
    split_ifs with huse
    · exact hcount huse
    · exact UInt64.le_refl _

/-! ## Gets and bumps -/

theorem Gone.of_unlinked (h : ¬ (s.heap (.item n)).it_flags.linked) : Gone s n := fun hl => absurd hl h

/-- A get of another item leaves this one alone; of this one it finds that it was flushed. -/
theorem Gone.do_item_get {key : Key} {do_update room : Bool} {r : Option Ptr} (hs : s.Sound) (hg : Gone s n)
    (h : s.do_item_get cfg key do_update room = some (s', r)) : Gone s' n := by
  obtain ⟨-, rfl, -⟩ | ⟨it, htable, hcases⟩ := do_item_get_cases h
  · exact hg
  obtain ⟨m, rfl⟩ := hs.is_item htable
  obtain ⟨-, -, s₁, hunlink, hremove⟩ | ⟨hlive, -, s₁, rfl, hmark⟩ := hcases
  · by_cases hn : Ptr.item n = .item m
    · apply Gone.of_unlinked
      rw [hn]
      exact do_item_remove_unlinked hremove (do_item_unlink_unlinked hunlink)
    · have hclock : SameClock s s' :=
        (SameClock.kept refcount_incr_kept).trans ((SameClock.do_item_unlink hunlink).trans (.do_item_remove hremove))
      refine hg.core hclock ?_
      rw [Pull.do_item_remove_core hremove hn, Pull.do_item_unlink_core hunlink hn, refcount_incr_kept.core _ hn]
  · have hn : Ptr.item n ≠ .item m := by
      rintro he
      obtain ⟨l, hc⟩ := hs
      have hlinked := (((hc.placed _).table key).mp htable).2.1
      rw [← he] at hlinked hlive
      exact hlive (.inl (hg hlinked))
    have hkept : Kept s s₁ (.item m) ∨ ∃ s₂ bumps, Kept s s₂ (.item m) ∧ s₁ = { s₂ with bump_bufs := bumps } := by
      rcases hmark with ⟨-, rfl⟩ | ⟨-, hmark⟩
      · exact .inl refcount_incr_kept
      obtain ⟨fetched, active, ⟨-, rfl | hu⟩ | ⟨-, rfl⟩⟩ := mark_fetched_cases hmark
      · exact .inl (refcount_incr_kept.trans mark_kept)
      · exact .inl ((refcount_incr_kept.trans mark_kept).trans (do_item_update_kept hu).1)
      · exact .inr ⟨_, _, (refcount_incr_kept.trans mark_kept).trans refcount_incr_kept, rfl⟩
    rcases hkept with hkept | ⟨s₂, bumps, hkept, rfl⟩
    · exact hg.core ((SameClock.kept hkept).trans ⟨rfl, rfl, rfl⟩) (hkept.core _ hn)
    · exact hg.core ((SameClock.kept hkept).trans ⟨rfl, rfl, rfl⟩) (hkept.core _ hn)

theorem do_item_update_same_time (h : s.do_item_update cfg p = some s') (hrewrites : s.rewrites cfg p = false) : s' = s := by
  simp only [rewrites, decide_eq_false_iff_not] at hrewrites
  simp only [Store.do_item_update] at h
  split_ifs at h with hseg hslabbed hlinked hcold hdue hdue hslabbed hlinked
  · exact absurd ⟨hlinked, .inl ⟨hseg, hcold⟩⟩ hrewrites
  · exact absurd ⟨hlinked, .inr hdue⟩ hrewrites
  · exact (Option.some.inj h).symm
  · exact (Option.some.inj h).symm
  · exact absurd ⟨hlinked, .inr hdue⟩ hrewrites
  · exact (Option.some.inj h).symm
  · exact (Option.some.inj h).symm

theorem Gone.do_item_update (hg : Gone s n)
    (hlasting : s.flushed m = false ∨ s.flushed_by_cas (s.heap (.item m)) = true ∨ s.oldest_live = s.current_time ∨
      s.rewrites cfg (.item m) = false) (h : s.do_item_update cfg (.item m) = some s') : Gone s' n := by
  have hkept := (do_item_update_kept h).1
  have hclock := SameClock.kept hkept
  by_cases hn : Ptr.item n = .item m
  · obtain rfl : n = m := by simpa using hn
    intro hl
    have hlinked : (s.heap (.item n)).it_flags.linked :=
      (Item.shape_congr (·.it_flags.linked) (fun _ => rfl) hkept.shape).symm.trans hl
    have hflag : (s'.heap (.item n)).it_flags.cas = (s.heap (.item n)).it_flags.cas :=
      Item.shape_congr (·.it_flags.cas) (fun _ => rfl) hkept.shape
    have hflushed := hg hlinked
    obtain ⟨hne, hpassed, htime⟩ := item_is_flushed_iff.mp hflushed
    rw [flushed, item_is_flushed_iff, hclock.oldest_live, hclock.current_time]
    have hget : (s'.heap (.item n)).get_cas = (s.heap (.item n)).get_cas := by simp only [Item.get_cas, hflag, hkept.cas]
    have hsame : s'.flushed_by_cas (s'.heap (.item n)) = true ↔ s.flushed_by_cas (s.heap (.item n)) = true := by
      simp only [flushed_by_cas, decide_eq_true_eq, hclock.oldest_cas, hget]
    rw [hsame]
    refine ⟨hne, hpassed, ?_⟩
    rcases hlasting with hnot | hcas | hnow | hrewrites
    · rw [hflushed] at hnot; cases hnot
    · exact .inr hcas
    · -- the new time is that of the deadline at the latest
      rcases hkept.time with ht | ht
      · rw [ht]; exact htime
      · rw [ht, hnow]; exact .inl (UInt32.le_refl _)
    · rw [do_item_update_same_time h hrewrites]
      exact htime
  · exact hg.core hclock (hkept.core _ hn)

theorem Gone.do_item_remove (hg : Gone s n) (h : s.do_item_remove (.item m) = some s') : Gone s' n := by
  obtain ⟨-, ⟨-, -, rfl⟩ | ⟨-, -, rfl⟩⟩ := do_item_remove_cases h
  · by_cases hn : Ptr.item n = .item m
    · rw [← hn]
      intro hl
      have hflushed := hg (by simpa [Store.refcount_decr] using hl)
      simpa [flushed, item_is_flushed, Store.refcount_decr, Store.modify, Item.get_cas] using hflushed
    · exact hg.core (.kept refcount_decr_kept) (refcount_decr_kept.core _ hn)
  · by_cases hn : Ptr.item n = .item m
    · apply Gone.of_unlinked
      rw [hn]
      simp [Store.freed, Flags.zero]
    · exact hg.core ⟨rfl, rfl, rfl⟩ (by simp [Store.freed, modify_of_ne hn])

theorem Gone.lru_maintainer_bump (hg : Gone s n) (hlasting : Lasting cfg s (.bump m))
    (h : s.lru_maintainer_bump cfg (.item m) = some s') : Gone s' n := by
  obtain ⟨-, s₁, hupdate, hremove⟩ := lru_maintainer_bump_cases h
  have herased : Gone { s with bump_bufs := s.bump_bufs.erase (.item m) } n := hg
  exact (herased.do_item_update hlasting hupdate).do_item_remove hremove

/-! ## Runs -/

theorem Sound.flush_step {e : FlushEvent} (hs : s.Sound) (h : FlushStep cfg s e s') : s'.Sound := by
  cases e with
  | flush_all delayed =>
      cases h
      refine hs.congr ?_
      simp only [Store.flush_all]
      split_ifs <;> rfl
  | get key do_update room =>
      obtain ⟨⟨s₁, r⟩, hg, rfl⟩ := Option.map_eq_some_iff.mp h
      exact hs.do_item_get hg
  | bump n => exact hs.lru_maintainer_bump h
  | tick now =>
      simp only [FlushStep, Store.flush_step] at h
      split at h
      · cases h; exact hs.congr rfl
      · cases h

theorem Gone.step {e : FlushEvent} (hs : s.Sound) (hg : Gone s n) (h : LastingStep cfg s e s') : Gone s' n := by
  obtain ⟨hstep, hlasting⟩ := h
  cases e with
  | flush_all delayed =>
      cases hstep
      exact hg.flush_all hlasting
  | get key do_update room =>
      obtain ⟨⟨s₁, r⟩, hget, rfl⟩ := Option.map_eq_some_iff.mp hstep
      exact hg.do_item_get hs hget
  | bump m => exact hg.lru_maintainer_bump hlasting hstep
  | tick now =>
      simp only [FlushStep, Store.flush_step] at hstep
      split at hstep
      · next hle =>
        cases hstep
        intro hl
        obtain ⟨hne, hpassed, htime⟩ := item_is_flushed_iff.mp (hg hl)
        exact item_is_flushed_iff.mpr ⟨hne, UInt32.le_trans hpassed hle, htime⟩
      · cases hstep

/-- No get returns the item. -/
def Unfound (cfg : Settings) (s : Store) (n : Nat) : Prop :=
  ∀ key do_update room s', s.do_item_get cfg key do_update room ≠ some (s', some (.item n))

theorem Gone.unfound (hs : s.Sound) (hg : Gone s n) : Unfound cfg s n := by
  intro key do_update room s' hget
  obtain ⟨htable, hlive⟩ := do_item_get_found hget
  obtain ⟨l, hc⟩ := hs
  exact hlive (.inl (hg (((hc.placed _).table key).mp htable).2.1))

/-- After a flush has invalidated an item, and as long as all steps are lasting, the item is not found. -/
theorem flush_monotone {es : List Event} {fs : List FlushEvent} (h : Run (Step cfg) empty es s) (hflushed : s.flushed n)
    (h' : Run (LastingStep cfg) s fs s') : Unfound cfg s' n := by
  have hinv : s'.Sound ∧ Gone s' n := h'.invariant (P := fun t => t.Sound ∧ Gone t n)
    (fun ht hst => ⟨ht.1.flush_step hst.step, ht.2.step ht.1 hst⟩) ⟨run_sound h, fun _ => hflushed⟩
  exact hinv.2.unfound hinv.1

/-! ## A flush that is taken back -/

/-- An item of the cold LRU, linked before the first flush. -/
def flushed_one : List Event :=
  [.alloc ⟨[97], 0, 0, 3⟩ [⟨some (.item 0), 0, [], [], []⟩], .link 0, .tick 10, .flush 9 2]

def flushed_store : Store := (flushed_one.foldlM (Store.step settings) empty).get (by decide +kernel)

def flushed_twice : Store := ([FlushEvent.flush_all none, .tick 12].foldlM (Store.flush_step settings) flushed_store).get
  (by decide +kernel)

theorem flush_monotone_witness : Unfound settings flushed_twice 0 := by
  have hflush : LastingStep settings flushed_store (.flush_all none) (flushed_store.flush_all settings none) :=
    ⟨rfl, .inr (.inr (by decide +kernel))⟩
  have htick : LastingStep settings (flushed_store.flush_all settings none) (.tick 12) flushed_twice :=
    ⟨(Option.some_get _).symm, trivial⟩
  exact flush_monotone (Run.of_foldlM (Option.some_get _).symm) (by decide +kernel) (.cons hflush (.cons htick (.nil _)))

/-- A flush, and then one with a delay of 1000 seconds: the item is found. -/
theorem flush_taken_back : ∃ es s fs s' n, Run (Step settings) empty es s ∧ s.flushed n ∧
    Run (FlushStep settings) s fs s' ∧ ¬ Unfound settings s' n := by
  refine ⟨flushed_one, flushed_store, [.flush_all (some 1010)], _, 0, Run.of_foldlM (Option.some_get _).symm,
    by decide +kernel, .cons rfl (.nil _), fun h => ?_⟩
  have hget : (((flushed_store.flush_all settings (some 1010)).do_item_get settings [97] false false).map (·.2)) =
      some (some (.item 0)) := by decide +kernel
  obtain ⟨⟨s', r⟩, hr, rfl⟩ := Option.map_eq_some_iff.mp hget
  exact h [97] false false s' hr

end

end Store

end Memcached.MemoryLru

import Memcached.MemoryLru.ItemTheorems
import Memcached.MemoryLru.Lemmas.References

/-!
# The references of items are conserved

As long as no count of 16 bits wraps, and `LRU_PULL_RETURN_ITEM` is set only where an item is returned, every item has the
references that its count says, and is freed with the last of them.
-/

namespace Memcached.MemoryLru

open Transition

/-- The references that an event may add to an item, if only for the time of the call. -/
def Event.takes : Event → Nat
  | .get _ do_update room => if do_update && room then 2 else 1
  | .touch _ _ room => if room then 2 else 1
  | .alloc _ _ | .link _ | .replace _ _ | .pull _ _ | .crawler _ _ _ _ => 1
  | _ => 0

namespace Store

section
variable {s s' : Store} {n k : Nat} {cfg : Settings} {a : Pull}

/-! ## Callers and bump buffers -/

/-- References in hand become counted ones, or the other way round. -/
theorem Referenced.shift {k' : Nat} (h : Referenced s n k) (hheap : s'.heap = s.heap) (hallocs : s'.allocs = s.allocs)
    (hfrees : s'.frees = s.frees) (hsum : ∀ m, s'.sum n k' m = s.sum n k m) : Referenced s' n k' :=
  ⟨fun m => by rw [hheap, hsum]; exact h.refcount m, fun m => by rw [hheap, hsum]; exact h.slabbed m,
    fun m => by rw [hallocs, hfrees, hsum]; exact h.freed m⟩

theorem Referenced.hold (h : Referenced s n (k + 1)) : Referenced (s.hold (.item n)) n k := by
  refine h.shift rfl rfl rfl fun m => ?_
  by_cases hm : m = n
  · subst hm
    simp only [sum, refs, Store.hold, Function.update_self, if_true]
    omega
  · have hne : Ptr.item m ≠ .item n := by simpa using hm
    simp [sum, refs, Store.hold, hm, hne]

theorem Referenced.bumped (h : Referenced s n (k + 1)) :
    Referenced { s with bump_bufs := .item n :: s.bump_bufs } n k := by
  refine h.shift rfl rfl rfl fun m => ?_
  by_cases hm : m = n
  · subst hm
    simp only [sum, refs, List.count_cons_self, if_true]
    omega
  · have hne : Ptr.item m ≠ .item n := by simpa using hm
    simp [sum, refs, List.count_cons_of_ne hne.symm, hm]

theorem Referenced.release (h : Referenced s n 0) (hr : s.release (.item n) = some s') : Referenced s' n 0 := by
  obtain ⟨hheld, hremove⟩ := release_cases hr
  have htaken : Referenced { s with held := Function.update s.held (.item n) (s.held (.item n) - 1) } n 1 := by
    refine h.shift rfl rfl rfl fun m => ?_
    by_cases hm : m = n
    · subst hm
      simp only [sum, refs, Function.update_self, if_true]
      omega
    · have hne : Ptr.item m ≠ .item n := by simpa using hm
      simp [sum, refs, hm, hne]
  exact (htaken.do_item_remove hremove).1

theorem Referenced.lru_maintainer_bump (h : Referenced s n 0) (hb : s.lru_maintainer_bump cfg (.item n) = some s') :
    Referenced s' n 0 := by
  obtain ⟨hmem, s₁, hupdate, hremove⟩ := lru_maintainer_bump_cases hb
  have herased : Referenced { s with bump_bufs := s.bump_bufs.erase (.item n) } n 1 := by
    refine h.shift rfl rfl rfl fun m => ?_
    by_cases hm : m = n
    · subst hm
      have hpos := List.count_pos_iff.mpr hmem
      simp only [sum, refs, List.count_erase_self, if_true]
      omega
    · have hne : Ptr.item m ≠ .item n := by simpa using hm
      simp [sum, refs, List.count_erase_of_ne hne, hm]
  exact ((herased.same (do_item_update_same hupdate)).do_item_remove hremove).1

/-! ## Get -/

theorem Sound.table_refs {key : Key} (hs : s.Sound) (ht : s.table key = some (.item n)) : 0 < s.refs n := by
  obtain ⟨l, hc⟩ := hs
  exact refs_of_linked (((hc.placed (.item n)).table key).mp ht).2.1

theorem Referenced.mark_fetched {room : Bool} (h : Referenced s n 1)
    (hroom : room = true → s.refs n + 2 < 2 ^ 16) (hm : s.mark_fetched cfg (.item n) room = some s') :
    Referenced s' n 1 := by
  obtain ⟨fetched, active, ⟨-, rfl | hu⟩ | ⟨hbumps, rfl⟩⟩ := mark_fetched_cases hm
  · exact h.same mark_same_refs
  · exact (h.same mark_same_refs).same (do_item_update_same hu)
  · have hr : room = true := by
      simp only [bumps, decide_eq_true_eq] at hbumps
      exact hbumps.2.2.2.2
    have hmark : SameRefs s (s.mark (.item n) fetched active) := mark_same_refs
    have hrefs := hmark.refs n
    have hpos := hroom hr
    exact ((h.same hmark).refcount_incr (by omega) (by omega)).bumped

theorem Referenced.do_item_get {key : Key} {do_update room : Bool} {r : Option Ptr} (hs : s.Sound)
    (h : Referenced s n 0) (hroom : ∀ m, s.refs m + (Event.get key do_update room).takes < 2 ^ 16)
    (hg : s.do_item_get cfg key do_update room = some (s', r)) : Referenced s' n 0 := by
  obtain ⟨-, rfl, -⟩ | ⟨it, htable, hcases⟩ := do_item_get_cases hg
  · exact h
  obtain ⟨m, rfl⟩ := hs.is_item htable
  have hpos := hs.table_refs htable
  have hone : 1 ≤ (Event.get key do_update room).takes := by simp only [Event.takes]; split <;> omega
  have hlow := hroom m
  have hincr : Referenced (s.refcount_incr (.item m)) m 1 := (h.of_zero (m := m)).refcount_incr (by omega) (by omega)
  obtain ⟨-, -, s₁, hunlink, hremove⟩ | ⟨-, -, s₁, rfl, ⟨-, rfl⟩ | ⟨rfl, hmark⟩⟩ := hcases
  · exact ((hincr.do_item_unlink hunlink).1.do_item_remove hremove).1.of_zero
  · exact hincr.hold.of_zero
  · refine (hincr.mark_fetched (fun hr => ?_) hmark).hold.of_zero
    subst hr
    rw [refcount_incr_refs]
    exact hlow

theorem Referenced.do_item_touch {key : Key} {exptime : UInt32} {room : Bool} {r : Option Ptr} (hs : s.Sound)
    (h : Referenced s n 0) (hroom : ∀ m, s.refs m + (Event.touch key exptime room).takes < 2 ^ 16)
    (ht : s.do_item_touch cfg key exptime room = some (s', r)) : Referenced s' n 0 := by
  obtain ⟨s₁, hget, rfl⟩ := do_item_touch_cases ht
  have hs₁ : Referenced s₁ n 0 := h.do_item_get hs (by simpa [Event.takes] using hroom) hget
  cases r with
  | none => exact hs₁
  | some it =>
      obtain ⟨m, rfl⟩ := do_item_get_is_item hs hget
      refine hs₁.same ⟨fun i => ?_, fun i => ?_, fun i => ?_, rfl, rfl, rfl, rfl⟩ <;>
        by_cases hi : Ptr.item i = .item m <;> simp [modify?, hi, modify_of_ne]

theorem Referenced.do_item_replace {m : Nat} (h : Referenced s n 0) (hroom : ∀ m, s.refs m + 1 < 2 ^ 16)
    (hr : s.do_item_replace cfg (.item n) (.item m) = some s') : Referenced s' n 0 := by
  simp only [Store.do_item_replace] at hr
  split at hr
  · cases hr
  obtain ⟨s₁, hunlink, hlink⟩ := Option.bind_eq_some_iff.mp hr
  obtain ⟨hs₁, hfewer⟩ := h.do_item_unlink hunlink
  have hlow := hroom m
  have hless := hfewer m
  exact ((hs₁.of_zero (m := m)).do_item_link (by omega) hlink).of_zero

/-! ## Pulls -/

/-- Between the rounds of a pull from `s`. -/
structure Pulling (s t : Store) : Prop where
  sound : t.Sound
  referenced : Referenced t 0 0
  fewer : Fewer s t

/-- After the loop the item that stopped it is in hand, and goes to the caller if `returned` says so. -/
def Stopping (a : Pull) (s t : Store) : Pulled → Prop
  | .blocked | .nothing => Pulling s t
  | .stopped it _ returned => ∃ n, it = .item n ∧ Referenced t n 1 ∧ Fewer s t ∧ (returned = false → a.returns = false)

theorem Pulling.rounded {t t' : Store} {r : Option Pulled} (hcfg : cfg.tail_repair_time = 0)
    (hroom : ∀ m, s.refs m + 1 < 2 ^ 16) (h : Pulling s t) (hq : Pull.Queued a.id t (.item n))
    (hr : a.Rounded cfg t (.item n) t' r) :
    (r = none → Pulling s t') ∧ ∀ pulled, r = some pulled → Stopping a s t' pulled := by
  have hlow := hroom n
  have hless := h.fewer n
  have hincr : Referenced (t.refcount_incr (.item n)) n 1 :=
    (h.referenced.of_zero (m := n)).refcount_incr (by have := refs_of_linked hq.1; omega) (by omega)
  have hfewer : Fewer s (t.refcount_incr (.item n)) := h.fewer.trans .refcount_incr
  have hsound := h.sound.rounded hq hr
  cases hr with
  | repaired hrepair _ => exact absurd hcfg hrepair
  | reclaimed hunlink hremove =>
      obtain ⟨hunlinked, hfewer₁⟩ := hincr.do_item_unlink hunlink
      obtain ⟨hremoved, hfewer₂⟩ := hunlinked.do_item_remove hremove
      exact ⟨fun he => ⟨hsound.1 he, hremoved.of_zero, hfewer.trans (hfewer₁.trans hfewer₂)⟩, fun _ he => nomatch he⟩
  | warmed _ hupdate hremove =>
      have hsame : SameRefs (t.refcount_incr (.item n)) _ := set_active_same.trans (do_item_update_nolock_same hupdate)
      obtain ⟨hremoved, hfewer₁⟩ := (hincr.same hsame).do_item_remove hremove
      exact ⟨fun he => ⟨hsound.1 he, hremoved.of_zero, hfewer.trans (hsame.fewer.trans hfewer₁)⟩, fun _ he => nomatch he⟩
  | moved hreturns hmark hunlink =>
      refine ⟨fun he => (nomatch he), fun pulled he => ?_⟩
      cases he
      have hcore := (do_item_unlink_q_core hunlink).same
      rcases hmark with rfl | rfl
      · exact ⟨n, rfl, hincr.same hcore, hfewer.trans hcore.fewer, fun _ => hreturns⟩
      · have hsame := set_active_same.trans hcore
        exact ⟨n, rfl, hincr.same hsame, hfewer.trans hsame.fewer, fun _ => hreturns⟩
  | kept hreturns =>
      refine ⟨fun he => (nomatch he), fun pulled he => ?_⟩
      cases he
      exact ⟨n, rfl, hincr, hfewer, fun _ => hreturns⟩
  | evicted hreturns hunlink =>
      refine ⟨fun he => (nomatch he), fun pulled he => ?_⟩
      cases he
      obtain ⟨hunlinked, hfewer₁⟩ := hincr.do_item_unlink hunlink
      exact ⟨n, rfl, hunlinked, hfewer.trans hfewer₁, fun _ => hreturns⟩
  | returned _ =>
      refine ⟨fun he => (nomatch he), fun pulled he => ?_⟩
      cases he
      exact ⟨n, rfl, hincr, hfewer, nofun⟩

theorem move_to_lru_same {lru : Option Lru} (h : s.move_to_lru (.item n) lru = some s') : SameRefs s s' := by
  cases lru with
  | none => cases h; exact ⟨fun _ => rfl, fun _ => rfl, fun _ => rfl, rfl, rfl, rfl, rfl⟩
  | some lru => exact move_lru_same.trans (do_item_link_q_core h).same

theorem Stopping.finished {t t' : Store} {pulled : Pulled} {ret : Option Ptr}
    (htold : a.flags.return_item = true → a.returns = true) (h : Stopping a s t pulled)
    (hf : a.Finished t pulled t' ret) : Referenced t' 0 0 ∧ (a.flags.return_item = false → Fewer s t') := by
  cases hf with
  | blocked => exact ⟨h.referenced, fun _ => h.fewer⟩
  | nothing => exact ⟨h.referenced, fun _ => h.fewer⟩
  | removed hmove _ hremove =>
      obtain ⟨n, rfl, href, hfewer, -⟩ := h
      have hsame := move_to_lru_same hmove
      obtain ⟨hremoved, hfewer'⟩ := (href.same hsame).do_item_remove hremove
      exact ⟨hremoved.of_zero, fun _ => hfewer.trans (hsame.fewer.trans hfewer')⟩
  | returned hmove hflag =>
      obtain ⟨n, rfl, href, -⟩ := h
      exact ⟨(href.same (move_to_lru_same hmove)).hold.of_zero, fun hf => by rw [hflag] at hf; cases hf⟩
  | leaked _ hflag =>
      obtain ⟨n, rfl, -, -, hreturns⟩ := h
      rw [htold hflag] at hreturns
      exact absurd (hreturns rfl) (by simp)

theorem Referenced.lru_pull_tail {locks : List Bool} {removed : Nat} {ret : Option Ptr} (hs : s.Sound)
    (hcfg : cfg.tail_repair_time = 0) (hroom : ∀ m, s.refs m + 1 < 2 ^ 16)
    (htold : a.flags.return_item = true → a.returns = true) (h : Referenced s 0 0)
    (hp : s.lru_pull_tail cfg a locks = some (s', removed, ret)) :
    Referenced s' 0 0 ∧ (a.flags.return_item = false → Fewer s s') := by
  obtain ⟨rfl, -⟩ | ⟨s₁, removed', pulled, hloop, hfinish⟩ := lru_pull_tail_cases hp
  · exact ⟨h, fun _ => .refl⟩
  refine Stopping.finished htold ?_ hfinish
  exact Pull.loop_rule (I := Pulling s) (R := Stopping a s) (fun _ h => h.sound) (fun _ h => h) (fun _ h => h)
    (fun t n t' r ht hq hr => ht.rounded hcfg hroom hq hr) ⟨hs, h, .refl⟩ (fun p ht => Pull.queued_tail hs ht) hloop

/-! ## Allocation -/

theorem Referenced.allocated (h : Referenced s n 0) (ha : Allocated s s' n) : Referenced s' n 0 := by
  have hzero := h.slabbed_self.mp ha.slabbed
  have hheap (p) (hp : p ≠ .item n) : s'.heap p = s.heap p := by rw [ha.eq]; exact Function.update_of_ne hp _ _
  have hheld : s'.held = Function.update s.held (.item n) (s.held (.item n) + 1) := by rw [ha.eq]
  have hbumps : s'.bump_bufs = s.bump_bufs := by rw [ha.eq]
  have hallocs : s'.allocs = .item n :: s.allocs := by rw [ha.eq]
  have hfrees : s'.frees = s.frees := by rw [ha.eq]
  have hrefs : s'.refs n = 1 := by
    simp only [refs] at hzero
    simp only [refs, ha.linked, hheld, hbumps, Function.update_self]
    omega
  refine h.recounted ⟨fun m hm => ?_, ?_, ?_, ?_⟩
  · have hne : Ptr.item m ≠ .item n := by simpa using hm
    simp [refs, hheap _ hne, hheld, hbumps, hallocs, hfrees, hne, List.count_cons_of_ne hne.symm]
  · rw [ha.refcount, hrefs]
    rfl
  · rw [hrefs]
    exact iff_of_false ha.not_slabbed (by simp)
  · rw [hrefs, hzero, hallocs, hfrees, List.count_cons_self, if_pos rfl, if_neg (by simp)]
    omega

theorem Referenced.do_item_alloc {new : NewItem} {rounds : List Round} {r : Option Ptr} (hs : s.Sound)
    (hcfg : cfg.tail_repair_time = 0) (hroom : ∀ m, s.refs m + 1 < 2 ^ 16) (h : Referenced s 0 0)
    (ha : s.do_item_alloc cfg new rounds = some (s', r)) : Referenced s' 0 0 := by
  have hpull {t t' : Store} {a : Pull} {locks : List Bool} {removed : Nat} {ret : Option Ptr} (ht : Pulling s t)
      (hflag : a.flags.return_item = false) (hp : t.lru_pull_tail cfg a locks = some (t', removed, ret)) :
      Pulling s t' := by
    have hlow (m) : t.refs m + 1 < 2 ^ 16 := by
      have hm := hroom m
      have hless := ht.fewer m
      omega
    obtain ⟨href, hfewer⟩ := ht.referenced.lru_pull_tail ht.sound hcfg hlow (by rw [hflag]; simp) hp
    exact ⟨ht.sound.lru_pull_tail hp, href, ht.fewer.trans (hfewer hflag)⟩
  obtain ⟨-, hpulling⟩ | ⟨s₀, n, hpulling, -, hallocated⟩ := do_item_alloc_cases (I := Pulling s) hpull ⟨hs, h, .refl⟩ ha
  · exact hpulling.referenced
  · exact (hpulling.referenced.of_zero.allocated hallocated).of_zero

/-! ## Runs -/

theorem Referenced.item_crawler_thread {i : UInt8} {mod : CrawlerMod} {client lock : Bool} (hs : s.Sound)
    (hroom : ∀ m, s.refs m + 1 < 2 ^ 16) (h : Referenced s 0 0)
    (hc : s.item_crawler_thread i mod client lock = some s') : Referenced s' 0 0 := by
  obtain ⟨s₁, -, hcrawled, rfl | ⟨n, hl, hcrawl⟩⟩ := item_crawler_thread_cases hs hc
  · exact h.same hcrawled.same
  have hs₁ : Referenced s₁ n 0 := (h.same hcrawled.same).of_zero
  have hpos := refs_of_linked hl
  have hrefs := hcrawled.same.refs n
  have hlow := hroom n
  have hincr : Referenced (s₁.refcount_incr (.item n)) n 1 := hs₁.refcount_incr (by omega) (by omega)
  obtain rfl | rfl | ⟨s₂, hunlink, hremove⟩ := crawl_cases hcrawl
  · exact hs₁.of_zero
  · exact (hincr.refcount_decr (by rw [refcount_incr_refs]; omega)).of_zero
  · exact ((hincr.do_item_unlink hunlink).1.do_item_remove hremove).1.of_zero

/-- A step in which no count wraps, and which does not ask for an item where `lru_pull_tail` returns none. -/
structure SafeStep (cfg : Settings) (s : Store) (e : Event) (s' : Store) : Prop where
  step : Step cfg s e s'
  room : ∀ n, s.refs n + e.takes < 2 ^ 16
  told : ∀ a locks, e = .pull a locks → a.flags.return_item = true → a.cur_lru = .COLD_LRU ∧ a.flags.evict = false

theorem Referenced.step {e : Event} (hs : s.Sound) (hcfg : cfg.tail_repair_time = 0) (h : Referenced s 0 0)
    (hst : SafeStep cfg s e s') : Referenced s' 0 0 := by
  obtain ⟨hstep, hroom, htold⟩ := hst
  cases e with
  | alloc new rounds =>
      obtain ⟨⟨s₁, r⟩, ha, rfl⟩ := Option.map_eq_some_iff.mp hstep
      exact h.do_item_alloc hs hcfg hroom ha
  | link n =>
      simp only [Step, Store.step] at hstep
      split at hstep
      · exact (h.of_zero.do_item_link (hroom n) hstep).of_zero
      · cases hstep
  | unlink n => exact (h.of_zero.do_item_unlink hstep).1.of_zero
  | unlink_nolock n => exact (h.of_zero.do_item_unlink hstep).1.of_zero
  | remove n => exact (h.of_zero.release hstep).of_zero
  | replace n m =>
      simp only [Step, Store.step] at hstep
      split at hstep
      · exact (h.of_zero.do_item_replace hroom hstep).of_zero
      · cases hstep
  | update n => exact h.same (do_item_update_same hstep)
  | update_nolock n => exact h.same (do_item_update_nolock_same hstep)
  | get key do_update room =>
      obtain ⟨⟨s₁, r⟩, hg, rfl⟩ := Option.map_eq_some_iff.mp hstep
      exact h.do_item_get hs hroom hg
  | touch key exptime room =>
      obtain ⟨⟨s₁, r⟩, ht, rfl⟩ := Option.map_eq_some_iff.mp hstep
      exact h.do_item_touch hs hroom ht
  | pull a locks =>
      obtain ⟨⟨s₁, removed, r⟩, hp, rfl⟩ := Option.map_eq_some_iff.mp hstep
      refine (h.lru_pull_tail hs hcfg hroom (fun hflag => ?_) hp).1
      obtain ⟨hlru, hevict⟩ := htold a locks rfl hflag
      simp [Pull.returns, hlru, hevict, hflag]
  | bump n => exact (h.of_zero.lru_maintainer_bump hstep).of_zero
  | crawler_start sid remaining => exact h.same (hs.do_lru_crawler_start hstep).2.same
  | crawler i mod client lock => exact h.item_crawler_thread hs hroom hstep
  | tick now =>
      simp only [Step, Store.step] at hstep
      split at hstep
      · cases hstep; exact ⟨h.refcount, h.slabbed, h.freed⟩
      · cases hstep
  | flush oldest_live oldest_cas => cases hstep; exact ⟨h.refcount, h.slabbed, h.freed⟩

theorem referenced_empty : Referenced empty 0 0 := by
  refine ⟨fun m => ?_, fun m => ?_, fun m => ?_⟩ <;> simp [sum, refs, empty, Flags.zero]

/-- Every item has the references that it counts, is free just where there are none, and was freed as often as it came to
that; a reference that a caller holds can be given back. -/
structure Conserved (s : Store) : Prop where
  refcount : ∀ n, (s.heap (.item n)).refcount.toNat = s.refs n
  free : ∀ n, (s.heap (.item n)).it_flags.slabbed = true ↔ s.refs n = 0
  once : ∀ n, s.allocs.count (.item n) = s.frees.count (.item n) + if s.refs n = 0 then 0 else 1
  unlinked : ∀ n, (s.heap (.item n)).it_flags.slabbed = true → (s.heap (.item n)).it_flags.linked = false
  released : ∀ n, 0 < s.held (.item n) → (s.release (.item n)).isSome

theorem Referenced.released (hs : s.Sound) (h : Referenced s n 0) (hheld : 0 < s.held (.item n)) :
    (s.release (.item n)).isSome := by
  have hself := h.refcount_self
  have hpos : 0 < s.refs n := by simp only [refs]; omega
  have hlive : (s.heap (.item n)).it_flags.slabbed = false := by
    rw [← Bool.not_eq_true, h.slabbed_self]
    omega
  have hzero : (s.heap (.item n)).refcount ≠ 0 := fun h0 => by
    rw [h0] at hself
    have hval : (0 : UInt16).toNat = 0 := rfl
    omega
  simp only [Store.release, Store.do_item_remove, hlive, hzero, hheld.ne', if_false, Bool.false_eq_true, or_self]
  split_ifs with hlast
  · -- the last reference is the caller's, so the item is not linked, and at no end of a queue
    obtain ⟨l, hc⟩ := hs
    have hone : (s.heap (.item n)).refcount = 1 := sub_eq_zero.mp (by simpa [Store.refcount_decr] using hlast)
    rw [hone] at hself
    have hval : (1 : UInt16).toNat = 1 := rfl
    have hnot : ¬ (s.heap (.item n)).it_flags.linked = true := by
      intro hl
      simp only [refs, hl, Bool.toNat_true] at hself
      omega
    have hhead (id) : s.heads id ≠ some (.item n) := fun he =>
      hc.not_mem hnot id (List.mem_of_head? ((hc.holds id).head.symm.trans he))
    have htail (id) : s.tails id ≠ some (.item n) := fun he =>
      hc.not_mem hnot id (List.mem_of_getLast? ((hc.holds id).tail.symm.trans he))
    simp [Store.item_free, Store.refcount_decr, hnot, hone, Store.modify, hhead, htail]
  · rfl

/-- Where no count wraps and each item that is asked for is returned, references are conserved. -/
theorem references_conserved {es : List Event} (hcfg : cfg.tail_repair_time = 0) (h : Run (SafeStep cfg) empty es s) :
    Conserved s := by
  obtain ⟨hs, href⟩ : s.Sound ∧ Referenced s 0 0 := h.invariant (P := fun t => t.Sound ∧ Referenced t 0 0)
    (fun ht hst => ⟨ht.1.step hst.step, ht.2.step ht.1 hcfg hst⟩) ⟨sound_empty, referenced_empty⟩
  have hzero (n) : Referenced s n 0 := href.of_zero
  refine ⟨fun n => (hzero n).refcount_self, fun n => (hzero n).slabbed_self, fun n => ?_, fun n hfree => ?_,
    fun n hheld => (hzero n).released hs hheld⟩
  · rw [← sum_zero (n := n)]
    exact (hzero n).freed n
  · obtain ⟨l, hc⟩ := hs
    rw [← Bool.not_eq_true]
    exact fun hl => (hc.placed (.item n)).kind.2 hl hfree

/-- An item is allocated, linked and hit. -/
def allocated_one : Store :=
  (empty.step settings (.alloc ⟨[97], 0, 0, 3⟩ [⟨some (.item 0), 0, [], [], []⟩])).get (by decide +kernel)

def linked_one : Store := (allocated_one.step settings (.link 0)).get (by decide +kernel)

def hit_one : Store := (linked_one.step settings (.get [97] true true)).get (by decide +kernel)

theorem room_of_one {t : Store} {k : Nat} (hone : t.refs 0 + k < 2 ^ 16) (hother : ∀ n, t.refs (n + 1) = 0) (hk : k < 2 ^ 16)
    (n : Nat) : t.refs n + k < 2 ^ 16 := by
  cases n with
  | zero => exact hone
  | succ n => rw [hother]; omega

theorem references_conserved_witness : Conserved hit_one := by
  have halloc : SafeStep settings empty (.alloc ⟨[97], 0, 0, 3⟩ [⟨some (.item 0), 0, [], [], []⟩]) allocated_one :=
    ⟨(Option.some_get _).symm, room_of_one (by decide) (fun _ => rfl) (by decide), nofun⟩
  have hlink : SafeStep settings allocated_one (.link 0) linked_one :=
    ⟨(Option.some_get _).symm, room_of_one (by decide +kernel) (fun _ => rfl) (by decide), nofun⟩
  have hget : SafeStep settings linked_one (.get [97] true true) hit_one :=
    ⟨(Option.some_get _).symm, room_of_one (by decide +kernel) (fun _ => rfl) (by decide), nofun⟩
  exact references_conserved rfl (.cons halloc (.cons hlink (.cons hget (.nil _))))

/-! ## A count that wraps -/

/-- After `k` hits that are not given back. -/
def gotten (s : Store) (p : Ptr) (k : Nat) : Store :=
  { s.modify p fun i => { i with refcount := i.refcount + .ofNat k } with
    held := Function.update s.held p (s.held p + k) }

theorem gotten_get {p : Ptr} {key : Key} (htable : s.table key = some p)
    (hlive : ¬ (s.item_is_flushed (s.heap p) ∨ (s.heap p).exptime ≠ 0 ∧ (s.heap p).exptime ≤ s.current_time)) (k : Nat) :
    Step cfg (s.gotten p k) (.get key false false) (s.gotten p (k + 1)) := by
  have hdead : (((s.gotten p k).refcount_incr p).item_is_flushed (((s.gotten p k).refcount_incr p).heap p) ∨
      (((s.gotten p k).refcount_incr p).heap p).exptime ≠ 0 ∧
        (((s.gotten p k).refcount_incr p).heap p).exptime ≤ ((s.gotten p k).refcount_incr p).current_time) ↔
      (s.item_is_flushed (s.heap p) ∨ (s.heap p).exptime ≠ 0 ∧ (s.heap p).exptime ≤ s.current_time) := by
    simp [gotten, Store.refcount_incr, Store.modify, item_is_flushed, Item.get_cas]
  have htable' : (s.gotten p k).table key = some p := htable
  simp only [Step, Store.step, Store.do_item_get, htable', hdead, hlive, if_false, Option.map_eq_some_iff]
  refine ⟨(s.gotten p (k + 1), some p), ?_, rfl⟩
  simp [gotten, Store.refcount_incr, Store.hold, Store.modify, UInt16.ofNat_add, UInt16.add_assoc, Nat.add_assoc]

theorem gets_run {p : Ptr} {key : Key} (htable : s.table key = some p)
    (hlive : ¬ (s.item_is_flushed (s.heap p) ∨ (s.heap p).exptime ≠ 0 ∧ (s.heap p).exptime ≤ s.current_time)) (k : Nat) :
    Run (Step cfg) s (List.replicate k (.get key false false)) (s.gotten p k) := by
  induction k with
  | zero =>
      have hsame : s.gotten p 0 = s := by simp [gotten, Store.modify]
      rw [hsame]
      exact .nil s
  | succ k ih =>
      rw [List.replicate_succ']
      exact ih.snoc (gotten_get htable hlive k)

/-- 65534 gets of the item whose references are all held. -/
theorem references_wrap : ∃ es s, Run (Step settings) empty es s ∧ ¬ Conserved s := by
  have hrun : Run (Step settings) empty _ linked_one :=
    .cons (Option.some_get _).symm (.cons (Option.some_get _).symm (.nil _))
  have htable : linked_one.table [97] = some (.item 0) := by decide +kernel
  have hlive : ¬ (linked_one.item_is_flushed (linked_one.heap (.item 0)) ∨
      (linked_one.heap (.item 0)).exptime ≠ 0 ∧ (linked_one.heap (.item 0)).exptime ≤ linked_one.current_time) := by
    decide +kernel
  have hcount : (linked_one.heap (.item 0)).refcount = 2 := by decide +kernel
  refine ⟨_, _, hrun.append (gets_run htable hlive 65534), fun h => ?_⟩
  have hzero := h.refcount 0
  simp only [gotten, modify_self, hcount, refs, Function.update_self] at hzero
  have hval : ((2 : UInt16) + .ofNat 65534).toNat = 0 := by decide
  omega

end

end Store

end Memcached.MemoryLru

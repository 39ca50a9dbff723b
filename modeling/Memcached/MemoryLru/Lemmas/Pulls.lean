import Memcached.MemoryLru.Lemmas.ItemSteps

/-!
# Pulling the tail of an LRU

What one round of `lru_pull_tail` does, and the rule for its loop: an invariant of the rounds is one of the loop. The
next item is read before the round, and is still in the queue after it.
-/

namespace Memcached.MemoryLru

namespace Pull

/-- Whether the item goes to the caller. -/
def returns (a : Pull) : Bool := a.cur_lru = .COLD_LRU ∧ ¬ a.flags.evict ∧ a.flags.return_item

/-- What a round does to the item `p` of `s`, from the reference it takes on. -/
inductive Rounded (cfg : Settings) (a : Pull) (s : Store) (p : Ptr) : Store → Option Pulled → Prop
  | repaired {s' : Store} (hrepair : cfg.tail_repair_time ≠ 0)
      (hunlink : ((s.refcount_incr p).modify p fun i => { i with refcount := 1 }).do_item_unlink p = some s') :
      Rounded cfg a s p s' none
  | reclaimed {s₁ s' : Store} (hunlink : (s.refcount_incr p).do_item_unlink p = some s₁)
      (hremove : s₁.do_item_remove p = some s') : Rounded cfg a s p s' none
  | warmed {s₁ s' : Store} (hwarm : a.cur_lru = .WARM_LRU)
      (hupdate : ((s.refcount_incr p).set_active p false).do_item_update_nolock p = some s₁)
      (hremove : s₁.do_item_remove p = some s') : Rounded cfg a s p s' none
  | moved {s₁ s' : Store} {lru : Lru} (hreturns : a.returns = false)
      (hmark : s₁ = s.refcount_incr p ∨ s₁ = (s.refcount_incr p).set_active p false)
      (hunlink : s₁.do_item_unlink_q p = some s') : Rounded cfg a s p s' (some (.stopped p (some lru) false))
  | kept (hreturns : a.returns = false) : Rounded cfg a s p (s.refcount_incr p) (some (.stopped p none false))
  | evicted {s' : Store} (hreturns : a.returns = false) (hunlink : (s.refcount_incr p).do_item_unlink p = some s') :
      Rounded cfg a s p s' (some (.stopped p none false))
  | returned (hreturns : a.returns = true) : Rounded cfg a s p (s.refcount_incr p) (some (.stopped p none true))

variable {cfg : Settings} {a : Pull} {s s' : Store} {p : Ptr} {more removed removed' : Nat} {r : Option Pulled}

theorem rounded (h : round cfg a s p = some (s', more, r)) : Rounded cfg a s p s' r := by
  simp only [round] at h
  split at h
  · next hrepair =>
    obtain ⟨s₁, hunlink, h⟩ := Option.bind_eq_some_iff.mp h
    cases h
    exact .repaired (by simp only [repairs, decide_eq_true_eq] at hrepair; exact hrepair.2.1) hunlink
  split at h
  · obtain ⟨s₁, hunlink, h⟩ := Option.bind_eq_some_iff.mp h
    obtain ⟨s₂, hremove, h⟩ := Option.bind_eq_some_iff.mp h
    cases h
    exact .reclaimed hunlink hremove
  cases hlru : a.cur_lru with
  | HOT_LRU =>
      have hreturns : a.returns = false := by simp [returns, hlru]
      simp only [pick, hlru, reduceCtorEq, ↓reduceIte] at h
      split_ifs at h
      · obtain ⟨s₁, hunlink, h⟩ := Option.bind_eq_some_iff.mp h
        cases h
        exact .moved hreturns (.inr rfl) hunlink
      · obtain ⟨s₁, hunlink, h⟩ := Option.bind_eq_some_iff.mp h
        cases h
        exact .moved hreturns (.inl rfl) hunlink
      · cases h
        exact .kept hreturns
  | WARM_LRU =>
      have hreturns : a.returns = false := by simp [returns, hlru]
      simp only [pick, hlru, ↓reduceIte] at h
      split_ifs at h
      · obtain ⟨s₁, hupdate, h⟩ := Option.bind_eq_some_iff.mp h
        obtain ⟨s₂, hremove, h⟩ := Option.bind_eq_some_iff.mp h
        cases h
        exact .warmed hlru hupdate hremove
      · obtain ⟨s₁, hunlink, h⟩ := Option.bind_eq_some_iff.mp h
        cases h
        exact .moved hreturns (.inl rfl) hunlink
      · cases h
        exact .kept hreturns
  | COLD_LRU =>
      simp only [pick, hlru] at h
      split_ifs at h with hevict hfree hreturn hactive
      · cases h
        exact .kept (by simp [returns, hevict])
      · obtain ⟨s₁, hunlink, h⟩ := Option.bind_eq_some_iff.mp h
        cases h
        exact .evicted (by simp [returns, hevict]) hunlink
      · cases h
        exact .returned (by simp [returns, hlru, hevict, hreturn])
      · obtain ⟨s₁, hunlink, h⟩ := Option.bind_eq_some_iff.mp h
        cases h
        exact .moved (by simp [returns, hreturn]) (.inr rfl) hunlink
      · cases h
        exact .kept (by simp [returns, hreturn])
  | TEMP_LRU =>
      simp only [pick, hlru] at h
      cases h
      exact .kept (by simp [returns, hlru])

/-! ## The loop -/

/-- Linked in the queue of `id`. -/
def Queued (id : UInt8) (s : Store) (p : Ptr) : Prop := (s.heap p).it_flags.linked ∧ (s.heap p).slabs_clsid = id

variable {n : Nat} {id : UInt8}

theorem queued_iff {l : UInt8 → List Ptr} (hc : s.Consistent l) : Queued id s p ↔ p ∈ l id := by
  constructor
  · rintro ⟨hl, rfl⟩
    exact (hc.placed p).linked.mpr hl
  · intro hm
    exact ⟨(hc.placed p).linked.mp (hc.mem_clsid hm), hc.clsid id p hm⟩

theorem queued_tail (h : s.Sound) (ht : s.tails id = some p) : Queued id s p := by
  obtain ⟨l, hc⟩ := h
  exact (queued_iff hc).mpr (List.mem_of_getLast? ((hc.holds id).tail.symm.trans ht))

theorem queued_prev {q : Ptr} (h : s.Sound) (hp : Queued id s p) (hq : (s.heap p).prev = some q) :
    Queued id s q ∧ q ≠ p := by
  obtain ⟨l, hc⟩ := h
  rw [queued_iff hc] at hp ⊢
  refine ⟨(hc.holds id).mem_of_prev hp hq, ?_⟩
  rintro rfl
  obtain ⟨pre, post, hl⟩ := List.append_of_mem hp
  have hholds := hc.holds id
  rw [hl] at hholds
  exact hholds.not_mem_mid.1 (List.mem_of_getLast? (hholds.mid.1.symm.trans hq))

theorem queued_item (h : s.Sound) (hp : Queued id s p) (hc : (s.heap p).is_crawler = false) : ∃ n, p = .item n := by
  obtain ⟨l, hcons⟩ := h
  cases p with
  | item n => exact ⟨n, rfl⟩
  | crawler i =>
      obtain ⟨hflags, hnbytes, hkey⟩ := (hcons.placed (.crawler i)).kind
      rcases hflags with hzero | ⟨hone, -⟩
      · simp [Queued, hzero, Flags.zero] at hp
      · simp [Item.is_crawler, hnbytes, hkey, hone] at hc

theorem do_item_remove_core {q : Ptr} (h : s.do_item_remove p = some s') (hq : q ≠ p) : s'.heap q = s.heap q := by
  obtain ⟨-, ⟨-, -, rfl⟩ | ⟨-, -, rfl⟩⟩ := Store.do_item_remove_cases h
  · exact Store.modify_of_ne hq
  · simp [Store.freed, Store.modify_of_ne hq]

theorem do_item_unlink_core {q : Ptr} (h : s.do_item_unlink p = some s') (hq : q ≠ p) :
    (s'.heap q).core = (s.heap q).core := by
  obtain ⟨-, rfl⟩ | ⟨-, s₁, hunlink, hremove⟩ := Store.do_item_unlink_cases h
  · rfl
  · rw [do_item_remove_core hremove hq, (Store.do_item_unlink_q_core hunlink).core, Store.unlinking_kept hq]

theorem do_item_update_nolock_kept (h : s.do_item_update_nolock p = some s') :
    Store.Kept s s' p ∧ (s'.heap p).refcount = (s.heap p).refcount := by
  rcases Store.do_item_update_nolock_cases h with rfl | ⟨-, hr⟩
  · exact ⟨.refl _ _, rfl⟩
  · exact ⟨hr.kept, hr.refcount⟩

theorem Rounded.core {q : Ptr} (h : Rounded cfg a s p s' none) (hq : q ≠ p) : (s'.heap q).core = (s.heap q).core := by
  cases h with
  | repaired _ hunlink =>
      rw [do_item_unlink_core hunlink hq, Store.modify_of_ne hq, Store.refcount_incr_kept.core q hq]
  | reclaimed hunlink hremove =>
      rw [do_item_remove_core hremove hq, do_item_unlink_core hunlink hq, Store.refcount_incr_kept.core q hq]
  | warmed _ hupdate hremove =>
      rw [do_item_remove_core hremove hq, (do_item_update_nolock_kept hupdate).1.core q hq,
        Store.set_active_kept.core q hq, Store.refcount_incr_kept.core q hq]

/-- What holds between the rounds of the loop, and what a round that stops it makes hold. -/
theorem loop_rule {I : Store → Prop} {R : Store → Pulled → Prop} (hsound : ∀ s, I s → s.Sound)
    (hblocked : ∀ s, I s → R s .blocked) (hnothing : ∀ s, I s → R s .nothing)
    (hround : ∀ s n s' r, I s → Queued a.id s (.item n) → Rounded cfg a s (.item n) s' r →
      (r = none → I s') ∧ ∀ pulled, r = some pulled → R s' pulled)
    {locks : List Bool} : ∀ {tries search removed s s' removed' pulled}, I s →
      (∀ p, search = some p → Queued a.id s p) →
        loop cfg a locks tries search removed s = some (s', removed', pulled) → R s' pulled := by
  induction locks with
  | nil =>
      intro tries search removed s s' removed' pulled hs hq h
      cases tries <;> cases search <;> simp only [loop] at h <;> cases h <;> exact hnothing s hs
  | cons lock locks ih =>
      intro tries search removed s s' removed' pulled hs hq h
      cases tries with
      | zero => cases h; exact hnothing s hs
      | succ tries =>
          cases search with
          | none => cases h; exact hnothing s hs
          | some p =>
              have hp := hq p rfl
              have hprev (q) (hq : (s.heap p).prev = some q) := queued_prev (hsound s hs) hp hq
              simp only [loop] at h
              split_ifs at h with hcrawler hblocks hlock
              · cases h; exact hblocked s hs
              · exact ih hs (fun q hq => (hprev q hq).1) h
              · exact ih hs (fun q hq => (hprev q hq).1) h
              · obtain ⟨n, rfl⟩ := queued_item (hsound s hs) hp (by simpa using hcrawler)
                obtain ⟨⟨s₁, more, r⟩, hr, h⟩ := Option.bind_eq_some_iff.mp h
                obtain ⟨hgo, hstop⟩ := hround s n s₁ r hs hp (rounded hr)
                cases r with
                | none =>
                    refine ih (hgo rfl) (fun q hq => ?_) h
                    obtain ⟨⟨hlinked, hclsid⟩, hne⟩ := hprev q hq
                    have hcore := (rounded hr).core hne
                    exact ⟨(Item.core_congr (·.it_flags.linked) (fun _ => rfl) hcore).trans hlinked,
                      (Item.core_congr Item.slabs_clsid (fun _ => rfl) hcore).trans hclsid⟩
                | some pulled' =>
                    cases h
                    exact hstop _ rfl

/-- After the loop: the item moves, and its reference is dropped or the caller's. -/
inductive Finished (a : Pull) (s : Store) : Pulled → Store → Option Ptr → Prop
  | blocked : Finished a s .blocked s none
  | nothing : Finished a s .nothing s none
  | removed {it : Ptr} {lru : Option Lru} {returned : Bool} {s₁ s' : Store}
      (hmove : s.move_to_lru it lru = some s₁)
      (hflag : a.flags.return_item = false) (hremove : s₁.do_item_remove it = some s') :
      Finished a s (.stopped it lru returned) s' none
  | returned {it : Ptr} {lru : Option Lru} {s₁ : Store}
      (hmove : s.move_to_lru it lru = some s₁)
      (hflag : a.flags.return_item = true) : Finished a s (.stopped it lru true) (s₁.hold it) (some it)
  | leaked {it : Ptr} {lru : Option Lru} {s₁ : Store}
      (hmove : s.move_to_lru it lru = some s₁)
      (hflag : a.flags.return_item = true) : Finished a s (.stopped it lru false) s₁ none

end Pull

namespace Store

variable {cfg : Settings} {a : Pull} {s s' : Store} {locks : List Bool} {removed : Nat} {ret : Option Ptr} {n : Nat}

theorem lru_pull_tail_finished (hid : a.orig_id ≠ 0) (h : s.lru_pull_tail cfg a locks = some (s', removed, ret)) :
    ∃ s₁ removed' pulled, a.loop cfg locks 5 (s.tails a.id) 0 s = some (s₁, removed', pulled) ∧
      a.Finished s₁ pulled s' ret := by
  simp only [lru_pull_tail] at h
  rw [if_neg hid] at h
  obtain ⟨⟨s₁, removed', pulled⟩, hloop, h⟩ := Option.bind_eq_some_iff.mp h
  refine ⟨s₁, removed', pulled, hloop, ?_⟩
  cases pulled with
  | blocked => cases h; exact .blocked
  | nothing => cases h; exact .nothing
  | stopped it lru returned =>
      obtain ⟨s₂, hmove, h⟩ := Option.bind_eq_some_iff.mp h
      dsimp only at h
      split_ifs at h with hflag hreturned
      · obtain ⟨s₃, hremove, h⟩ := Option.bind_eq_some_iff.mp h
        cases h
        exact .removed hmove (by simpa using hflag) hremove
      · cases h
        obtain rfl := hreturned
        exact .returned hmove (by simpa using hflag)
      · cases h
        obtain rfl : returned = false := by simpa using hreturned
        exact .leaked hmove (by simpa using hflag)

theorem lru_pull_tail_cases (h : s.lru_pull_tail cfg a locks = some (s', removed, ret)) :
    (s' = s ∧ ret = none) ∨ ∃ s₁ removed' pulled,
      a.loop cfg locks 5 (s.tails a.id) 0 s = some (s₁, removed', pulled) ∧ a.Finished s₁ pulled s' ret := by
  by_cases hid : a.orig_id = 0
  · simp only [lru_pull_tail] at h
    rw [if_pos hid] at h
    cases h
    exact .inl ⟨rfl, rfl⟩
  · exact .inr (lru_pull_tail_finished hid h)

/-! ## Consistency -/

/-- After the loop, the item that stopped it is in its queue, or about to be put into another. -/
def Stopped (s : Store) : Pulled → Prop
  | .blocked | .nothing => s.Sound
  | .stopped it none _ => s.Sound ∧ ∃ n, it = .item n
  | .stopped it (some _) _ => s.Loose it ∧ ∃ n, it = .item n

theorem Sound.rounded {r : Option Pulled} (h : s.Sound) (hq : Pull.Queued a.id s (.item n))
    (hr : a.Rounded cfg s (.item n) s' r) : (r = none → s'.Sound) ∧ ∀ pulled, r = some pulled → s'.Stopped pulled := by
  have hincr : (s.refcount_incr (.item n)).Sound := h.refcount_incr
  cases hr with
  | repaired _ hunlink =>
      refine ⟨fun _ => ?_, fun _ he => by cases he⟩
      exact Sound.do_item_unlink (hincr.modify (f := fun i => { i with refcount := 1 }) fun _ => ⟨rfl, rfl, rfl, rfl⟩)
        hunlink
  | reclaimed hunlink hremove =>
      exact ⟨fun _ => (hincr.do_item_unlink hunlink).do_item_remove hremove, fun _ he => by cases he⟩
  | warmed _ hupdate hremove =>
      exact ⟨fun _ => (hincr.set_active.do_item_update_nolock hupdate).do_item_remove hremove, fun _ he => by cases he⟩
  | moved _ hmark hunlink =>
      refine ⟨fun he => (by cases he), fun pulled he => ?_⟩
      cases he
      refine ⟨⟨_, ?_, ?_, hunlink⟩, n, rfl⟩
      · rcases hmark with rfl | rfl
        · exact hincr
        · exact hincr.set_active
      · rcases hmark with rfl | rfl <;> simpa [Store.refcount_incr, Store.set_active] using hq.1
  | kept _ =>
      refine ⟨fun he => (by cases he), fun pulled he => ?_⟩
      cases he
      exact ⟨hincr, n, rfl⟩
  | evicted _ hunlink =>
      refine ⟨fun he => (by cases he), fun pulled he => ?_⟩
      cases he
      exact ⟨hincr.do_item_unlink hunlink, n, rfl⟩
  | returned _ =>
      refine ⟨fun he => (by cases he), fun pulled he => ?_⟩
      cases he
      exact ⟨hincr, n, rfl⟩

theorem Stopped.move {it : Ptr} {lru : Option Lru} {returned : Bool} (h : s.Stopped (.stopped it lru returned))
    (hmove : s.move_to_lru it lru = some s') : s'.Sound ∧ ∃ n, it = .item n := by
  cases lru with
  | none =>
      cases hmove
      exact h
  | some lru =>
      obtain ⟨hloose, n, rfl⟩ := h
      exact ⟨hloose.link move_lru_kept hmove, n, rfl⟩

theorem Sound.finished {pulled : Pulled} (h : s.Stopped pulled) (hf : a.Finished s pulled s' ret) : s'.Sound := by
  cases hf with
  | blocked => exact h
  | nothing => exact h
  | removed hmove _ hremove =>
      obtain ⟨hs, n, rfl⟩ := Stopped.move h hmove
      exact hs.do_item_remove hremove
  | returned hmove _ =>
      obtain ⟨hs, n, rfl⟩ := Stopped.move h hmove
      exact hs.congr rfl
  | leaked hmove _ => exact (Stopped.move h hmove).1

theorem Sound.lru_pull_tail (h : s.Sound) (hp : s.lru_pull_tail cfg a locks = some (s', removed, ret)) : s'.Sound := by
  obtain ⟨rfl, -⟩ | ⟨s₁, removed', pulled, hloop, hfinish⟩ := lru_pull_tail_cases hp
  · exact h
  · refine Sound.finished (Pull.loop_rule (I := Sound) (R := Stopped) (fun _ h => h) (fun _ h => h) (fun _ h => h)
      (fun s n s' r h hq hr => h.rounded hq hr) h (fun p ht => Pull.queued_tail h ht) hloop) hfinish

/-! ## Allocation -/

/-- The item `n` was free in `s`, and is the caller's in `s'`. -/
structure Allocated (s s' : Store) (n : Nat) : Prop where
  slabbed : (s.heap (.item n)).it_flags.slabbed
  refcount : (s'.heap (.item n)).refcount = 1
  not_slabbed : ¬ (s'.heap (.item n)).it_flags.slabbed
  linked : (s'.heap (.item n)).it_flags.linked = (s.heap (.item n)).it_flags.linked
  nbytes : 2 ≤ (s'.heap (.item n)).nbytes
  eq : s' = { s with
    heap := Function.update s.heap (.item n) (s'.heap (.item n))
    allocs := .item n :: s.allocs
    held := Function.update s.held (.item n) (s.held (.item n) + 1) }

theorem do_item_alloc_pull_cases {I : Store → Prop} (hpull : ∀ {s s' a locks removed ret}, I s →
      a.flags.return_item = false → lru_pull_tail cfg s a locks = some (s', removed, ret) → I s')
    {id : UInt8} {rounds : List Round} : ∀ {i s s' r}, I s → do_item_alloc_pull cfg id i rounds s = some (s', r) →
      (r = none ∧ I s') ∨ ∃ s₀ n, I s₀ ∧ r = some (.item n) ∧
        s₀.slabs_alloc (some (.item n)) = some (s', some (.item n)) := by
  induction rounds with
  | nil =>
      intro i s s' r hs h
      cases i with
      | zero => cases h; exact .inl ⟨rfl, hs⟩
      | succ i => cases h
  | cons round rounds ih =>
      intro i s s' r hs h
      cases i with
      | zero => cases h; exact .inl ⟨rfl, hs⟩
      | succ i =>
          simp only [do_item_alloc_pull] at h
          obtain ⟨s₁, hfirst, h⟩ := Option.bind_eq_some_iff.mp h
          have hs₁ : I s₁ := by
            simp only [try_reclaim] at hfirst
            split at hfirst
            · cases hfirst; exact hs
            · obtain ⟨⟨_, _, _⟩, hp, rfl⟩ := Option.map_eq_some_iff.mp hfirst
              exact hpull hs rfl hp
          obtain ⟨⟨s₂, it⟩, hgrant, h⟩ := Option.bind_eq_some_iff.mp h
          cases hround : round.grant with
          | some p =>
              cases p with
              | crawler c => rw [hround] at hgrant; cases hgrant
              | item n =>
                  have hgrant' := hgrant
                  rw [hround] at hgrant
                  simp only [slabs_alloc] at hgrant
                  split at hgrant
                  · cases hgrant
                    cases h
                    exact .inr ⟨s₁, n, hs₁, rfl, by rwa [hround] at hgrant'⟩
                  · cases hgrant
          | none =>
              rw [hround] at hgrant
              cases hgrant
              dsimp only [Option.isSome] at h
              generalize round.total_bytes - _ = total at h
              obtain ⟨⟨s₃, removed, ret⟩, hp, h⟩ := Option.bind_eq_some_iff.mp h
              have hs₃ := hpull hs₁ rfl hp
              dsimp only at h
              split_ifs at h
              · obtain ⟨⟨s₄, removed', ret'⟩, hp', h⟩ := Option.bind_eq_some_iff.mp h
                exact ih (hpull hs₃ rfl hp') h
              · cases h; exact .inl ⟨rfl, hs₃⟩
              · exact ih hs₃ h

/-- What an allocation makes of a free item. -/
def made (cfg : Settings) (new : NewItem) (large : Bool) (clsid : UInt8) (i : Item) : Item :=
  { i with
    next := none, prev := none, refcount := 1, slabs_clsid := clsid, key := new.key, nbytes := new.nbytes
    exptime := new.exptime, nsuffix := new.nsuffix cfg
    it_flags := { i.it_flags with
      slabbed := false, chunked := i.it_flags.chunked || large, cas := i.it_flags.cas || cfg.use_cas } }

theorem do_item_alloc_made {I : Store → Prop} (hpull : ∀ {s s' a locks removed ret}, I s →
      a.flags.return_item = false → lru_pull_tail cfg s a locks = some (s', removed, ret) → I s')
    {new : NewItem} {rounds : List Round} {r : Option Ptr} (hs : I s)
    (h : s.do_item_alloc cfg new rounds = some (s', r)) :
    (r = none ∧ I s') ∨ ∃ s₀ n large clsid, I s₀ ∧ r = some (.item n) ∧ (s₀.heap (.item n)).it_flags.slabbed ∧
      2 ≤ new.nbytes ∧ s' = { s₀ with
        heap := Function.update s₀.heap (.item n) (made cfg new large clsid (s₀.heap (.item n)))
        allocs := .item n :: s₀.allocs
        held := Function.update s₀.held (.item n) (s₀.held (.item n) + 1) } := by
  simp only [do_item_alloc] at h
  split at h
  · cases h; exact .inl ⟨rfl, hs⟩
  next hsize =>
  rw [not_or, Nat.not_lt] at hsize
  obtain ⟨⟨s₁, it⟩, halloc, h⟩ := Option.bind_eq_some_iff.mp h
  obtain ⟨rfl, hs₁⟩ | ⟨s₀, n, hs₀, rfl, hgrant⟩ := do_item_alloc_pull_cases hpull hs halloc
  · cases h; exact .inl ⟨rfl, hs₁⟩
  simp only [slabs_alloc] at hgrant
  split at hgrant
  · next hslabbed =>
    cases hgrant
    dsimp only at h
    split at h
    · cases h
    · cases h
      simp only [hold, Store.modify, Function.update_idem, Function.update_self]
      exact .inr ⟨s₀, n, _, _, hs₀, rfl, hslabbed, hsize.1, rfl⟩
  · cases hgrant

theorem do_item_alloc_cases {I : Store → Prop} (hpull : ∀ {s s' a locks removed ret}, I s →
      a.flags.return_item = false → lru_pull_tail cfg s a locks = some (s', removed, ret) → I s')
    {new : NewItem} {rounds : List Round} {r : Option Ptr} (hs : I s)
    (h : s.do_item_alloc cfg new rounds = some (s', r)) :
    (r = none ∧ I s') ∨ ∃ s₀ n, I s₀ ∧ r = some (.item n) ∧ Allocated s₀ s' n := by
  obtain hnone | ⟨s₀, n, large, clsid, hs₀, hr, hslabbed, hnbytes, rfl⟩ := do_item_alloc_made hpull hs h
  · exact .inl hnone
  · exact .inr ⟨s₀, n, hs₀, hr, hslabbed, by simp [made], by simp [made], by simp [made], by simpa [made] using hnbytes,
      by simp⟩

theorem Sound.allocated (h : s.Sound) (ha : Allocated s s' n) : s'.Sound := by
  obtain ⟨l, hc⟩ := h
  have hnot : ¬ (s.heap (.item n)).it_flags.linked := fun hl => (hc.placed (.item n)).kind.2 hl ha.slabbed
  rw [ha.eq]
  exact Sound.congr ⟨l, hc.modify_unlinked (f := fun _ => s'.heap (.item n)) hnot (by rwa [ha.linked])
    fun _ => ha.nbytes⟩ rfl

theorem Sound.do_item_alloc {new : NewItem} {rounds : List Round} {r : Option Ptr} (h : s.Sound)
    (ha : s.do_item_alloc cfg new rounds = some (s', r)) : s'.Sound := by
  obtain ⟨-, hs⟩ | ⟨s₀, n, hs₀, -, hallocated⟩ :=
    do_item_alloc_cases (I := Sound) (fun hs _ hp => hs.lru_pull_tail hp) h ha
  · exact hs
  · exact hs₀.allocated hallocated

end Store

end Memcached.MemoryLru

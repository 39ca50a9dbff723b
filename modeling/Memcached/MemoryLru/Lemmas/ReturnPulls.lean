import Memcached.MemoryLru.Lemmas.ItemFrames

/-!
# Pulls that return their item

A pull that may return its item only removes items on its way, and what it removes does not change what it comes to
next. So the item that it returns is found in the queue as it was before the pull.
-/

namespace Memcached.MemoryLru

open Linked

namespace Pull

open Store

/-- `lru_pull_tail` removes the item and goes on. -/
def passes (cfg : Settings) (s : Store) (p : Ptr) : Bool :=
  let s := s.refcount_incr p
  repairs cfg s (s.heap p) || reclaims s (s.heap p)

/-- The first item on the way to the head that is not passed over. -/
def finds (cfg : Settings) (s : Store) : List Bool → Nat → Option Ptr → Option Ptr
  | _, 0, _ => none
  | _, _, none => none
  | [], _, _ => none
  | lock :: locks, tries + 1, some p =>
      if (s.heap p).is_crawler then finds cfg s locks (tries + 1) (s.heap p).prev
      else if !lock || passes cfg s p then finds cfg s locks tries (s.heap p).prev
      else some p

variable {cfg : Settings} {a : Pull} {s s' : Store} {p : Ptr} {more : Nat} {r : Option Pulled}

/-! ## One round -/

theorem round_passes (hreturns : a.returns) (h : round cfg a s p = some (s', more, r)) :
    r = if passes cfg s p then none else some (.stopped p none true) := by
  simp only [returns, decide_eq_true_eq] at hreturns
  obtain ⟨hlru, hevict, hreturn⟩ := hreturns
  simp only [round] at h
  split at h
  · next hrepair =>
    obtain ⟨s₁, hunlink, h⟩ := Option.bind_eq_some_iff.mp h
    cases h
    simp [passes, hrepair]
  next hrepair =>
  split at h
  · next hreclaim =>
    obtain ⟨s₁, hunlink, h⟩ := Option.bind_eq_some_iff.mp h
    obtain ⟨s₂, hremove, h⟩ := Option.bind_eq_some_iff.mp h
    cases h
    simp [passes, hreclaim]
  · next hreclaim =>
    simp only [pick, hlru, hevict, hreturn] at h
    cases h
    simp [passes, hrepair, hreclaim]

/-- The clocks and the references of callers are as they were. -/
structure Steady (s s' : Store) : Prop where
  current_time : s'.current_time = s.current_time
  oldest_live : s'.oldest_live = s.oldest_live
  oldest_cas : s'.oldest_cas = s.oldest_cas
  held : s'.held = s.held

theorem Steady.refl : Steady s s := ⟨rfl, rfl, rfl, rfl⟩

theorem Steady.modify {f : Item → Item} : Steady s (s.modify p f) := ⟨rfl, rfl, rfl, rfl⟩

theorem Steady.trans {s'' : Store} (h : Steady s s') (h' : Steady s' s'') : Steady s s'' :=
  ⟨h'.1.trans h.1, h'.2.trans h.2, h'.3.trans h.3, h'.4.trans h.4⟩

theorem passes_congr (hsteady : Steady s s') (hp : (s'.heap p).core = (s.heap p).core) :
    passes cfg s' p = passes cfg s p := by
  have hrefs : (s'.heap p).refcount = (s.heap p).refcount := Item.core_congr Item.refcount (fun _ => rfl) hp
  have htime : (s'.heap p).time = (s.heap p).time := Item.core_congr Item.time (fun _ => rfl) hp
  have hexptime : (s'.heap p).exptime = (s.heap p).exptime := Item.core_congr Item.exptime (fun _ => rfl) hp
  have hcas : (s'.heap p).get_cas = (s.heap p).get_cas := Item.core_congr Item.get_cas (fun _ => rfl) hp
  have hcas' : ∀ t : Store, ((t.refcount_incr p).heap p).get_cas = (t.heap p).get_cas := fun t => by
    simp [refcount_incr, Item.get_cas]
  simp only [passes, repairs, reclaims, item_is_flushed, hcas', hcas]
  simp [refcount_incr, Store.modify, hsteady.1, hsteady.2, hsteady.3, hrefs, htime, hexptime]

theorem finds_congr {ps : List Ptr} (hsteady : Steady s s')
    (hsame : ∀ p ∈ ps, (s'.heap p).core = (s.heap p).core ∧ (s'.heap p).prev = (s.heap p).prev) {locks : List Bool} :
    ∀ {tries : Nat} {search : Option Ptr} {qs : List Ptr}, Walk (fun p => (s.heap p).prev) search qs → qs ⊆ ps →
      finds cfg s' locks tries search = finds cfg s locks tries search := by
  induction locks with
  | nil =>
      intro tries search qs hw hqs
      cases tries <;> cases search <;> rfl
  | cons lock locks ih =>
      intro tries search qs hw hqs
      cases tries with
      | zero => rfl
      | succ tries =>
          cases qs with
          | nil =>
              obtain rfl : search = none := hw
              rfl
          | cons q qs =>
              obtain ⟨rfl, hw⟩ := hw
              obtain ⟨hcore, hprev⟩ := hsame q (hqs (by simp))
              have hqs' : qs ⊆ ps := fun x hx => hqs (by simp [hx])
              have hcrawler : (s'.heap q).is_crawler = (s.heap q).is_crawler :=
                Item.core_congr Item.is_crawler (fun _ => rfl) hcore
              simp only [finds, hcrawler, passes_congr hsteady hcore, hprev, ih hw hqs']

end Pull

namespace Store

variable {s s' : Store} {p q : Ptr}

/-! ## The way to the head -/

theorem do_item_unlink_q_prev (h : s.do_item_unlink_q p = some s') (hnext : (s.heap p).next ≠ some q) :
    (s'.heap q).prev = (s.heap q).prev := by
  simp only [do_item_unlink_q] at h
  obtain ⟨s₁, hunlink, h⟩ := Option.bind_eq_some_iff.mp h
  cases h
  have hqueue := (do_item_unlinktail_q_requeued hunlink).queue
  have hprev := congrFun (congrArg Queue.prev hqueue) q
  refine Eq.trans hprev ?_
  cases hn : (s.heap p).next with
  | none => simp [Queue.remove, queue, hn]
  | some n =>
      have hq : q ≠ n := fun he => hnext (by rw [hn, he])
      simp [Queue.remove, queue, hn, hq]

theorem do_item_unlink_prev (h : s.do_item_unlink p = some s') (hq : q ≠ p) (hnext : (s.heap p).next ≠ some q) :
    (s'.heap q).prev = (s.heap q).prev := by
  obtain ⟨-, rfl⟩ | ⟨-, s₁, hunlink, hremove⟩ := do_item_unlink_cases h
  · rfl
  · have hnext' : ((s.unlinking p).heap p).next ≠ some q := by simpa [unlinking] using hnext
    rw [Pull.do_item_remove_core hremove hq, do_item_unlink_q_prev hunlink hnext', unlinking_kept hq]

theorem do_item_remove_steady (h : s.do_item_remove p = some s') : Pull.Steady s s' := by
  obtain ⟨-, ⟨-, -, rfl⟩ | ⟨-, -, rfl⟩⟩ := do_item_remove_cases h
  · exact .modify
  · exact ⟨rfl, rfl, rfl, rfl⟩

theorem do_item_unlink_steady (h : s.do_item_unlink p = some s') : Pull.Steady s s' := by
  obtain ⟨-, rfl⟩ | ⟨-, s₁, hunlink, hremove⟩ := do_item_unlink_cases h
  · exact .refl
  · have hsteady : Pull.Steady s s₁ := by
      rw [(do_item_unlink_q_core hunlink).rest]
      exact ⟨rfl, rfl, rfl, rfl⟩
    exact hsteady.trans (do_item_remove_steady hremove)

end Store

namespace Pull

open Store

variable {cfg : Settings} {a : Pull} {s s' : Store} {p : Ptr} {removed removed' : Nat} {pulled : Pulled} {id : UInt8}

/-- A round that goes on leaves the way from its item to the head as it was. -/
theorem Rounded.ahead (hs : s.Sound) (hq : Queued id s p) (hreturns : a.returns) (h : Rounded cfg a s p s' none) :
    Steady s s' ∧ ∃ ps, Walk (fun q => (s.heap q).prev) (s.heap p).prev ps ∧
      ∀ q ∈ ps, (s'.heap q).core = (s.heap q).core ∧ (s'.heap q).prev = (s.heap q).prev := by
  obtain ⟨l, hc⟩ := hs
  obtain ⟨pre, post, hl⟩ := List.append_of_mem ((queued_iff hc).mp hq)
  have hholds := hc.holds id
  rw [hl] at hholds
  have hprev : Steady s s' ∧ ∀ q, q ≠ p → (s.heap p).next ≠ some q → (s'.heap q).prev = (s.heap q).prev := by
    cases h with
    | repaired _ hunlink =>
        refine ⟨(Steady.modify.trans .modify).trans (do_item_unlink_steady hunlink), fun q hqp hnext => ?_⟩
        rw [do_item_unlink_prev hunlink hqp (by simpa [refcount_incr] using hnext), Store.modify_of_ne hqp,
          refcount_incr, Store.modify_of_ne hqp]
    | reclaimed hunlink hremove =>
        refine ⟨Steady.modify.trans ((do_item_unlink_steady hunlink).trans (do_item_remove_steady hremove)),
          fun q hqp hnext => ?_⟩
        rw [do_item_remove_core hremove hqp,
          do_item_unlink_prev hunlink hqp (by simpa [refcount_incr] using hnext), refcount_incr, Store.modify_of_ne hqp]
    | warmed hwarm => simp [returns, hwarm] at hreturns
  refine ⟨hprev.1, pre.reverse, ?_, fun q hqpre => ?_⟩
  · have hwalk := hholds.walk_prev
    rw [List.reverse_append, List.reverse_cons, List.append_assoc] at hwalk
    obtain ⟨o, ho, hwalk⟩ := hwalk.of_append
    exact hwalk
  · have hmem : q ∈ pre := by simpa using hqpre
    have hqp : q ≠ p := fun he => hholds.not_mem_mid.1 (he ▸ hmem)
    refine ⟨h.core hqp, hprev.2 q hqp fun hnext => ?_⟩
    exact hholds.not_mem_mid.2.2 q hmem (List.mem_of_mem_head? (hholds.mid.2 ▸ hnext))

/-- How the loop ends, by the item it finds. -/
def ended_at : Option Ptr → Pulled
  | some p => .stopped p none true
  | none => .nothing

theorem loop_finds (hreturns : a.returns) (hblocks : a.flags.crawl_blocks = false) {locks : List Bool} :
    ∀ {tries search removed s s' removed' pulled}, s.Sound → (∀ p, search = some p → Queued a.id s p) →
      loop cfg a locks tries search removed s = some (s', removed', pulled) →
        pulled = ended_at (finds cfg s locks tries search) := by
  induction locks with
  | nil =>
      intro tries search removed s s' removed' pulled hs hq h
      cases tries <;> cases search <;> simp only [loop] at h <;> cases h <;> rfl
  | cons lock locks ih =>
      intro tries search removed s s' removed' pulled hs hq h
      cases tries with
      | zero => cases h; rfl
      | succ tries =>
          cases search with
          | none => cases h; rfl
          | some p =>
              have hp := hq p rfl
              have hprev (q) (hq : (s.heap p).prev = some q) := queued_prev hs hp hq
              simp only [loop, hblocks, Bool.false_eq_true, ↓reduceIte] at h
              simp only [finds]
              split_ifs at h with hcrawler hlock
              · rw [if_pos hcrawler]
                exact ih hs (fun q hq => (hprev q hq).1) h
              · rw [if_neg hcrawler, if_pos (by simp [hlock])]
                exact ih hs (fun q hq => (hprev q hq).1) h
              · obtain ⟨n, rfl⟩ := queued_item hs hp (by simpa using hcrawler)
                obtain ⟨⟨s₁, more, r⟩, hr, h⟩ := Option.bind_eq_some_iff.mp h
                have hpass := round_passes hreturns hr
                rw [if_neg hcrawler]
                cases hdoes : passes cfg s (.item n) with
                | true =>
                    rw [hdoes] at hpass
                    obtain rfl : r = none := hpass
                    obtain ⟨hsteady, ps, hwalk, hsame⟩ := (rounded hr).ahead hs hp hreturns
                    rw [if_pos (by simp), ← finds_congr hsteady hsame hwalk (List.Subset.refl ps)]
                    refine ih ((hs.rounded hp (rounded hr)).1 rfl) (fun q hq => ?_) h
                    obtain ⟨⟨hlinked, hclsid⟩, hne⟩ := hprev q hq
                    have hcore := (rounded hr).core hne
                    exact ⟨(Item.core_congr (·.it_flags.linked) (fun _ => rfl) hcore).trans hlinked,
                      (Item.core_congr Item.slabs_clsid (fun _ => rfl) hcore).trans hclsid⟩
                | false =>
                    rw [hdoes] at hpass
                    obtain rfl : r = some (.stopped (.item n) none true) := hpass
                    cases h
                    rw [if_neg (by simpa using hlock)]
                    rfl

end Pull

namespace Store

variable {cfg : Settings} {a : Pull} {s s' : Store} {locks : List Bool} {removed : Nat} {ret : Option Ptr}

/-- A pull that may return its item returns what it finds; what it removes it leaves no reference to. -/
theorem lru_pull_tail_finds (hs : s.Sound) (hreturns : a.returns) (hblocks : a.flags.crawl_blocks = false)
    (hid : a.orig_id ≠ 0) (h : s.lru_pull_tail cfg a locks = some (s', removed, ret)) :
    ret = Pull.finds cfg s locks 5 (s.tails a.id) ∧ (ret = none → Framed s s' ∧ s'.held = s.held) := by
  obtain ⟨s₁, removed', pulled, hloop, hfinish⟩ := lru_pull_tail_finished hid h
  have hreturn : a.flags.return_item = true := by
    simp only [Pull.returns, decide_eq_true_eq] at hreturns
    exact hreturns.2.2
  have hfound := Pull.loop_finds hreturns hblocks hs (fun p ht => Pull.queued_tail hs ht) hloop
  have hframed : pulled = .nothing → Framed s s₁ ∧ s₁.held = s.held :=
    Pull.loop_rule (I := fun t => t.Sound ∧ Framed s t ∧ t.held = s.held)
      (R := fun t pulled => pulled = .nothing → Framed s t ∧ t.held = s.held)
      (fun _ h => h.1) (fun _ h _ => h.2) (fun _ h _ => h.2)
      (fun t n t' r ht hq hr => by
        constructor
        · rintro rfl
          exact ⟨(ht.1.rounded hq hr).1 rfl, Pull.Rounded.framed ht.2.1 hq.1 hr,
            (hr.ahead ht.1 hq hreturns).1.held.trans ht.2.2⟩
        · rintro _ rfl rfl
          cases hr)
      ⟨hs, .refl, rfl⟩ (fun p ht => Pull.queued_tail hs ht) hloop
  cases hf : Pull.finds cfg s locks 5 (s.tails a.id) with
  | none =>
      obtain rfl : pulled = .nothing := by rw [hfound, hf]; rfl
      cases hfinish with
      | nothing => exact ⟨rfl, fun _ => hframed rfl⟩
  | some p =>
      obtain rfl : pulled = .stopped p none true := by rw [hfound, hf]; rfl
      cases hfinish with
      | removed _ hflag => simp [hreturn] at hflag
      | returned hmove _ => exact ⟨rfl, fun he => (by cases he)⟩

end Store

end Memcached.MemoryLru

import Memcached.MemoryLru.Lemmas.Pulls

/-!
# What a pull leaves alone

An item that is not removed keeps all but its place in the LRUs and its hit markers, and has the references it had.
-/

namespace Memcached.MemoryLru

namespace Store

/-- The item is where it was in the hash table, with the references it had. -/
structure Stays (s s' : Store) (p : Ptr) : Prop where
  shape : (s'.heap p).shape = (s.heap p).shape
  cas : (s'.heap p).cas = (s.heap p).cas
  exptime : (s'.heap p).exptime = (s.heap p).exptime
  refcount : (s'.heap p).refcount = (s.heap p).refcount

/-- The item was taken out of the hash table. -/
structure Removed (s s' : Store) (p : Ptr) : Prop where
  linked : (s.heap p).it_flags.linked
  unlinked : ¬ (s'.heap p).it_flags.linked

/-- Items stay or are removed. -/
structure Framed (s s' : Store) : Prop where
  items : ∀ p, Stays s s' p ∨ Removed s s' p
  cas_id : s'.cas_id = s.cas_id

variable {s s' s'' : Store} {p q : Ptr} {cfg : Settings} {a : Pull}

/-! ## Frames -/

theorem Stays.refl : Stays s s p := ⟨rfl, rfl, rfl, rfl⟩

theorem Stays.trans (h : Stays s s' p) (h' : Stays s' s'' p) : Stays s s'' p :=
  ⟨h'.shape.trans h.shape, h'.cas.trans h.cas, h'.exptime.trans h.exptime, h'.refcount.trans h.refcount⟩

theorem Stays.of_core (h : (s'.heap p).core = (s.heap p).core) : Stays s s' p :=
  ⟨Item.shape_of_core h, Item.core_congr Item.cas (fun _ => rfl) h, Item.core_congr Item.exptime (fun _ => rfl) h,
    Item.core_congr Item.refcount (fun _ => rfl) h⟩

theorem Stays.of_kept (h : Kept s s' q) (hrefs : (s'.heap q).refcount = (s.heap q).refcount) : Stays s s' p := by
  by_cases hp : p = q
  · subst hp; exact ⟨h.shape, h.cas, h.exptime, hrefs⟩
  · exact .of_core (h.core p hp)

theorem Stays.linked (h : Stays s s' p) : (s'.heap p).it_flags.linked = (s.heap p).it_flags.linked :=
  Item.shape_congr (·.it_flags.linked) (fun _ => rfl) h.shape

theorem Framed.refl : Framed s s := ⟨fun _ => .inl .refl, rfl⟩

theorem Framed.step (h : Framed s s') (hp : Stays s s'' p ∨ Removed s s'' p)
    (hother : ∀ q, q ≠ p → (s''.heap q).core = (s'.heap q).core) (hcas : s''.cas_id = s'.cas_id) : Framed s s'' := by
  refine ⟨fun q => ?_, hcas.trans h.cas_id⟩
  by_cases hq : q = p
  · subst hq; exact hp
  have hstays : Stays s' s'' q := .of_core (hother q hq)
  rcases h.items q with hs | hr
  · exact .inl (hs.trans hstays)
  · exact .inr ⟨hr.linked, by rw [hstays.linked]; exact hr.unlinked⟩

theorem Framed.linked (h : Framed s s') (hl : (s'.heap p).it_flags.linked) : Stays s s' p := by
  rcases h.items p with hs | hr
  · exact hs
  · exact absurd hl hr.unlinked

/-! ## Removals -/

theorem do_item_remove_unlinked (h : s.do_item_remove p = some s') (hl : ¬ (s.heap p).it_flags.linked) :
    ¬ (s'.heap p).it_flags.linked := by
  obtain ⟨-, ⟨-, -, rfl⟩ | ⟨-, -, rfl⟩⟩ := do_item_remove_cases h
  · simpa [refcount_decr] using hl
  · simp [freed, Flags.zero]

theorem do_item_remove_cas_id (h : s.do_item_remove p = some s') : s'.cas_id = s.cas_id := by
  obtain ⟨-, ⟨-, -, rfl⟩ | ⟨-, -, rfl⟩⟩ := do_item_remove_cases h <;> rfl

theorem do_item_remove_linked (h : s.do_item_remove p = some s') (hl : (s.heap p).it_flags.linked) :
    s' = s.refcount_decr p := by
  obtain ⟨-, ⟨-, -, rfl⟩ | ⟨-, hnot, -⟩⟩ := do_item_remove_cases h
  · rfl
  · exact absurd hl hnot

theorem do_item_unlink_unlinked (h : s.do_item_unlink p = some s') : ¬ (s'.heap p).it_flags.linked := by
  obtain ⟨hl, rfl⟩ | ⟨-, s₁, hunlink, hremove⟩ := do_item_unlink_cases h
  · exact hl
  · refine do_item_remove_unlinked hremove ?_
    rw [Item.core_congr (·.it_flags.linked) (fun _ => rfl) ((do_item_unlink_q_core hunlink).core p)]
    simp [unlinking]

theorem do_item_unlink_cas_id (h : s.do_item_unlink p = some s') : s'.cas_id = s.cas_id := by
  obtain ⟨-, rfl⟩ | ⟨-, s₁, hunlink, hremove⟩ := do_item_unlink_cases h
  · rfl
  · rw [do_item_remove_cas_id hremove, (do_item_unlink_q_core hunlink).rest]
    rfl

end Store

namespace Pull

open Store

variable {s₀ s s' : Store} {p : Ptr} {cfg : Settings} {a : Pull}

theorem Rounded.cas_id {r : Option Pulled} (h : Rounded cfg a s p s' r) : s'.cas_id = s.cas_id := by
  cases h with
  | repaired _ hunlink => rw [do_item_unlink_cas_id hunlink]; rfl
  | reclaimed hunlink hremove => rw [do_item_remove_cas_id hremove, do_item_unlink_cas_id hunlink]; rfl
  | warmed _ hupdate hremove => rw [do_item_remove_cas_id hremove, (do_item_update_nolock_kept hupdate).1.rest]; rfl
  | moved _ hmark hunlink =>
      rw [(do_item_unlink_q_core hunlink).rest]
      rcases hmark with rfl | rfl <;> rfl
  | kept _ => rfl
  | evicted _ hunlink => rw [do_item_unlink_cas_id hunlink]; rfl
  | returned _ => rfl

theorem Rounded.framed (hf : Framed s₀ s) (hq : (s.heap p).it_flags.linked) (h : Rounded cfg a s p s' none) :
    Framed s₀ s' := by
  have hstays := hf.linked hq
  have hlinked : (s₀.heap p).it_flags.linked := hstays.linked ▸ hq
  refine hf.step (p := p) ?_ (fun q hq => h.core hq) h.cas_id
  cases h with
  | repaired _ hunlink => exact .inr ⟨hlinked, do_item_unlink_unlinked hunlink⟩
  | reclaimed hunlink hremove =>
      exact .inr ⟨hlinked, do_item_remove_unlinked hremove (do_item_unlink_unlinked hunlink)⟩
  | @warmed s₁ _ _ hupdate hremove =>
      obtain ⟨hkept, hrefs⟩ := do_item_update_nolock_kept hupdate
      have hsame : Kept s s₁ p := (refcount_incr_kept.trans set_active_kept).trans hkept
      have hl : (s₁.heap p).it_flags.linked :=
        (Item.shape_congr (·.it_flags.linked) (fun _ => rfl) hsame.shape).trans hq
      obtain rfl := do_item_remove_linked hremove hl
      refine .inl (hstays.trans (.of_kept (hsame.trans refcount_decr_kept) ?_))
      simp [refcount_decr, hrefs, set_active, refcount_incr]

/-- After the loop the item that stopped it has one reference more. -/
def Framing (s₀ s : Store) : Pulled → Prop
  | .blocked | .nothing => Framed s₀ s
  | .stopped it _ _ => Framed s₀ (s.refcount_decr it) ∧ (s₀.heap it).it_flags.linked

theorem Rounded.framing {pulled : Pulled} (hf : Framed s₀ s) (hq : (s.heap p).it_flags.linked)
    (h : Rounded cfg a s p s' (some pulled)) : Framing s₀ s' pulled := by
  have hstays := hf.linked hq
  have hlinked : (s₀.heap p).it_flags.linked := hstays.linked ▸ hq
  have hcas := h.cas_id
  have hkept {s₁ : Store} (hk : Kept s s₁ p) (hrefs : (s₁.heap p).refcount = (s.heap p).refcount + 1)
      (hid : s₁.cas_id = s.cas_id) : Framed s₀ (s₁.refcount_decr p) := by
    refine hf.step (p := p) (.inl (hstays.trans (.of_kept (hk.trans refcount_decr_kept) ?_)))
      (fun q hq => (hk.trans refcount_decr_kept).core q hq) hid
    simp [refcount_decr, hrefs]
  cases h with
  | moved _ hmark hunlink =>
      have hcore := do_item_unlink_q_core hunlink
      rcases hmark with rfl | rfl
      · exact ⟨hkept (refcount_incr_kept.trans (hcore.kept p)) (by rw [hcore.refcount]; simp [refcount_incr]) hcas,
          hlinked⟩
      · exact ⟨hkept ((refcount_incr_kept.trans set_active_kept).trans (hcore.kept p))
          (by rw [hcore.refcount]; simp [set_active, refcount_incr]) hcas, hlinked⟩
  | kept _ => exact ⟨hkept refcount_incr_kept (by simp [refcount_incr]) hcas, hlinked⟩
  | evicted _ hunlink =>
      refine ⟨hf.step (p := p) (.inr ⟨hlinked, ?_⟩) (fun q hq => ?_) hcas, hlinked⟩
      · simpa [refcount_decr] using do_item_unlink_unlinked hunlink
      · rw [refcount_decr_kept.core q hq, do_item_unlink_core hunlink hq, refcount_incr_kept.core q hq]
  | returned _ => exact ⟨hkept refcount_incr_kept (by simp [refcount_incr]) hcas, hlinked⟩

theorem Finished.framed {pulled : Pulled} {ret : Option Ptr} (hflag : a.flags.return_item = false)
    (hf : Framing s₀ s pulled) (h : Finished a s pulled s' ret) : Framed s₀ s' := by
  cases h with
  | blocked => exact hf
  | nothing => exact hf
  | @removed it lru returned s₁ _ hmove _ hremove =>
      obtain ⟨hframed, hlinked⟩ := hf
      have hk : Kept s s₁ it ∧ (s₁.heap it).refcount = (s.heap it).refcount := by
        cases lru with
        | none => cases hmove; exact ⟨.refl _ _, rfl⟩
        | some lru =>
            have hcore := do_item_link_q_core hmove
            exact ⟨move_lru_kept.trans (hcore.kept it), by rw [hcore.refcount]; simp [move_lru]⟩
      have hl : (s₁.heap it).it_flags.linked = ((s.refcount_decr it).heap it).it_flags.linked := by
        rw [Item.shape_congr (·.it_flags.linked) (fun _ => rfl) hk.1.shape]
        simp [refcount_decr]
      refine hframed.step (p := it) ?_ (fun q hq => ?_) ?_
      · by_cases hnow : (s₁.heap it).it_flags.linked
        · obtain rfl := do_item_remove_linked hremove hnow
          refine .inl ((hframed.linked (hl ▸ hnow)).trans ?_)
          exact ⟨by simpa [refcount_decr, Item.shape] using hk.1.shape, by simpa [refcount_decr] using hk.1.cas,
            by simpa [refcount_decr] using hk.1.exptime, by simp [refcount_decr, hk.2]⟩
        · exact .inr ⟨hlinked, do_item_remove_unlinked hremove hnow⟩
      · rw [do_item_remove_core hremove hq, hk.1.core q hq, refcount_decr_kept.core q hq]
      · rw [do_item_remove_cas_id hremove, hk.1.rest]
        rfl
  | returned _ hreturn => rw [hflag] at hreturn; cases hreturn
  | leaked _ hreturn => rw [hflag] at hreturn; cases hreturn

end Pull

namespace Store

variable {s₀ s s' : Store} {p : Ptr} {cfg : Settings} {a : Pull}

theorem Framed.lru_pull_tail {locks : List Bool} {removed : Nat} {ret : Option Ptr} (hs : s.Sound) (hf : Framed s₀ s)
    (hflag : a.flags.return_item = false) (h : s.lru_pull_tail cfg a locks = some (s', removed, ret)) :
    Framed s₀ s' := by
  obtain ⟨rfl, -⟩ | ⟨s₁, removed', pulled, hloop, hfinish⟩ := lru_pull_tail_cases h
  · exact hf
  refine Pull.Finished.framed hflag ?_ hfinish
  exact Pull.loop_rule (I := fun t => t.Sound ∧ Framed s₀ t) (R := Pull.Framing s₀) (fun _ h => h.1) (fun _ h => h.2)
    (fun _ h => h.2)
    (fun t n t' r ht hq hr =>
      ⟨fun he => ⟨(ht.1.rounded hq hr).1 he, Pull.Rounded.framed ht.2 hq.1 (he ▸ hr)⟩,
        fun pulled he => Pull.Rounded.framing ht.2 hq.1 (he ▸ hr)⟩)
    ⟨hs, hf⟩ (fun p ht => Pull.queued_tail hs ht) hloop

/-- The entries of the hash table stay, but those of the items that are removed. -/
theorem Framed.table (hs : s.Sound) (hs' : s'.Sound) (hf : Framed s s') (k : Key) :
    s'.table k = s.table k ∨ ∃ p, s.table k = some p ∧ Removed s s' p ∧ s'.table k = none := by
  obtain ⟨l, hc⟩ := hs
  obtain ⟨l', hc'⟩ := hs'
  have hnew (p) (ht : s'.table k = some p) : s.table k = some p := by
    obtain ⟨hitem, hl, hkey⟩ := ((hc'.placed p).table k).mp ht
    have hstays := hf.linked hl
    refine ((hc.placed p).table k).mpr ⟨hitem, hstays.linked ▸ hl, ?_⟩
    rw [← hkey]
    exact (Item.shape_congr Item.key (fun _ => rfl) hstays.shape).symm
  cases ht' : s'.table k with
  | some p => exact .inl (hnew p ht').symm
  | none =>
      cases ht : s.table k with
      | none => exact .inl rfl
      | some p =>
          obtain ⟨hitem, hl, hkey⟩ := ((hc.placed p).table k).mp ht
          rcases hf.items p with hstays | hr
          · have hentry := ((hc'.placed p).table k).mpr ⟨hitem, hstays.linked.trans hl,
              (Item.shape_congr Item.key (fun _ => rfl) hstays.shape).trans hkey⟩
            rw [ht'] at hentry
            cases hentry
          · exact .inr ⟨p, rfl, hr, rfl⟩

end Store

end Memcached.MemoryLru

import Mathlib.Tactic.SplitIfs
import Memcached.MemoryLru.Lemmas.ItemConsistency

/-!
# What the functions on items do

Each function in terms of a few effects: an item is linked or unlinked but for its queue, it is freed, or it keeps what
makes it up (`Kept`).
-/

namespace Memcached.MemoryLru

namespace Store

section
variable {s s' : Store} {l : UInt8 → List Ptr} {it p : Ptr} {n : Nat} {cfg : Settings}

/-! ## Effects -/

/-- `do_item_link` before the queue, with the new CAS of the item and of the store. -/
def linking (s : Store) (it : Ptr) (cas cas_id : UInt64) : Store :=
  { s with
    heap := Function.update s.heap it
      { s.heap it with it_flags := { (s.heap it).it_flags with linked := true }, time := s.current_time, cas := cas }
    table := Function.update s.table (s.heap it).key (some it)
    log := .linked (s.heap it).key it :: s.log
    curr_items := s.curr_items + 1
    curr_bytes := s.curr_bytes + (s.heap it).ntotal
    cas_id := cas_id }

/-- `do_item_unlink` before the queue. -/
def unlinking (s : Store) (it : Ptr) : Store :=
  { s with
    heap := Function.update s.heap it { s.heap it with it_flags := { (s.heap it).it_flags with linked := false } }
    table := Function.update s.table (s.heap it).key none
    log := .unlinked (s.heap it).key it :: s.log
    curr_items := s.curr_items - 1
    curr_bytes := s.curr_bytes - (s.heap it).ntotal }

/-- The last reference is gone. -/
def freed (s : Store) (it : Ptr) : Store :=
  { s.modify it fun i =>
      { i with refcount := 0, it_flags := { Flags.zero with slabbed := true }, slabs_clsid := 0, prev := none, next := none }
    with frees := it :: s.frees }

/-- `it` may have moved to another place or another LRU, and may have been hit or referenced. -/
structure Kept (s s' : Store) (it : Ptr) : Prop where
  core : ∀ p, p ≠ it → (s'.heap p).core = (s.heap p).core
  shape : (s'.heap it).shape = (s.heap it).shape
  cas : (s'.heap it).cas = (s.heap it).cas
  exptime : (s'.heap it).exptime = (s.heap it).exptime
  time : (s'.heap it).time = (s.heap it).time ∨ (s'.heap it).time = s.current_time
  rest : s' = { s with
    heap := s'.heap, heads := s'.heads, tails := s'.tails, sizes := s'.sizes, sizes_bytes := s'.sizes_bytes }

theorem Kept.refl (s : Store) (it : Ptr) : Kept s s it := ⟨fun _ _ => rfl, rfl, rfl, rfl, .inl rfl, rfl⟩

theorem Kept.current_time (h : Kept s s' it) : s'.current_time = s.current_time := by rw [h.rest]

theorem Kept.trans {s'' : Store} (h : Kept s s' it) (h' : Kept s' s'' it) : Kept s s'' it where
  core p hp := (h'.core p hp).trans (h.core p hp)
  shape := h'.shape.trans h.shape
  cas := h'.cas.trans h.cas
  exptime := h'.exptime.trans h.exptime
  time := by
    rcases h'.time with ht | ht
    · rw [ht]; exact h.time
    · exact .inr (ht.trans h.current_time)
  rest := by rw [h'.rest, h.rest]

theorem SameCore.kept (h : SameCore s s') (it : Ptr) : Kept s s' it where
  core p _ := h.core p
  shape := Item.shape_of_core (h.core it)
  cas := Item.core_congr Item.cas (fun _ => rfl) (h.core it)
  exptime := Item.core_congr Item.exptime (fun _ => rfl) (h.core it)
  time := .inl (Item.core_congr Item.time (fun _ => rfl) (h.core it))
  rest := h.rest

theorem SameCore.refcount (h : SameCore s s') (p : Ptr) : (s'.heap p).refcount = (s.heap p).refcount :=
  Item.core_congr Item.refcount (fun _ => rfl) (h.core p)

theorem kept_modify {f : Item → Item} (hshape : (f (s.heap it)).shape = (s.heap it).shape)
    (hcas : (f (s.heap it)).cas = (s.heap it).cas) (hexptime : (f (s.heap it)).exptime = (s.heap it).exptime)
    (htime : (f (s.heap it)).time = (s.heap it).time ∨ (f (s.heap it)).time = s.current_time) :
    Kept s (s.modify it f) it where
  core p hp := by rw [modify_of_ne hp]
  shape := by rw [modify_self, hshape]
  cas := by rw [modify_self, hcas]
  exptime := by rw [modify_self, hexptime]
  time := by rw [modify_self]; exact htime
  rest := rfl

theorem refcount_incr_kept : Kept s (s.refcount_incr it) it := kept_modify rfl rfl rfl (.inl rfl)

theorem refcount_decr_kept : Kept s (s.refcount_decr it) it := kept_modify rfl rfl rfl (.inl rfl)

theorem set_time_kept : Kept s (s.set_time it) it := kept_modify rfl rfl rfl (.inr rfl)

theorem set_active_kept {active : Bool} : Kept s (s.set_active it active) it := kept_modify rfl rfl rfl (.inl rfl)

theorem move_lru_kept {lru : Lru} : Kept s (s.move_lru it lru) it := kept_modify rfl rfl rfl (.inl rfl)

/-! ## The functions -/

theorem do_item_link_linking (h : s.do_item_link cfg it = some s') :
    ¬ (s.heap it).it_flags.linked ∧ ¬ (s.heap it).it_flags.slabbed ∧
      ∃ s₁, (s.linking it
          (if (s.heap it).it_flags.cas then if cfg.use_cas then s.cas_id + 1 else 0 else (s.heap it).cas)
          (if cfg.use_cas then s.cas_id + 1 else s.cas_id)).do_item_link_q it = some s₁ ∧ s' = s₁.refcount_incr it := by
  simp only [do_item_link] at h
  split at h
  · cases h
  next hassert =>
  rw [not_or] at hassert
  obtain ⟨s₁, hlink, h⟩ := Option.bind_eq_some_iff.mp h
  obtain rfl := Option.some.inj h
  refine ⟨hassert.1, hassert.2, s₁, ?_, rfl⟩
  rw [← hlink]
  cases huse : cfg.use_cas <;> cases hcas : (s.heap it).it_flags.cas <;>
    simp [linking, assoc_insert, Store.modify, Item.set_cas, hcas]

theorem do_item_link_cases (h : s.do_item_link cfg it = some s') :
    ¬ (s.heap it).it_flags.linked ∧ ¬ (s.heap it).it_flags.slabbed ∧
      ∃ cas cas_id s₁, (s.linking it cas cas_id).do_item_link_q it = some s₁ ∧ s' = s₁.refcount_incr it := by
  obtain ⟨hlinked, hslabbed, s₁, hlink, hs'⟩ := do_item_link_linking h
  exact ⟨hlinked, hslabbed, _, _, s₁, hlink, hs'⟩

theorem do_item_unlink_cases (h : s.do_item_unlink it = some s') :
    (¬ (s.heap it).it_flags.linked ∧ s' = s) ∨
      (s.heap it).it_flags.linked ∧
        ∃ s₁, (s.unlinking it).do_item_unlink_q it = some s₁ ∧ s₁.do_item_remove it = some s' := by
  simp only [do_item_unlink] at h
  split at h
  · next hlinked =>
    obtain ⟨s₁, hunlink, h⟩ := Option.bind_eq_some_iff.mp h
    refine .inr ⟨hlinked, s₁, ?_, h⟩
    rw [← hunlink]
    simp [unlinking, assoc_delete, Store.modify]
  · next hlinked => exact .inl ⟨hlinked, (Option.some.inj h).symm⟩

theorem do_item_remove_cases (h : s.do_item_remove it = some s') :
    ¬ (s.heap it).it_flags.slabbed ∧
      (((s.heap it).refcount ≠ 0 ∧ (s.heap it).refcount ≠ 1 ∧ s' = s.refcount_decr it) ∨
        (s.heap it).refcount = 1 ∧ ¬ (s.heap it).it_flags.linked ∧ s' = s.freed it) := by
  simp only [do_item_remove] at h
  split at h
  · cases h
  next hassert =>
  rw [not_or] at hassert
  refine ⟨hassert.1, ?_⟩
  have hone : (s.heap it).refcount - 1 = 0 ↔ (s.heap it).refcount = 1 := sub_eq_zero
  split at h
  · next hzero =>
    have hrefs : (s.heap it).refcount = 1 := hone.mp (by simpa [refcount_decr] using hzero)
    simp only [item_free] at h
    split at h
    · cases h
    next hfree =>
    obtain rfl := Option.some.inj h
    refine .inr ⟨hrefs, fun hl => hfree (.inl (by simpa [refcount_decr] using hl)), ?_⟩
    simp [freed, refcount_decr, Store.modify, hrefs]
  · next hzero =>
    obtain rfl := Option.some.inj h
    exact .inl ⟨hassert.2, fun h1 => hzero (by simpa [refcount_decr] using hone.mpr h1), rfl⟩

/-- `it` left its queue and became the head of one, maybe of another LRU. -/
def Relinked (s s' : Store) (it : Ptr) : Prop :=
  ∃ s₁ f, s.do_item_unlink_q it = some s₁ ∧ Kept s₁ (s₁.modify it f) it ∧
    (f (s₁.heap it)).refcount = (s₁.heap it).refcount ∧ (s₁.modify it f).do_item_link_q it = some s'

theorem Relinked.kept (h : Relinked s s' it) : Kept s s' it := by
  obtain ⟨s₁, f, hunlink, hkept, -, hlink⟩ := h
  exact (((do_item_unlink_q_core hunlink).kept it).trans hkept).trans ((do_item_link_q_core hlink).kept it)

theorem Relinked.refcount (h : Relinked s s' it) : (s'.heap it).refcount = (s.heap it).refcount := by
  obtain ⟨s₁, f, hunlink, -, hf, hlink⟩ := h
  rw [(do_item_link_q_core hlink).refcount, modify_self, hf, (do_item_unlink_q_core hunlink).refcount]

theorem relinked_of_eq {s₁ : Store} (hunlink : s.do_item_unlink_q it = some s₁) (hlink : s₁.do_item_link_q it = some s') :
    Relinked s s' it := by
  have hid : s₁.modify it id = s₁ := by simp [Store.modify]
  exact ⟨s₁, id, hunlink, hid.symm ▸ Kept.refl s₁ it, rfl, hid.symm ▸ hlink⟩

theorem do_item_update_nolock_cases (h : s.do_item_update_nolock it = some s') :
    s' = s ∨ (s.heap it).it_flags.linked ∧ Relinked s s' it := by
  simp only [do_item_update_nolock] at h
  split_ifs at h with hdue hslabbed hlinked
  · obtain ⟨s₁, hunlink, hlink⟩ := Option.bind_eq_some_iff.mp h
    exact .inr ⟨hlinked, s₁, _, hunlink, set_time_kept, rfl, hlink⟩
  · exact .inl (Option.some.inj h).symm
  · exact .inl (Option.some.inj h).symm

theorem do_item_update_cases (h : s.do_item_update cfg it = some s') :
    s' = s ∨ s' = s.set_time it ∨ (s.heap it).it_flags.linked ∧ Relinked (s.set_time it) s' it := by
  simp only [do_item_update] at h
  split_ifs at h with hseg hslabbed hlinked hcold hdue hdue hslabbed hlinked
  · obtain ⟨s₁, hunlink, hlink⟩ := Option.bind_eq_some_iff.mp h
    refine .inr (.inr ⟨hlinked, s₁, fun i => { i with
      slabs_clsid := i.clsid ||| Lru.WARM_LRU.bits, it_flags := { i.it_flags with active := false } }, hunlink,
      kept_modify rfl rfl rfl (.inl rfl), rfl, ?_⟩)
    rw [← hlink]
    simp [set_active, move_lru, Store.modify]
  · exact .inr (.inl (Option.some.inj h).symm)
  · exact .inl (Option.some.inj h).symm
  · exact .inl (Option.some.inj h).symm
  · obtain ⟨s₁, hunlink, hlink⟩ := Option.bind_eq_some_iff.mp h
    exact .inr (.inr ⟨hlinked, relinked_of_eq hunlink hlink⟩)
  · exact .inl (Option.some.inj h).symm
  · exact .inl (Option.some.inj h).symm

theorem do_item_update_kept (h : s.do_item_update cfg it = some s') :
    Kept s s' it ∧ (s'.heap it).refcount = (s.heap it).refcount := by
  rcases do_item_update_cases h with rfl | rfl | ⟨-, hr⟩
  · exact ⟨.refl _ _, rfl⟩
  · exact ⟨set_time_kept, by simp [set_time]⟩
  · exact ⟨set_time_kept.trans hr.kept, by rw [hr.refcount]; simp [set_time]⟩

/-- The hit markers are set. -/
def mark (s : Store) (it : Ptr) (fetched active : Bool) : Store :=
  s.modify it fun i => { i with it_flags := { i.it_flags with fetched := fetched, active := active } }

theorem mark_kept {fetched active : Bool} : Kept s (s.mark it fetched active) it := kept_modify rfl rfl rfl (.inl rfl)

theorem mark_eq {f : Item → Item} {fetched active : Bool}
    (h : f (s.heap it) = { s.heap it with it_flags := { (s.heap it).it_flags with fetched := fetched, active := active } }) :
    s.modify it f = s.mark it fetched active := by
  simp [mark, Store.modify, h]

theorem mark_same : s.mark it (s.heap it).it_flags.fetched (s.heap it).it_flags.active = s := by simp [mark, Store.modify]

/-- Whether a hit goes to the bump buffer. -/
def bumps (cfg : Settings) (s : Store) (it : Ptr) (room : Bool) : Bool :=
  cfg.lru_segmented ∧ ¬ (s.heap it).it_flags.active ∧ (s.heap it).it_flags.fetched ∧
    (s.heap it).lruid = Lru.COLD_LRU.bits ∧ room

/-- A hit marks the item, and may move it or put it into the bump buffer. -/
theorem mark_fetched_cases {room : Bool} (h : s.mark_fetched cfg it room = some s') : ∃ fetched active,
    (bumps cfg s it room = false ∧
      (s' = s.mark it fetched active ∨ (s.mark it fetched active).do_item_update cfg it = some s')) ∨
    bumps cfg s it room = true ∧
      s' = { (s.mark it fetched active).refcount_incr it with bump_bufs := it :: s.bump_bufs } := by
  simp only [mark_fetched, Bool.not_eq_true', ne_eq] at h
  split_ifs at h with hseg hactive hfetched hlru hroom
  · obtain rfl := Option.some.inj h
    exact ⟨true, (s.heap it).it_flags.active, .inl ⟨by simp [bumps, hfetched], .inl (mark_eq rfl)⟩⟩
  · obtain rfl := Option.some.inj h
    have hlru' : (s.heap it).lruid = Lru.COLD_LRU.bits := by simpa [set_active, Item.lruid] using hlru
    have hfetched' : (s.heap it).it_flags.fetched = true := by simpa using hfetched
    cases room with
    | true =>
        refine ⟨true, true, .inr ⟨by simp [bumps, hseg, hactive, hfetched', hlru'], ?_⟩⟩
        simp [lru_bump_async, mark, set_active, refcount_incr, Store.modify, hfetched']
    | false => simp [lru_bump_async] at hroom
  · obtain rfl := Option.some.inj h
    have hfetched' : (s.heap it).it_flags.fetched = true := by simpa using hfetched
    cases room with
    | true => simp [lru_bump_async] at hroom
    | false =>
        refine ⟨true, false, .inl ⟨by simp [bumps], .inl ?_⟩⟩
        simp [lru_bump_async, mark, set_active, refcount_incr, refcount_decr, Store.modify, hfetched']
  · refine ⟨(s.heap it).it_flags.fetched, true, .inl ⟨?_, .inr ?_⟩⟩
    · have hlru' : (s.heap it).lruid ≠ Lru.COLD_LRU.bits := by simpa [set_active, Item.lruid] using hlru
      simp [bumps, hlru']
    · rwa [set_active, mark_eq rfl] at h
  · obtain rfl := Option.some.inj h
    exact ⟨_, _, .inl ⟨by simp [bumps, hactive], .inl mark_same.symm⟩⟩
  · refine ⟨true, (s.heap it).it_flags.active, .inl ⟨by simp [bumps, hseg], .inr ?_⟩⟩
    rw [← h]
    rfl

/-- A get finds nothing, removes what is dead, or returns an item with a reference to it. -/
theorem do_item_get_cases {key : Key} {do_update room : Bool} {r : Option Ptr}
    (h : s.do_item_get cfg key do_update room = some (s', r)) :
    (s.table key = none ∧ s' = s ∧ r = none) ∨
      ∃ it, s.table key = some it ∧
        (((s.item_is_flushed (s.heap it) ∨ (s.heap it).exptime ≠ 0 ∧ (s.heap it).exptime ≤ s.current_time) ∧
            r = none ∧ ∃ s₁, (s.refcount_incr it).do_item_unlink it = some s₁ ∧ s₁.do_item_remove it = some s') ∨
          ¬ (s.item_is_flushed (s.heap it) ∨ (s.heap it).exptime ≠ 0 ∧ (s.heap it).exptime ≤ s.current_time) ∧
            r = some it ∧ ∃ s₁, s' = s₁.hold it ∧
              (do_update = false ∧ s₁ = s.refcount_incr it ∨
                do_update = true ∧ (s.refcount_incr it).mark_fetched cfg it room = some s₁)) := by
  simp only [do_item_get] at h
  split at h
  · next htable =>
    obtain ⟨rfl, rfl⟩ := Prod.mk.inj (Option.some.inj h)
    exact .inl ⟨htable, rfl, rfl⟩
  · next it htable =>
    refine .inr ⟨it, htable, ?_⟩
    have hflushed : (s.refcount_incr it).item_is_flushed ((s.refcount_incr it).heap it) = s.item_is_flushed (s.heap it) := by
      simp [item_is_flushed, refcount_incr, Store.modify, Item.get_cas]
    have hexptime : ((s.refcount_incr it).heap it).exptime = (s.heap it).exptime := by simp [refcount_incr]
    have htime : (s.refcount_incr it).current_time = s.current_time := rfl
    rw [hflushed, hexptime, htime] at h
    split at h
    · next hdead =>
      obtain ⟨s₁, hunlink, h⟩ := Option.bind_eq_some_iff.mp h
      obtain ⟨s₂, hremove, h⟩ := Option.bind_eq_some_iff.mp h
      obtain ⟨rfl, rfl⟩ := Prod.mk.inj (Option.some.inj h)
      exact .inl ⟨hdead, rfl, s₁, hunlink, hremove⟩
    · next hlive =>
      cases do_update with
      | false =>
          obtain ⟨rfl, rfl⟩ := Prod.mk.inj (Option.some.inj h)
          exact .inr ⟨hlive, rfl, _, rfl, .inl ⟨rfl, rfl⟩⟩
      | true =>
          obtain ⟨s₁, hmark, h⟩ := Option.bind_eq_some_iff.mp h
          obtain ⟨rfl, rfl⟩ := Prod.mk.inj (Option.some.inj h)
          exact .inr ⟨hlive, rfl, s₁, rfl, .inr ⟨rfl, hmark⟩⟩

end

end Store

end Memcached.MemoryLru

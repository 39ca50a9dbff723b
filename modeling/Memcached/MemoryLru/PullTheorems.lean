import Memcached.MemoryLru.ItemTheorems

/-!
# What `lru_pull_tail` does to HOT and WARM

The first item whose lock is free, and which is neither repaired nor reclaimed, is judged by its hit marker, its age and
the size of its LRU. HOT has a limit of its own, unless that is 0.
-/

namespace Memcached.MemoryLru

open Linked Transition

namespace Pull

variable {cfg : Settings} {a : Pull} {s s' s₁ : Store} {p : Ptr}

/-- The item the loop finds, with the state in which it does, and the locks and tries that are left. -/
def found (cfg : Settings) (a : Pull) : List Bool → Nat → Option Ptr → Store → Option (Store × Ptr × List Bool × Nat)
  | _, 0, _, _ => none
  | _, _, none, _ => none
  | [], _, _, _ => none
  | lock :: locks, tries + 1, some search, s =>
      let next_it := (s.heap search).prev
      let referenced := s.refcount_incr search
      if (s.heap search).is_crawler then
        if a.flags.crawl_blocks then none else found cfg a locks (tries + 1) next_it s
      else if !lock then found cfg a locks tries next_it s
      else if repairs cfg referenced (referenced.heap search) ∨ reclaims referenced (referenced.heap search) then
        match a.round cfg s search with
        | some (s, _, none) => found cfg a locks tries next_it s
        | _ => none
      else some (s, search, locks, tries)

/-- The share of HOT or of WARM in `total_bytes`. -/
def share (cfg : Settings) (a : Pull) : UInt64 :=
  a.total_bytes * (if a.cur_lru = .HOT_LRU then cfg.hot_lru_pct else cfg.warm_lru_pct) / 100

/-- Too many bytes in the LRU, or too old. -/
def demoted (cfg : Settings) (a : Pull) (s : Store) (it : Item) : Bool :=
  s.sizes_bytes a.id > a.share cfg ∨ s.current_time - it.time > a.max_age

/-- From `s` to `s'`, in whose LRUs `l'` are, the item became `f` of what it was. -/
structure Became (s s' : Store) (p : Ptr) (f : Item → Item) (l' : UInt8 → List Ptr) : Prop where
  item : (s'.heap p).core = (f (s.heap p)).core
  lists : s'.Counted l'

/-- At the head of another LRU of its class, without its hit marker. -/
def Moved (s s' : Store) (l : UInt8 → List Ptr) (p : Ptr) (lru : Lru) : Prop :=
  let rest := Function.update l (s.heap p).slabs_clsid ((l (s.heap p).slabs_clsid).erase p)
  let id := (s.heap p).clsid ||| lru.bits
  Became s s' p (fun i => { i with slabs_clsid := id, it_flags := { i.it_flags with active := false } })
    (Function.update rest id (p :: rest id))

/-- In its LRU, without its hit marker: at the head and with the time of now, if its time is not recent. -/
def Refreshed (s s' : Store) (l : UInt8 → List Ptr) (p : Ptr) : Prop :=
  if s.update_due p then
    Became s s' p (fun i => { i with time := s.current_time, it_flags := { i.it_flags with active := false } })
      (Function.update l (s.heap p).slabs_clsid (p :: (l (s.heap p).slabs_clsid).erase p))
  else Became s s' p (fun i => { i with it_flags := { i.it_flags with active := false } }) l

/-- Where it was, as it was. -/
def Left (s s' : Store) (l : UInt8 → List Ptr) (p : Ptr) : Prop := Became s s' p (fun i => i) l

/-- The rule for an item that was found in `s`. -/
def Ruled (cfg : Settings) (a : Pull) (s s' : Store) (l : UInt8 → List Ptr) (p : Ptr) : Prop :=
  if (s.heap p).it_flags.active then
    if a.cur_lru = .HOT_LRU then Moved s s' l p .WARM_LRU else Refreshed s s' l p
  else if a.demoted cfg s (s.heap p) then Moved s s' l p .COLD_LRU
  else Left s s' l p

/-- HOT is given nothing, and so what WARM is given. -/
def borrows (cfg : Settings) (a : Pull) (s : Store) (it : Item) : Prop :=
  a.cur_lru = .HOT_LRU ∧ a.share cfg = 0 ∧ ¬ it.it_flags.active ∧ ¬ s.current_time - it.time > a.max_age ∧
    0 < s.sizes_bytes a.id ∧ s.sizes_bytes a.id ≤ a.total_bytes * cfg.warm_lru_pct / 100

/-! ## The walk -/

/-- The loop comes to the item that is found, and judges it in a round. -/
theorem found_loop {locks locks' : List Bool} : ∀ {tries tries' removed removed' : Nat} {search : Option Ptr}
    {s s' : Store} {pulled : Pulled}, s.Sound → (∀ q, search = some q → Queued a.id s q) →
    found cfg a locks tries search s = some (s₁, p, locks', tries') →
    loop cfg a locks tries search removed s = some (s', removed', pulled) →
    s₁.Sound ∧ Queued a.id s₁ p ∧ (∃ n, p = .item n) ∧
      ∃ s₂ more r removed₁, a.pick cfg (s₁.refcount_incr p) p = some (s₂, more, r) ∧
        match r with
        | none => loop cfg a locks' tries' (s₁.heap p).prev (removed₁ + more) s₂ = some (s', removed', pulled)
        | some stopped => s' = s₂ ∧ pulled = stopped := by
  induction locks with
  | nil =>
      intro tries tries' removed removed' search s s' pulled _ _ hf
      cases tries <;> cases search <;> simp [found] at hf
  | cons lock locks ih =>
      intro tries tries' removed removed' search s s' pulled hs hq hf h
      cases tries with
      | zero => simp [found] at hf
      | succ tries =>
          cases search with
          | none => simp [found] at hf
          | some q =>
              have hqueued := hq q rfl
              have hprev (r) (hr : (s.heap q).prev = some r) := queued_prev hs hqueued hr
              simp only [found] at hf
              simp only [loop] at h
              split_ifs at hf h with hcrawler hblocks hlock hdead
              · exact ih hs (fun r hr => (hprev r hr).1) hf h
              · exact ih hs (fun r hr => (hprev r hr).1) hf h
              · obtain ⟨n, rfl⟩ := queued_item hs hqueued (by simpa using hcrawler)
                obtain ⟨⟨s₂, more, r⟩, hr, h⟩ := Option.bind_eq_some_iff.mp h
                rw [hr] at hf
                cases r with
                | some pulled' => simp at hf
                | none =>
                    refine ih ((hs.rounded hqueued (rounded hr)).1 rfl) (fun r hr' => ?_) hf h
                    obtain ⟨⟨hlinked, hclsid⟩, hne⟩ := hprev r hr'
                    have hcore := (rounded hr).core hne
                    exact ⟨(Item.core_congr (·.it_flags.linked) (fun _ => rfl) hcore).trans hlinked,
                      (Item.core_congr Item.slabs_clsid (fun _ => rfl) hcore).trans hclsid⟩
              · obtain ⟨n, rfl⟩ := queued_item hs hqueued (by simpa using hcrawler)
                obtain ⟨⟨s₂, more, r⟩, hr, h⟩ := Option.bind_eq_some_iff.mp h
                cases hf
                rw [not_or] at hdead
                simp only [round] at hr
                rw [if_neg hdead.1, if_neg hdead.2] at hr
                refine ⟨hs, hqueued, ⟨n, rfl⟩, s₂, more, r, removed, hr, ?_⟩
                cases r with
                | none => exact h
                | some stopped =>
                    cases h
                    exact ⟨rfl, rfl⟩

/-! ## What becomes of the item -/

namespace Became

variable {t t' : Store} {f : Item → Item} {l l' : UInt8 → List Ptr}

theorem refl (hc : s.Counted l) : Became s s p (fun i => i) l := ⟨rfl, hc⟩

theorem get {β : Type} (h : Became s t p f l) (g : Item → β) (hg : ∀ i, g i.core = g i) : g (t.heap p) = g (f (s.heap p)) :=
  Item.core_congr g hg h.item

theorem modify (h : Became s t p f l) (g : Item → Item) (hg : ∀ i, (g i).core = (g i.core).core)
    (hkeep : ∀ i, (g i).next = i.next ∧ (g i).prev = i.prev ∧ (g i).slabs_clsid = i.slabs_clsid ∧
      (g i).accounted = i.accounted) : Became s (t.modify p g) p (fun i => g (f i)) l where
  item := by rw [Store.modify_self, hg, h.item, ← hg]
  lists := h.lists.modify fun _ _ => hkeep _

theorem modify_loose (h : Became s t p f l) (g : Item → Item) (hg : ∀ i, (g i).core = (g i.core).core)
    (hout : ∀ id, p ∉ l id) : Became s (t.modify p g) p (fun i => g (f i)) l where
  item := by rw [Store.modify_self, hg, h.item, ← hg]
  lists := h.lists.modify fun id hm => absurd hm (hout id)

theorem unlink {n : Nat} (h : Became s t (.item n) f l) (hmem : .item n ∈ l (f (s.heap (.item n))).slabs_clsid)
    (hu : t.do_item_unlink_q (.item n) = some t') :
    Became s t' (.item n) f (Function.update l (f (s.heap (.item n))).slabs_clsid
      ((l (f (s.heap (.item n))).slabs_clsid).erase (.item n))) := by
  have hclsid := h.get Item.slabs_clsid fun _ => rfl
  have hcount := Store.do_item_unlink_q_counted h.lists rfl (hclsid ▸ hmem) hu
  rw [hclsid] at hcount
  exact ⟨((Store.do_item_unlink_q_core hu).core _).trans h.item, hcount⟩

theorem link {n : Nat} (h : Became s t (.item n) f l) (hout : ∀ id, .item n ∉ l id)
    (hl : t.do_item_link_q (.item n) = some t') :
    Became s t' (.item n) f (Function.update l (f (s.heap (.item n))).slabs_clsid
      (.item n :: l (f (s.heap (.item n))).slabs_clsid)) := by
  have hclsid := h.get Item.slabs_clsid fun _ => rfl
  have hcount := Store.do_item_link_q_counted h.lists rfl hout hl
  rw [hclsid] at hcount
  exact ⟨((Store.do_item_link_q_core hl).core _).trans h.item, hcount⟩

/-- The reference that the round took is dropped: the item is linked, and so is not freed. -/
theorem drop (h : Became s t p (fun i => { f i with refcount := (f i).refcount + 1 }) l)
    (hlinked : (f (s.heap p)).it_flags.linked) (hr : t.do_item_remove p = some s') : Became s s' p f l := by
  obtain ⟨-, ⟨-, -, rfl⟩ | ⟨-, hfree, -⟩⟩ := Store.do_item_remove_cases hr
  · have hdrop := h.modify (fun i => { i with refcount := i.refcount - 1 }) (fun _ => rfl) fun _ => ⟨rfl, rfl, rfl, rfl⟩
    refine ⟨hdrop.item.trans ?_, hdrop.lists⟩
    simp [Item.core]
  · rw [h.get (·.it_flags.linked) fun _ => rfl] at hfree
    exact absurd hlinked hfree

theorem congr {f' : Item → Item} (h : Became s t p f l) (hf : f' (s.heap p) = f (s.heap p)) : Became s t p f' l :=
  ⟨h.item.trans (by rw [hf]), h.lists⟩

theorem referenced (hc : s.Counted l) : Became s (s.refcount_incr p) p (fun i => { i with refcount := i.refcount + 1 }) l :=
  (refl hc).modify (fun i => { i with refcount := i.refcount + 1 }) (fun _ => rfl) fun _ => ⟨rfl, rfl, rfl, rfl⟩

end Became

variable {n : Nat} {l : UInt8 → List Ptr} {t t₁ t₂ : Store} {id : UInt8}

/-- With the reference of the round and without the hit marker. -/
def unmarked (i : Item) : Item := { i with refcount := i.refcount + 1, it_flags := { i.it_flags with active := false } }

theorem unmarked_of_active (hc : s.Counted l) :
    Became s ((s.refcount_incr p).set_active p false) p unmarked l :=
  (Became.referenced hc).modify (fun i => { i with it_flags := { i.it_flags with active := false } }) (fun _ => rfl)
    fun _ => ⟨rfl, rfl, rfl, rfl⟩

theorem unmarked_of_inactive (hc : s.Counted l) (hactive : (s.heap p).it_flags.active = false) :
    Became s (s.refcount_incr p) p unmarked l := by
  refine (Became.referenced hc).congr ?_
  simp [unmarked, ← hactive]

theorem moved (hc : s.Consistent l) (hq : Queued id s (.item n)) (ht : Became s t (.item n) unmarked l) {lru : Lru}
    (hunlink : t.do_item_unlink_q (.item n) = some t₁) (hmove : t₁.move_to_lru (.item n) (some lru) = some t₂)
    (hremove : t₂.do_item_remove (.item n) = some s') : Moved s s' l (.item n) lru := by
  have hmem : .item n ∈ l (unmarked (s.heap (.item n))).slabs_clsid := hc.mem_clsid ((queued_iff hc).mp hq)
  have hout := hc.toCounted.not_mem_erase hmem
  have hmoved := (ht.unlink hmem hunlink).modify_loose (fun i => { i with slabs_clsid := i.clsid ||| lru.bits })
    (fun _ => rfl) hout
  have hlinked := hmoved.link hout hmove
  exact Became.drop (hlinked.congr rfl) hq.1 hremove

theorem refreshed (hc : s.Consistent l) (hq : Queued id s (.item n)) (ht : Became s t (.item n) unmarked l)
    (htime : t.current_time = s.current_time) (hupdate : t.do_item_update_nolock (.item n) = some t₁)
    (hremove : t₁.do_item_remove (.item n) = some s') : Refreshed s s' l (.item n) := by
  have hmem : .item n ∈ l (unmarked (s.heap (.item n))).slabs_clsid := hc.mem_clsid ((queued_iff hc).mp hq)
  have hdue : t.update_due (.item n) = s.update_due (.item n) := by
    simp only [Store.update_due, htime, ht.get Item.time fun _ => rfl]
    rfl
  have hl : (t.heap (.item n)).it_flags.linked = true := (ht.get (·.it_flags.linked) fun _ => rfl).trans hq.1
  simp only [Store.do_item_update_nolock, hdue, hl] at hupdate
  unfold Refreshed
  split_ifs at hupdate ⊢ with hd hslabbed
  · obtain ⟨t₂, hunlink, hlink⟩ := Option.bind_eq_some_iff.mp hupdate
    have hout := hc.toCounted.not_mem_erase hmem
    have hclock : t₂.current_time = s.current_time := by
      rw [(Store.do_item_unlink_q_core hunlink).rest]
      exact htime
    have htimed := (ht.unlink hmem hunlink).modify_loose (fun i => { i with time := t₂.current_time }) (fun _ => rfl) hout
    have hlinked := htimed.link hout hlink
    dsimp only at hlinked
    rw [Function.update_self, Function.update_idem, hclock] at hlinked
    exact Became.drop (hlinked.congr rfl) hq.1 hremove
  · obtain rfl := Option.some.inj hupdate
    exact Became.drop (ht.congr rfl) hq.1 hremove

theorem left (hc : s.Consistent l) (hq : Queued id s (.item n))
    (hremove : (s.refcount_incr (.item n)).do_item_remove (.item n) = some s') : Left s s' l (.item n) :=
  Became.drop (Became.referenced hc.toCounted) hq.1 hremove

theorem not_cold {x y : UInt8} (hx : x < 64) : x ≠ y ||| Lru.COLD_LRU.bits := by
  intro he
  have hbit : 128 ≤ (y ||| Lru.COLD_LRU.bits).toNat := by
    rw [UInt8.toNat_or]
    exact Nat.right_le_or
  have hx' : x.toNat < 64 := UInt8.lt_iff_toNat_lt.mp hx
  rw [he] at hx'
  omega

/-! ## The rule -/

/-- The limit in the code is the share of the LRU, but for HOT if that is 0. -/
theorem limit_eq (h : ¬ (a.cur_lru = .HOT_LRU ∧ a.share cfg = 0)) (hlru : a.cur_lru = .HOT_LRU ∨ a.cur_lru = .WARM_LRU) :
    a.limit cfg = a.share cfg := by
  rcases hlru with hlru | hlru
  · have hne : a.total_bytes * cfg.hot_lru_pct / 100 ≠ 0 := fun hz => h ⟨hlru, by simpa [share, hlru] using hz⟩
    simp [limit, share, hlru, hne]
  · simp [limit, share, hlru]

theorem limit_borrowed (hlru : a.cur_lru = .HOT_LRU) (hz : a.share cfg = 0) :
    a.limit cfg = a.total_bytes * cfg.warm_lru_pct / 100 := by
  have hz' : a.total_bytes * cfg.hot_lru_pct / 100 = 0 := by simpa [share, hlru] using hz
  simp [limit, hlru, hz']

/-- An item without its hit marker: the code moves it where the rule does, or HOT has borrowed. -/
theorem inactive_iff (hq : Queued a.id s (.item n))
    (hlru : a.cur_lru = .HOT_LRU ∨ a.cur_lru = .WARM_LRU) (hclass : a.orig_id < 64)
    (hactive : (s.heap (.item n)).it_flags.active = false)
    (hmoved : s.sizes_bytes a.id > a.limit cfg ∨ s.current_time - (s.heap (.item n)).time > a.max_age →
      Moved s s' l (.item n) .COLD_LRU)
    (hleft : ¬ (s.sizes_bytes a.id > a.limit cfg ∨ s.current_time - (s.heap (.item n)).time > a.max_age) →
      Left s s' l (.item n)) :
    Ruled cfg a s s' l (.item n) ↔ ¬ borrows cfg a s (s.heap (.item n)) := by
  have hruled : Ruled cfg a s s' l (.item n) ↔ if a.demoted cfg s (s.heap (.item n)) then Moved s s' l (.item n) .COLD_LRU
      else Left s s' l (.item n) := by simp [Ruled, hactive]
  rw [hruled]
  by_cases hzero : a.cur_lru = .HOT_LRU ∧ a.share cfg = 0
  · obtain ⟨hhot, hz⟩ := hzero
    rw [limit_borrowed hhot hz] at hmoved hleft
    have hdemoted : a.demoted cfg s (s.heap (.item n)) = true ↔
        0 < s.sizes_bytes a.id ∨ s.current_time - (s.heap (.item n)).time > a.max_age := by simp [demoted, hz]
    by_cases hover : s.sizes_bytes a.id > a.total_bytes * cfg.warm_lru_pct / 100 ∨
        s.current_time - (s.heap (.item n)).time > a.max_age
    · have hpos : 0 < s.sizes_bytes a.id ∨ s.current_time - (s.heap (.item n)).time > a.max_age :=
        hover.imp_left fun h => UInt64.lt_of_le_of_lt (UInt64.le_iff_toNat_le.mpr (Nat.zero_le _)) h
      rw [if_pos (hdemoted.mpr hpos)]
      refine iff_of_true (hmoved hover) fun hb => ?_
      rcases hover with h | h
      · exact UInt64.not_lt.mpr hb.2.2.2.2.2 h
      · exact hb.2.2.2.1 h
    · have hsame := hleft hover
      rw [not_or] at hover
      by_cases hpos : 0 < s.sizes_bytes a.id
      · rw [if_pos (hdemoted.mpr (.inl hpos))]
        refine iff_of_false (fun hm => ?_) fun hb => hb ⟨hhot, hz, by simp [hactive], hover.2, hpos, UInt64.not_lt.mp hover.1⟩
        have hid : a.id = a.orig_id := by simp [Pull.id, hhot, Lru.bits]
        have hclsid := (hm.get Item.slabs_clsid fun _ => rfl).symm.trans (hsame.get Item.slabs_clsid fun _ => rfl)
        exact not_cold hclass (hid.symm.trans (hq.2.symm.trans hclsid.symm))
      · rw [if_neg fun hd => (hdemoted.mp hd).elim hpos hover.2]
        exact iff_of_true hsame fun hb => hpos hb.2.2.2.2.1
  · rw [limit_eq hzero hlru] at hmoved hleft
    refine iff_of_true ?_ fun hb => hzero ⟨hb.1, hb.2.1⟩
    split_ifs with hd
    · exact hmoved (by simpa [demoted] using hd)
    · exact hleft (by simpa [demoted] using hd)

theorem pick_cases {more : Nat} {r : Option Pulled} (hlru : a.cur_lru = .HOT_LRU ∨ a.cur_lru = .WARM_LRU)
    (h : a.pick cfg (s.refcount_incr p) p = some (s', more, r)) :
    ((s.heap p).it_flags.active = true ∧ a.cur_lru = .WARM_LRU ∧ r = none ∧
        ∃ t, ((s.refcount_incr p).set_active p false).do_item_update_nolock p = some t ∧ t.do_item_remove p = some s') ∨
      ((s.heap p).it_flags.active = true ∧ a.cur_lru = .HOT_LRU ∧ r = some (.stopped p (some .WARM_LRU) false) ∧
        ((s.refcount_incr p).set_active p false).do_item_unlink_q p = some s') ∨
      ((s.heap p).it_flags.active = false ∧
        (s.sizes_bytes a.id > a.limit cfg ∨ s.current_time - (s.heap p).time > a.max_age) ∧
        r = some (.stopped p (some .COLD_LRU) false) ∧ (s.refcount_incr p).do_item_unlink_q p = some s') ∨
      (s.heap p).it_flags.active = false ∧
        ¬ (s.sizes_bytes a.id > a.limit cfg ∨ s.current_time - (s.heap p).time > a.max_age) ∧
        r = some (.stopped p none false) ∧ s' = s.refcount_incr p := by
  have hactive : ((s.refcount_incr p).heap p).it_flags.active = (s.heap p).it_flags.active := by simp [Store.refcount_incr]
  have htime : ((s.refcount_incr p).heap p).time = (s.heap p).time := by simp [Store.refcount_incr]
  have hbytes : (s.refcount_incr p).sizes_bytes = s.sizes_bytes := rfl
  have hclock : (s.refcount_incr p).current_time = s.current_time := rfl
  rcases hlru with hlru | hlru
  all_goals
    simp only [pick, hlru, hactive, htime, hbytes, hclock, reduceCtorEq, if_false, if_true] at h
    split_ifs at h with hact hover
  · obtain ⟨t, hunlink, h⟩ := Option.bind_eq_some_iff.mp h
    cases h
    exact .inr (.inl ⟨hact, hlru, rfl, hunlink⟩)
  · obtain ⟨t, hunlink, h⟩ := Option.bind_eq_some_iff.mp h
    cases h
    exact .inr (.inr (.inl ⟨by simpa using hact, hover, rfl, hunlink⟩))
  · cases h
    exact .inr (.inr (.inr ⟨by simpa using hact, hover, rfl, rfl⟩))
  · obtain ⟨t, hupdate, h⟩ := Option.bind_eq_some_iff.mp h
    obtain ⟨t', hremove, h⟩ := Option.bind_eq_some_iff.mp h
    cases h
    exact .inl ⟨hact, hlru, rfl, t, hupdate, hremove⟩
  · obtain ⟨t, hunlink, h⟩ := Option.bind_eq_some_iff.mp h
    cases h
    exact .inr (.inr (.inl ⟨by simpa using hact, hover, rfl, hunlink⟩))
  · cases h
    exact .inr (.inr (.inr ⟨by simpa using hact, hover, rfl, rfl⟩))

theorem stopped_cases {lru : Option Lru} {returned : Bool} {ret : Option Ptr} (hflag : a.flags.return_item = false)
    (h : a.Finished s (.stopped p lru returned) s' ret) :
    ∃ t, s.move_to_lru p lru = some t ∧ t.do_item_remove p = some s' := by
  cases h with
  | removed hmove _ hremove => exact ⟨_, hmove, hremove⟩
  | returned _ hset => simp [hflag] at hset
  | leaked _ hset => simp [hflag] at hset

/-- The rest of the call, after the loop has left an item behind. -/
def GoesOn (cfg : Settings) (a : Pull) (locks : List Bool) (tries : Nat) (search : Option Ptr) (s s' : Store) : Prop :=
  ∃ removed removed' s₃ pulled ret, loop cfg a locks tries search removed s = some (s₃, removed', pulled) ∧
    a.Finished s₃ pulled s' ret

variable {locks locks' : List Bool} {tries' removed : Nat} {ret : Option Ptr}

/-- The item that a pull of HOT or WARM finds is treated by the rule if and only if HOT did not borrow the limit of WARM.
An item that is hit in WARM is left behind, and any other ends the pull. -/
theorem pull_rule_iff (hs : s.Sound) (hlru : a.cur_lru = .HOT_LRU ∨ a.cur_lru = .WARM_LRU)
    (hclass : 0 < a.orig_id ∧ a.orig_id < 64) (hflag : a.flags.return_item = false)
    (h : s.lru_pull_tail cfg a locks = some (s', removed, ret))
    (hfound : a.found cfg locks 5 (s.tails a.id) s = some (s₁, p, locks', tries')) :
    ∃ l s₂, s₁.Consistent l ∧ p ∈ l a.id ∧
      (if a.cur_lru = .WARM_LRU ∧ (s₁.heap p).it_flags.active then
        a.GoesOn cfg locks' tries' (s₁.heap p).prev s₂ s'
      else s₂ = s') ∧
      (Ruled cfg a s₁ s₂ l p ↔ ¬ borrows cfg a s₁ (s₁.heap p)) := by
  obtain ⟨s₃, removed', pulled, hloop, hfinish⟩ := Store.lru_pull_tail_finished (UInt8.ne_of_lt hclass.1).symm h
  obtain ⟨⟨l, hc⟩, hq, ⟨n, rfl⟩, s₂, more, r, removed₁, hpick, hrest⟩ :=
    found_loop hs (fun q ht => queued_tail hs ht) hfound hloop
  have hmem := (queued_iff hc).mp hq
  rcases pick_cases hlru hpick with ⟨hactive, hwarm, rfl, t₁, hupdate, hremove⟩ | ⟨hactive, hhot, rfl, hunlink⟩ |
    ⟨hactive, hover, rfl, hunlink⟩ | ⟨hactive, hover, rfl, rfl⟩
  · have hne : a.cur_lru ≠ .HOT_LRU := by simp [hwarm]
    refine ⟨l, s₂, hc, hmem, ?_, iff_of_true ?_ fun hb => hne hb.1⟩
    · rw [if_pos ⟨hwarm, hactive⟩]
      exact ⟨_, _, _, _, _, hrest, hfinish⟩
    · rw [Ruled, if_pos hactive, if_neg hne]
      exact refreshed hc hq (unmarked_of_active hc.toCounted) rfl hupdate hremove
  · obtain ⟨rfl, rfl⟩ := hrest
    refine ⟨l, s', hc, hmem, by simp [hhot], iff_of_true ?_ fun hb => hb.2.2.1 hactive⟩
    rw [Ruled, if_pos hactive, if_pos hhot]
    obtain ⟨t₂, hmove, hremove⟩ := stopped_cases hflag hfinish
    exact moved hc hq (unmarked_of_active hc.toCounted) hunlink hmove hremove
  · obtain ⟨rfl, rfl⟩ := hrest
    obtain ⟨t₂, hmove, hremove⟩ := stopped_cases hflag hfinish
    refine ⟨l, s', hc, hmem, by simp [hactive], inactive_iff hq hlru hclass.2 hactive (fun _ => ?_) fun hn => absurd hover hn⟩
    exact moved hc hq (unmarked_of_inactive hc.toCounted hactive) hunlink hmove hremove
  · obtain ⟨rfl, rfl⟩ := hrest
    obtain ⟨t₂, hmove, hremove⟩ := stopped_cases hflag hfinish
    cases hmove
    exact ⟨l, s', hc, hmem, by simp [hactive], inactive_iff hq hlru hclass.2 hactive (fun ho => absurd ho hover)
      fun _ => left hc hq hremove⟩

/-! ## A pull of HOT -/

/-- One item is linked in HOT, and its caller is gone. -/
def one : List Event := [.alloc ⟨[97], 0, 0, 3⟩ [⟨some (.item 0), 0, [], [], []⟩], .link 0, .remove 0]

def hot_pull : Pull := ⟨1, .HOT_LRU, 1000, {}, 100⟩

/-- HOT may have nothing. -/
def no_hot : Settings := { Store.settings with hot_lru_pct := 0 }

/-- The pull is made, and finds an item. -/
def pulls (cfg : Settings) (s : Store) : Bool :=
  (s.lru_pull_tail cfg hot_pull [true]).isSome && (hot_pull.found cfg [true] 5 (s.tails 1) s).isSome

theorem one_pulls : (one.foldlM (Store.step Store.settings) Store.empty).any
    (fun s => pulls Store.settings s && pulls no_hot s) = true := by decide +kernel

theorem one_runs : (one.foldlM (Store.step Store.settings) Store.empty).isSome := by
  obtain ⟨s, hs, -⟩ := (Option.any_eq_true ..).mp one_pulls
  rw [hs]
  rfl

theorem pulls_one : pulls Store.settings ((one.foldlM (Store.step Store.settings) Store.empty).get one_runs) = true ∧
    pulls no_hot ((one.foldlM (Store.step Store.settings) Store.empty).get one_runs) = true := by
  obtain ⟨s, hs, hpulls⟩ := (Option.any_eq_true ..).mp one_pulls
  rw [Option.get_of_eq_some one_runs hs]
  exact Bool.and_eq_true_iff.mp hpulls

theorem hot_pulled : (((one.foldlM (Store.step Store.settings) Store.empty).get one_runs).lru_pull_tail Store.settings
    hot_pull [true]).isSome := (Bool.and_eq_true_iff.mp pulls_one.1).1

theorem hot_found : (hot_pull.found Store.settings [true] 5
    (((one.foldlM (Store.step Store.settings) Store.empty).get one_runs).tails 1)
    ((one.foldlM (Store.step Store.settings) Store.empty).get one_runs)).isSome := (Bool.and_eq_true_iff.mp pulls_one.1).2

theorem pull_rule_iff_witness : ∃ s₁ p s' l s₂, s₁.Consistent l ∧ p ∈ l hot_pull.id ∧
    (if hot_pull.cur_lru = .WARM_LRU ∧ (s₁.heap p).it_flags.active then
      ∃ locks' tries', hot_pull.GoesOn Store.settings locks' tries' (s₁.heap p).prev s₂ s'
    else s₂ = s') ∧
    (Ruled Store.settings hot_pull s₁ s₂ l p ↔ ¬ borrows Store.settings hot_pull s₁ (s₁.heap p)) := by
  have hs := Store.run_sound (Run.of_foldlM (Option.some_get one_runs).symm)
  obtain ⟨l, s₂, hc, hmem, hrest, hiff⟩ := pull_rule_iff hs (.inl rfl) ⟨by decide, by decide⟩ rfl
    (Option.some_get hot_pulled).symm (Option.some_get hot_found).symm
  exact ⟨_, _, _, l, s₂, hc, hmem, hrest, hiff⟩

theorem no_hot_pulled : (((one.foldlM (Store.step Store.settings) Store.empty).get one_runs).lru_pull_tail no_hot
    hot_pull [true]).isSome := (Bool.and_eq_true_iff.mp pulls_one.2).1

theorem no_hot_found : (hot_pull.found no_hot [true] 5
    (((one.foldlM (Store.step Store.settings) Store.empty).get one_runs).tails 1)
    ((one.foldlM (Store.step Store.settings) Store.empty).get one_runs)).isSome := (Bool.and_eq_true_iff.mp pulls_one.2).2

/-- An item stays in HOT, although HOT is to have no bytes. -/
theorem stays_in_hot : (Option.get _ no_hot_found).2.1 = .item 0 ∧
    0 < (Option.get _ no_hot_found).1.sizes_bytes 1 ∧ hot_pull.share no_hot = 0 ∧
    ∀ l, ¬ Ruled no_hot hot_pull (Option.get _ no_hot_found).1 (Option.get _ no_hot_pulled).1 l
      (Option.get _ no_hot_found).2.1 := by
  refine ⟨by decide +kernel, by decide +kernel, by decide +kernel, fun l h => ?_⟩
  have hactive : ((Option.get _ no_hot_found).1.heap (Option.get _ no_hot_found).2.1).it_flags.active = false := by
    decide +kernel
  have hdemoted : hot_pull.demoted no_hot (Option.get _ no_hot_found).1
      ((Option.get _ no_hot_found).1.heap (Option.get _ no_hot_found).2.1) = true := by decide +kernel
  have hstays : ((Option.get _ no_hot_pulled).1.heap (Option.get _ no_hot_found).2.1).slabs_clsid = 1 := by decide +kernel
  simp only [Ruled, hactive, hdemoted] at h
  have hclsid := h.get Item.slabs_clsid fun _ => rfl
  rw [hstays] at hclsid
  revert hclsid
  decide +kernel

end Pull

end Memcached.MemoryLru

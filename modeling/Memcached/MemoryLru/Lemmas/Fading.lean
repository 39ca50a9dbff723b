import Memcached.MemoryLru.Lemmas.ItemRules
import Memcached.MemoryLru.Lemmas.ReturnPulls
import Memcached.MemoryLru.ReferenceTheorems

/-!
# What stays in the cache stays as it is

Till an item is linked, touched or allocated, items are only unlinked and freed: the key, the length, the CAS and the
expiration of an item that is in use do not change.
-/

namespace Memcached.MemoryLru

/-- An item but for its place, its clocks and hit markers, its references, and whether it is linked. -/
def Item.kind (i : Item) : Item := { i.shape with it_flags := { i.shape.it_flags with linked := false } }

/-- `j` is what became of `i`. -/
structure Item.Ages (i j : Item) : Prop where
  kind : j.kind = i.kind
  cas : j.cas = i.cas
  exptime : j.exptime = i.exptime
  linked : j.it_flags.linked → i.it_flags.linked

namespace Item

variable {i j k : Item}

theorem kind_congr {β : Type} (g : Item → β) (hg : ∀ i, g i.kind = g i) (h : j.kind = i.kind) : g j = g i := by
  rw [← hg j, h, hg i]

theorem kind_of_shape (h : j.shape = i.shape) : j.kind = i.kind := by rw [kind, kind, h]

theorem Ages.refl : Ages i i := ⟨rfl, rfl, rfl, id⟩

theorem Ages.trans (h : Ages i j) (h' : Ages j k) : Ages i k :=
  ⟨h'.kind.trans h.kind, h'.cas.trans h.cas, h'.exptime.trans h.exptime, fun hl => h.linked (h'.linked hl)⟩

theorem Ages.of_shape (hshape : j.shape = i.shape) (hcas : j.cas = i.cas) (hexptime : j.exptime = i.exptime) : Ages i j :=
  ⟨kind_of_shape hshape, hcas, hexptime, fun hl => (shape_congr (·.it_flags.linked) (fun _ => rfl) hshape) ▸ hl⟩

theorem Ages.of_core (h : j.core = i.core) : Ages i j :=
  .of_shape (shape_of_core h) (core_congr Item.cas (fun _ => rfl) h) (core_congr Item.exptime (fun _ => rfl) h)

theorem Ages.key (h : Ages i j) : j.key = i.key := kind_congr Item.key (fun _ => rfl) h.kind

theorem Ages.nbytes (h : Ages i j) : j.nbytes = i.nbytes := kind_congr Item.nbytes (fun _ => rfl) h.kind

theorem Ages.nsuffix (h : Ages i j) : j.nsuffix = i.nsuffix := kind_congr Item.nsuffix (fun _ => rfl) h.kind

theorem Ages.slabbed (h : Ages i j) : j.it_flags.slabbed = i.it_flags.slabbed :=
  kind_congr (·.it_flags.slabbed) (fun _ => rfl) h.kind

theorem Ages.chunked (h : Ages i j) : j.it_flags.chunked = i.it_flags.chunked :=
  kind_congr (·.it_flags.chunked) (fun _ => rfl) h.kind

theorem Ages.get_cas (h : Ages i j) : j.get_cas = i.get_cas := by
  have hflag : j.it_flags.cas = i.it_flags.cas := kind_congr (·.it_flags.cas) (fun _ => rfl) h.kind
  simp only [Item.get_cas, hflag, h.cas]

end Item

namespace Store

/-- What is in use in `s'` was so in `s`. -/
structure Fades (s s' : Store) : Prop where
  items : ∀ n, ¬ (s'.heap (.item n)).it_flags.slabbed →
    ¬ (s.heap (.item n)).it_flags.slabbed ∧ (s.heap (.item n)).Ages (s'.heap (.item n))
  cas_id : s'.cas_id = s.cas_id

section
variable {cfg : Settings} {s s' s'' : Store} {p : Ptr} {n : Nat}

theorem Fades.refl : Fades s s := ⟨fun _ h => ⟨h, .refl⟩, rfl⟩

theorem Fades.trans (h : Fades s s') (h' : Fades s' s'') : Fades s s'' := by
  refine ⟨fun n hn => ?_, h'.cas_id.trans h.cas_id⟩
  obtain ⟨hlive', hages'⟩ := h'.items n hn
  obtain ⟨hlive, hages⟩ := h.items n hlive'
  exact ⟨hlive, hages.trans hages'⟩

theorem Fades.of_ages (h : ∀ n, (s.heap (.item n)).Ages (s'.heap (.item n))) (hcas : s'.cas_id = s.cas_id) : Fades s s' :=
  ⟨fun n hn => ⟨by rw [← (h n).slabbed]; exact hn, h n⟩, hcas⟩

theorem Fades.of_heap (hheap : s'.heap = s.heap) (hcas : s'.cas_id = s.cas_id) : Fades s s' :=
  .of_ages (fun n => by rw [hheap]; exact .refl) hcas

theorem Fades.core (h : SameCore s s') : Fades s s' := .of_ages (fun n => .of_core (h.core _)) (by rw [h.rest])

theorem Fades.kept (h : Kept s s' p) : Fades s s' := by
  refine .of_ages (fun n => ?_) (by rw [h.rest])
  by_cases hn : .item n = p
  · rw [hn]
    exact .of_shape h.shape h.cas h.exptime
  · exact .of_core (h.core _ hn)

theorem Fades.hold : Fades s (s.hold p) := .of_heap rfl rfl

/-! ## The functions -/

theorem Fades.do_item_remove (h : s.do_item_remove p = some s') : Fades s s' := by
  refine ⟨fun n hn => ?_, do_item_remove_cas_id h⟩
  obtain ⟨hused, ⟨-, -, rfl⟩ | ⟨-, -, rfl⟩⟩ := do_item_remove_cases h
  · exact (Fades.kept refcount_decr_kept).items n hn
  · by_cases hp : .item n = p
    · rw [hp] at hn
      simp [Store.freed] at hn
    · simp only [Store.freed, modify_of_ne hp] at hn ⊢
      exact ⟨hn, .refl⟩

theorem Fades.do_item_unlink (h : s.do_item_unlink p = some s') : Fades s s' := by
  obtain ⟨-, rfl⟩ | ⟨-, s₁, hunlink, hremove⟩ := do_item_unlink_cases h
  · exact .refl
  have hunlinking : Fades s (s.unlinking p) := by
    refine .of_ages (fun n => ?_) rfl
    by_cases hp : .item n = p
    · rw [hp]
      simp only [unlinking, Function.update_self]
      exact ⟨rfl, rfl, rfl, fun hl => by cases hl⟩
    · rw [unlinking_kept hp]
      exact .refl
  exact hunlinking.trans ((Fades.core (do_item_unlink_q_core hunlink)).trans (.do_item_remove hremove))

theorem Fades.do_item_update (h : s.do_item_update cfg p = some s') : Fades s s' := .kept (do_item_update_kept h).1

theorem Fades.do_item_get {key : Key} {do_update room : Bool} {r : Option Ptr}
    (h : s.do_item_get cfg key do_update room = some (s', r)) : Fades s s' := by
  obtain ⟨-, rfl, -⟩ | ⟨it, -, ⟨-, -, s₁, hunlink, hremove⟩ | ⟨-, -, s₁, rfl, hmark⟩⟩ := do_item_get_cases h
  · exact .refl
  · exact (Fades.kept refcount_incr_kept).trans ((Fades.do_item_unlink hunlink).trans (.do_item_remove hremove))
  · refine Fades.trans ?_ .hold
    have hincr : Fades s (s.refcount_incr it) := .kept refcount_incr_kept
    rcases hmark with ⟨-, rfl⟩ | ⟨-, hmark⟩
    · exact hincr
    refine hincr.trans ?_
    obtain ⟨fetched, active, ⟨-, rfl | hu⟩ | ⟨-, rfl⟩⟩ := mark_fetched_cases hmark
    · exact .kept mark_kept
    · exact (Fades.kept mark_kept).trans (.do_item_update hu)
    · have hmarked : Fades (s.refcount_incr it) ((s.refcount_incr it).mark it fetched active) := .kept mark_kept
      exact hmarked.trans ((Fades.kept refcount_incr_kept).trans (.of_heap rfl rfl))

theorem Fades.lru_maintainer_bump (h : s.lru_maintainer_bump cfg p = some s') : Fades s s' := by
  obtain ⟨-, s₁, hupdate, hremove⟩ := lru_maintainer_bump_cases h
  refine Fades.trans (.of_heap ?_ ?_) ((Fades.do_item_update hupdate).trans (.do_item_remove hremove)) <;> rfl

theorem Fades.release (h : s.release p = some s') : Fades s s' := by
  refine Fades.trans (.of_heap ?_ ?_) (.do_item_remove (release_cases h).2) <;> rfl

/-! ## Pulls -/

theorem Fades.rounded {a : Pull} {r : Option Pulled} (h : a.Rounded cfg s p s' r) : Fades s s' := by
  have hincr : Fades s (s.refcount_incr p) := .kept refcount_incr_kept
  cases h with
  | repaired _ hunlink => exact hincr.trans ((Fades.kept (kept_modify rfl rfl rfl (.inl rfl))).trans (.do_item_unlink hunlink))
  | reclaimed hunlink hremove => exact hincr.trans ((Fades.do_item_unlink hunlink).trans (.do_item_remove hremove))
  | warmed _ hupdate hremove =>
      exact hincr.trans ((Fades.kept set_active_kept).trans
        ((Fades.kept (Pull.do_item_update_nolock_kept hupdate).1).trans (.do_item_remove hremove)))
  | moved _ hmark hunlink =>
      have hcore := Fades.core (do_item_unlink_q_core hunlink)
      rcases hmark with rfl | rfl
      · exact hincr.trans hcore
      · exact hincr.trans ((Fades.kept set_active_kept).trans hcore)
  | kept _ => exact hincr
  | evicted _ hunlink => exact hincr.trans (.do_item_unlink hunlink)
  | returned _ => exact hincr

theorem Fades.finished {a : Pull} {pulled : Pulled} {ret : Option Ptr} (h : a.Finished s pulled s' ret) : Fades s s' := by
  have hmoved {lru : Option Lru} {it : Ptr} {s₁ : Store} (hmove : s.move_to_lru it lru = some s₁) : Fades s s₁ := by
    cases lru with
    | none => cases hmove; exact .refl
    | some lru => exact (Fades.kept move_lru_kept).trans (.core (do_item_link_q_core hmove))
  cases h with
  | blocked => exact .refl
  | nothing => exact .refl
  | removed hmove _ hremove => exact (hmoved hmove).trans (.do_item_remove hremove)
  | returned hmove _ => exact (hmoved hmove).trans .hold
  | leaked hmove _ => exact hmoved hmove

theorem Fades.lru_pull_tail {a : Pull} {locks : List Bool} {removed : Nat} {ret : Option Ptr} (hs : s.Sound)
    (h : s.lru_pull_tail cfg a locks = some (s', removed, ret)) : Fades s s' := by
  obtain ⟨rfl, -⟩ | ⟨s₁, removed', pulled, hloop, hfinish⟩ := lru_pull_tail_cases h
  · exact .refl
  have hrounds : Fades s s₁ := Pull.loop_rule (I := fun t => t.Sound ∧ Fades s t) (R := fun t _ => Fades s t)
    (fun _ h => h.1) (fun _ h => h.2) (fun _ h => h.2)
    (fun t n t' r ht hq hr => ⟨fun he => ⟨(ht.1.rounded hq hr).1 he, ht.2.trans (.rounded hr)⟩,
      fun _ _ => ht.2.trans (.rounded hr)⟩)
    ⟨hs, .refl⟩ (fun p ht => Pull.queued_tail hs ht) hloop
  exact hrounds.trans (.finished hfinish)

theorem Fades.crawled (h : Crawled s s') : Fades s s' := .of_ages (fun n => .of_core (h.core n)) (by rw [h.rest])

theorem Fades.item_crawler_thread {i : UInt8} {mod : CrawlerMod} {client lock : Bool} (hs : s.Sound)
    (h : s.item_crawler_thread i mod client lock = some s') : Fades s s' := by
  obtain ⟨s₁, -, hcrawled, rfl | ⟨n, -, hcrawl⟩⟩ := item_crawler_thread_cases hs h
  · exact .crawled hcrawled
  refine (Fades.crawled hcrawled).trans ?_
  obtain rfl | rfl | ⟨s₂, hunlink, hremove⟩ := crawl_cases hcrawl
  · exact .refl
  · exact (Fades.kept refcount_incr_kept).trans (.kept refcount_decr_kept)
  · exact (Fades.kept refcount_incr_kept).trans ((Fades.do_item_unlink hunlink).trans (.do_item_remove hremove))

end

end Store

/-! ## Events -/

/-- Events after which no item is new, linked anew or touched. -/
def Event.quiet : Event → Bool
  | .alloc _ _ | .link _ | .replace _ _ | .touch _ _ _ => false
  | _ => true

namespace Store

section
variable {cfg : Settings} {s s' s'' : Store} {p q : Ptr} {key : Key}

theorem Fades.step {e : Event} (hs : s.Sound) (hquiet : e.quiet) (h : Step cfg s e s') : Fades s s' := by
  cases e with
  | alloc | link | replace | touch => cases hquiet
  | unlink n => exact .do_item_unlink h
  | unlink_nolock n => exact .do_item_unlink h
  | remove n => exact .release h
  | update n => exact .do_item_update h
  | update_nolock n => exact .kept (Pull.do_item_update_nolock_kept h).1
  | get key do_update room =>
      obtain ⟨⟨s₁, r⟩, hget, rfl⟩ := Option.map_eq_some_iff.mp h
      exact .do_item_get hget
  | pull a locks =>
      obtain ⟨⟨s₁, removed, r⟩, hpull, rfl⟩ := Option.map_eq_some_iff.mp h
      exact .lru_pull_tail hs hpull
  | bump n => exact .lru_maintainer_bump h
  | crawler_start sid remaining => exact .crawled (hs.do_lru_crawler_start h).2
  | crawler i mod client lock => exact .item_crawler_thread hs h
  | tick now =>
      simp only [Step, Store.step] at h
      split at h
      · cases h; exact .of_heap rfl rfl
      · cases h
  | flush oldest_live oldest_cas => cases h; exact .of_heap rfl rfl

/-! ## All items but one -/

/-- What is in use in `s'` was so in `s`, `p` apart. -/
def FadesBut (p : Ptr) (s s' : Store) : Prop :=
  ∀ n, Ptr.item n ≠ p → ¬ (s'.heap (.item n)).it_flags.slabbed →
    ¬ (s.heap (.item n)).it_flags.slabbed ∧ (s.heap (.item n)).Ages (s'.heap (.item n))

theorem Fades.but (h : Fades s s') : FadesBut p s s' := fun n _ => h.items n

theorem FadesBut.trans (h : FadesBut p s s') (h' : FadesBut p s' s'') : FadesBut p s s'' := by
  intro n hn hlive''
  obtain ⟨hlive', hages'⟩ := h' n hn hlive''
  obtain ⟨hlive, hages⟩ := h n hn hlive'
  exact ⟨hlive, hages.trans hages'⟩

theorem FadesBut.of_core (h : ∀ n, Ptr.item n ≠ p → (s'.heap (.item n)).core = (s.heap (.item n)).core) : FadesBut p s s' := by
  intro n hn hlive
  have hages := Item.Ages.of_core (h n hn)
  exact ⟨by rw [← hages.slabbed]; exact hlive, hages⟩

theorem FadesBut.do_item_link (h : s.do_item_link cfg p = some s') : FadesBut p s s' := by
  obtain ⟨-, -, cas, cas_id, s₁, hlink, rfl⟩ := do_item_link_cases h
  refine .of_core fun n hn => ?_
  rw [refcount_incr_kept.core _ hn, (do_item_link_q_core hlink).core, linking_kept hn]

theorem FadesBut.do_item_replace (h : s.do_item_replace cfg q p = some s') : FadesBut p s s' := by
  simp only [Store.do_item_replace] at h
  split at h
  · cases h
  obtain ⟨s₁, hunlink, hlink⟩ := Option.bind_eq_some_iff.mp h
  exact (Fades.do_item_unlink hunlink).but.trans (.do_item_link hlink)

theorem Sound.entry (hs : s.Sound) (h : s.table key = some q) :
    ∃ n, q = .item n ∧ (s.heap q).it_flags.linked ∧ (s.heap q).key = key ∧ ¬ (s.heap q).it_flags.slabbed := by
  obtain ⟨n, rfl⟩ := hs.is_item h
  obtain ⟨l, hc⟩ := hs
  obtain ⟨-, hlinked, hkey⟩ := ((hc.placed _).table key).mp h
  exact ⟨n, rfl, hlinked, hkey, (hc.placed (.item n)).kind.2 hlinked⟩

theorem Sound.of_entry {n : Nat} (hs : s.Sound) (h : (s.heap (.item n)).it_flags.linked) :
    s.table (s.heap (.item n)).key = some (.item n) := by
  obtain ⟨l, hc⟩ := hs
  exact ((hc.placed (.item n)).table _).mpr ⟨rfl, h, rfl⟩

/-- An entry of the hash table that is there was there before. -/
theorem FadesBut.table (h : FadesBut p s s') (hs : s.Sound) (hs' : s'.Sound) (hq : q ≠ p) (ht : s'.table key = some q) :
    s.table key = some q ∧ (s.heap q).Ages (s'.heap q) := by
  obtain ⟨n, rfl, hlinked, hkey, hlive⟩ := hs'.entry ht
  obtain ⟨-, hages⟩ := h n hq hlive
  have ht' := hs.of_entry (hages.linked hlinked)
  rw [← hages.key, hkey] at ht'
  exact ⟨ht', hages⟩

end

end Store

/-! ## Pulls for memory -/

namespace Pull

open Store

section
variable {cfg : Settings} {a : Pull} {s s' : Store} {p : Ptr}

theorem Rounded.held {r : Option Pulled} (h : a.Rounded cfg s p s' r) : s'.held = s.held := by
  cases h with
  | repaired _ hunlink => exact (do_item_unlink_steady hunlink).held
  | reclaimed hunlink hremove => exact (do_item_remove_steady hremove).held.trans (do_item_unlink_steady hunlink).held
  | warmed _ hupdate hremove =>
      refine (do_item_remove_steady hremove).held.trans ?_
      rw [(do_item_update_nolock_kept hupdate).1.rest]
      rfl
  | moved _ hmark hunlink =>
      rw [(do_item_unlink_q_core hunlink).rest]
      rcases hmark with rfl | rfl <;> rfl
  | kept _ => rfl
  | evicted _ hunlink => exact (do_item_unlink_steady hunlink).held
  | returned _ => rfl

theorem Finished.held {pulled : Pulled} {ret : Option Ptr} (hflag : a.flags.return_item = false)
    (h : a.Finished s pulled s' ret) : s'.held = s.held := by
  have hmoved {lru : Option Lru} {it : Ptr} {s₁ : Store} (hmove : s.move_to_lru it lru = some s₁) : s₁.held = s.held := by
    cases lru with
    | none => cases hmove; rfl
    | some lru =>
        have hcore := do_item_link_q_core hmove
        rw [hcore.rest]
        rfl
  cases h with
  | blocked => rfl
  | nothing => rfl
  | removed hmove _ hremove => exact (do_item_remove_steady hremove).held.trans (hmoved hmove)
  | returned _ hreturn => rw [hflag] at hreturn; cases hreturn
  | leaked _ hreturn => rw [hflag] at hreturn; cases hreturn

end

end Pull

namespace Store

section
variable {cfg : Settings} {s s' s'' : Store}

theorem lru_pull_tail_held {a : Pull} {locks : List Bool} {removed : Nat} {ret : Option Ptr} (hs : s.Sound)
    (hflag : a.flags.return_item = false) (h : s.lru_pull_tail cfg a locks = some (s', removed, ret)) :
    s'.held = s.held := by
  obtain ⟨rfl, -⟩ | ⟨s₁, removed', pulled, hloop, hfinish⟩ := lru_pull_tail_cases h
  · rfl
  refine (Pull.Finished.held hflag hfinish).trans ?_
  exact Pull.loop_rule (I := fun t => t.Sound ∧ t.held = s.held) (R := fun t _ => t.held = s.held)
    (fun _ h => h.1) (fun _ h => h.2) (fun _ h => h.2)
    (fun t n t' r ht hq hr => ⟨fun he => ⟨(ht.1.rounded hq hr).1 he, hr.held.trans ht.2⟩, fun _ _ => hr.held.trans ht.2⟩)
    ⟨hs, rfl⟩ (fun p ht => Pull.queued_tail hs ht) hloop

/-- What is left when pulls have made room. -/
structure Thinned (cfg : Settings) (s s' : Store) : Prop extends Pulling s s' where
  fades : Fades s s'
  held : s'.held = s.held
  keeps : ∀ I, ItemRule cfg I → Keeps I s s'

theorem Thinned.refl (hs : s.Sound) (href : Referenced s 0 0) : Thinned cfg s s :=
  ⟨⟨hs, href, .refl⟩, .refl, rfl, fun _ _ => .refl⟩

theorem Thinned.trans (h : Thinned cfg s s') (h' : Thinned cfg s' s'') : Thinned cfg s s'' :=
  ⟨⟨h'.sound, h'.referenced, h.fewer.trans h'.fewer⟩, h.fades.trans h'.fades, h'.held.trans h.held,
    fun I hI => (h.keeps I hI).trans (h'.keeps I hI)⟩

theorem Thinned.lru_pull_tail {a : Pull} {locks : List Bool} {removed : Nat} {ret : Option Ptr} (h : Thinned cfg s s')
    (hcfg : cfg.tail_repair_time = 0) (hroom : ∀ m, s.refs m + 1 < 2 ^ 16) (hflag : a.flags.return_item = false)
    (hp : s'.lru_pull_tail cfg a locks = some (s'', removed, ret)) : Thinned cfg s s'' := by
  have hlow (m) : s'.refs m + 1 < 2 ^ 16 := by
    have hm := hroom m
    have hless := h.fewer m
    omega
  obtain ⟨href, hfewer⟩ := h.referenced.lru_pull_tail h.sound hcfg hlow (by rw [hflag]; simp) hp
  exact h.trans ⟨⟨h.sound.lru_pull_tail hp, href, hfewer hflag⟩, .lru_pull_tail h.sound hp,
    lru_pull_tail_held h.sound hflag hp, fun _ hI => hI.lru_pull_tail h.sound hp⟩

/-- An item that a caller holds is in use after the pulls, as it was before. -/
theorem Thinned.holds {n : Nat} (h : Thinned cfg s s') (hheld : 0 < s.held (.item n)) :
    ¬ (s'.heap (.item n)).it_flags.slabbed ∧ (s.heap (.item n)).Ages (s'.heap (.item n)) := by
  have hlive : ¬ (s'.heap (.item n)).it_flags.slabbed := by
    rw [(h.referenced.of_zero (m := n)).slabbed_self, Nat.add_zero]
    have hpos : 0 < s'.held (.item n) := by rw [h.held]; exact hheld
    simp only [refs]
    omega
  exact ⟨hlive, (h.fades.items n hlive).2⟩

end

end Store

end Memcached.MemoryLru

import Memcached.MemoryLru.Lemmas.Crawls

/-!
# Invariants of single items

What holds of an item whatever its links, its LRU, its clocks and its references, and is kept when it is linked, unlinked,
freed and allocated, holds of all items in every run.
-/

namespace Memcached.MemoryLru

namespace Store

structure ItemRule (cfg : Settings) (I : Item → Prop) : Prop where
  shape : ∀ {i j : Item}, j.shape = i.shape → I i → I j
  linked : ∀ {i : Item} (linked : Bool), I i → I { i with it_flags := { i.it_flags with linked := linked } }
  freed : ∀ {i : Item}, I i → I { i with it_flags := { Flags.zero with slabbed := true } }
  made : ∀ {i : Item} (new : NewItem) (large : Bool) (clsid : UInt8), i.it_flags.slabbed → I i →
    I (made cfg new large clsid i)

/-- `I` is kept for every item. -/
def Keeps (I : Item → Prop) (s s' : Store) : Prop :=
  (∀ n, I (s.heap (.item n))) → ∀ n, I (s'.heap (.item n))

section
variable {cfg : Settings} {I : Item → Prop} {s s' s'' : Store} {p : Ptr} {n : Nat}

theorem Keeps.refl : Keeps I s s := fun h => h

theorem Keeps.trans (h : Keeps I s s') (h' : Keeps I s' s'') : Keeps I s s'' := fun hs => h' (h hs)

theorem Keeps.of_heap (h : s'.heap = s.heap) : Keeps I s s' := fun hs n => by rw [h]; exact hs n

variable (hI : ItemRule cfg I)
include hI

theorem ItemRule.one (hp : I (s.heap p) → I (s'.heap p)) (hother : ∀ q, q ≠ p → (s'.heap q).core = (s.heap q).core) :
    Keeps I s s' := by
  intro hs n
  by_cases hn : .item n = p
  · subst hn; exact hp (hs n)
  · exact hI.shape (Item.shape_of_core (hother _ hn)) (hs n)

theorem ItemRule.kept (h : Kept s s' p) : Keeps I s s' := hI.one (hI.shape h.shape) h.core

theorem ItemRule.core (h : SameCore s s') : Keeps I s s' :=
  fun hs n => hI.shape (Item.shape_of_core (h.core _)) (hs n)

theorem ItemRule.do_item_remove (h : s.do_item_remove p = some s') : Keeps I s s' := by
  obtain ⟨-, ⟨-, -, rfl⟩ | ⟨-, -, rfl⟩⟩ := do_item_remove_cases h
  · exact hI.kept refcount_decr_kept
  · refine hI.one (p := p) (fun hp => ?_) fun q hq => by simp [Store.freed, modify_of_ne hq]
    exact hI.shape (by simp [Store.freed, Store.modify, Item.shape]) (hI.freed hp)

theorem ItemRule.do_item_unlink (h : s.do_item_unlink p = some s') : Keeps I s s' := by
  obtain ⟨-, rfl⟩ | ⟨-, s₁, hunlink, hremove⟩ := do_item_unlink_cases h
  · exact .refl
  · have hunlinking : Keeps I s (s.unlinking p) :=
      hI.one (p := p) (fun hp => by simpa [unlinking] using hI.linked false hp) fun q hq => by rw [unlinking_kept hq]
    exact hunlinking.trans ((hI.core (do_item_unlink_q_core hunlink)).trans (hI.do_item_remove hremove))

theorem ItemRule.do_item_link (h : s.do_item_link cfg p = some s') : Keeps I s s' := by
  obtain ⟨-, -, cas, cas_id, s₁, hlink, rfl⟩ := do_item_link_cases h
  have hlinking : Keeps I s (s.linking p cas cas_id) :=
    hI.one (p := p) (fun hp => hI.shape (by simp [linking, Item.shape]) (hI.linked true hp))
      fun q hq => by rw [linking_kept hq]
  exact hlinking.trans ((hI.core (do_item_link_q_core hlink)).trans (hI.kept refcount_incr_kept))

theorem ItemRule.do_item_replace {new_it : Ptr} (h : s.do_item_replace cfg p new_it = some s') : Keeps I s s' := by
  simp only [Store.do_item_replace] at h
  split at h
  · cases h
  obtain ⟨s₁, hunlink, hlink⟩ := Option.bind_eq_some_iff.mp h
  exact (hI.do_item_unlink hunlink).trans (hI.do_item_link hlink)

theorem ItemRule.do_item_update (h : s.do_item_update cfg p = some s') : Keeps I s s' :=
  hI.kept (do_item_update_kept h).1

theorem ItemRule.do_item_update_nolock (h : s.do_item_update_nolock p = some s') : Keeps I s s' :=
  hI.kept (Pull.do_item_update_nolock_kept h).1

theorem ItemRule.do_item_get {key : Key} {do_update room : Bool} {r : Option Ptr}
    (h : s.do_item_get cfg key do_update room = some (s', r)) : Keeps I s s' := by
  obtain ⟨-, rfl, -⟩ | ⟨it, -, ⟨-, -, s₁, hunlink, hremove⟩ | ⟨-, -, s₁, rfl, hmark⟩⟩ := do_item_get_cases h
  · exact .refl
  · exact (hI.kept refcount_incr_kept).trans ((hI.do_item_unlink hunlink).trans (hI.do_item_remove hremove))
  · have hhold : Keeps I s₁ (s₁.hold it) := .of_heap rfl
    refine Keeps.trans ?_ hhold
    have hincr : Keeps I s (s.refcount_incr it) := hI.kept refcount_incr_kept
    rcases hmark with ⟨-, rfl⟩ | ⟨-, hmark⟩
    · exact hincr
    refine hincr.trans ?_
    obtain ⟨fetched, active, ⟨-, rfl | hu⟩ | ⟨-, rfl⟩⟩ := mark_fetched_cases hmark
    · exact hI.kept mark_kept
    · exact (hI.kept mark_kept).trans (hI.do_item_update hu)
    · have hmarked : Keeps I (s.refcount_incr it) ((s.refcount_incr it).mark it fetched active) := hI.kept mark_kept
      exact hmarked.trans ((hI.kept refcount_incr_kept).trans (.of_heap rfl))

theorem ItemRule.do_item_touch {key : Key} {exptime : UInt32} {room : Bool} {r : Option Ptr}
    (h : s.do_item_touch cfg key exptime room = some (s', r)) : Keeps I s s' := by
  obtain ⟨s₁, hget, rfl⟩ := do_item_touch_cases h
  cases r with
  | none => exact hI.do_item_get hget
  | some it =>
      refine (hI.do_item_get hget).trans (hI.one (p := it) (fun hp => hI.shape ?_ hp) fun q hq => ?_)
      · simp [modify?, Item.shape]
      · rw [modify?, modify_of_ne hq]

theorem ItemRule.lru_maintainer_bump (h : s.lru_maintainer_bump cfg p = some s') : Keeps I s s' := by
  obtain ⟨-, s₁, hupdate, hremove⟩ := lru_maintainer_bump_cases h
  refine (Keeps.of_heap ?_).trans ((hI.do_item_update hupdate).trans (hI.do_item_remove hremove))
  rfl

theorem ItemRule.release (h : s.release p = some s') : Keeps I s s' := by
  refine (Keeps.of_heap ?_).trans (hI.do_item_remove (release_cases h).2)
  rfl

/-! ## Pulls -/

theorem ItemRule.rounded {a : Pull} {r : Option Pulled} (h : a.Rounded cfg s p s' r) : Keeps I s s' := by
  have hincr : Keeps I s (s.refcount_incr p) := hI.kept refcount_incr_kept
  cases h with
  | repaired _ hunlink =>
      exact hincr.trans ((hI.kept (kept_modify rfl rfl rfl (.inl rfl))).trans (hI.do_item_unlink hunlink))
  | reclaimed hunlink hremove => exact hincr.trans ((hI.do_item_unlink hunlink).trans (hI.do_item_remove hremove))
  | warmed _ hupdate hremove =>
      exact hincr.trans ((hI.kept set_active_kept).trans
        ((hI.do_item_update_nolock hupdate).trans (hI.do_item_remove hremove)))
  | moved _ hmark hunlink =>
      have hcore := hI.core (do_item_unlink_q_core hunlink)
      rcases hmark with rfl | rfl
      · exact hincr.trans hcore
      · exact hincr.trans ((hI.kept set_active_kept).trans hcore)
  | kept _ => exact hincr
  | evicted _ hunlink => exact hincr.trans (hI.do_item_unlink hunlink)
  | returned _ => exact hincr

theorem ItemRule.move_to_lru {lru : Option Lru} (h : s.move_to_lru p lru = some s') : Keeps I s s' := by
  cases lru with
  | none => cases h; exact .refl
  | some lru => exact (hI.kept move_lru_kept).trans (hI.core (do_item_link_q_core h))

theorem ItemRule.finished {a : Pull} {pulled : Pulled} {ret : Option Ptr} (h : a.Finished s pulled s' ret) :
    Keeps I s s' := by
  cases h with
  | blocked => exact .refl
  | nothing => exact .refl
  | removed hmove _ hremove => exact (hI.move_to_lru hmove).trans (hI.do_item_remove hremove)
  | returned hmove _ => exact (hI.move_to_lru hmove).trans (.of_heap rfl)
  | leaked hmove _ => exact hI.move_to_lru hmove

theorem ItemRule.lru_pull_tail {a : Pull} {locks : List Bool} {removed : Nat} {ret : Option Ptr} (hs : s.Sound)
    (h : s.lru_pull_tail cfg a locks = some (s', removed, ret)) : Keeps I s s' := by
  obtain ⟨rfl, -⟩ | ⟨s₁, removed', pulled, hloop, hfinish⟩ := lru_pull_tail_cases h
  · exact .refl
  have hrounds : Keeps I s s₁ := Pull.loop_rule (I := fun t => t.Sound ∧ Keeps I s t) (R := fun t _ => Keeps I s t)
    (fun _ h => h.1) (fun _ h => h.2) (fun _ h => h.2)
    (fun t n t' r ht hq hr => ⟨fun he => ⟨(ht.1.rounded hq hr).1 he, ht.2.trans (hI.rounded hr)⟩,
      fun _ _ => ht.2.trans (hI.rounded hr)⟩)
    ⟨hs, .refl⟩ (fun p ht => Pull.queued_tail hs ht) hloop
  exact hrounds.trans (hI.finished hfinish)

theorem ItemRule.do_item_alloc {new : NewItem} {rounds : List Round} {r : Option Ptr} (hs : s.Sound)
    (h : s.do_item_alloc cfg new rounds = some (s', r)) : Keeps I s s' := by
  obtain ⟨-, -, hkeeps⟩ | ⟨s₀, n, large, clsid, ⟨-, hkeeps⟩, -, hslabbed, -, rfl⟩ :=
    do_item_alloc_made (I := fun t => t.Sound ∧ Keeps I s t)
      (fun ht _ hp => ⟨ht.1.lru_pull_tail hp, ht.2.trans (hI.lru_pull_tail ht.1 hp)⟩) ⟨hs, .refl⟩ h
  · exact hkeeps
  · refine hkeeps.trans (hI.one (p := .item n) (fun hp => ?_) fun q hq => by simp [hq])
    simpa using hI.made new large clsid hslabbed hp

/-! ## Runs -/

theorem ItemRule.crawled (h : Crawled s s') : Keeps I s s' :=
  fun hs n => hI.shape (Item.shape_of_core (h.core n)) (hs n)

theorem ItemRule.item_crawler_thread {i : UInt8} {mod : CrawlerMod} {client lock : Bool} (hs : s.Sound)
    (h : s.item_crawler_thread i mod client lock = some s') : Keeps I s s' := by
  obtain ⟨s₁, -, hcrawled, rfl | ⟨n, -, hcrawl⟩⟩ := item_crawler_thread_cases hs h
  · exact hI.crawled hcrawled
  refine (hI.crawled hcrawled).trans ?_
  obtain rfl | rfl | ⟨s₂, hunlink, hremove⟩ := crawl_cases hcrawl
  · exact .refl
  · exact (hI.kept refcount_incr_kept).trans (hI.kept refcount_decr_kept)
  · exact (hI.kept refcount_incr_kept).trans ((hI.do_item_unlink hunlink).trans (hI.do_item_remove hremove))

theorem ItemRule.step {e : Event} (hs : s.Sound) (h : Step cfg s e s') : Keeps I s s' := by
  cases e with
  | alloc new rounds =>
      obtain ⟨⟨s₁, r⟩, ha, rfl⟩ := Option.map_eq_some_iff.mp h
      exact hI.do_item_alloc hs ha
  | link n =>
      simp only [Step, Store.step] at h
      split at h
      · exact hI.do_item_link h
      · cases h
  | unlink n => exact hI.do_item_unlink h
  | unlink_nolock n => exact hI.do_item_unlink h
  | remove n => exact hI.release h
  | replace n m =>
      simp only [Step, Store.step] at h
      split at h
      · exact hI.do_item_replace h
      · cases h
  | update n => exact hI.do_item_update h
  | update_nolock n => exact hI.do_item_update_nolock h
  | get key do_update room =>
      obtain ⟨⟨s₁, r⟩, hg, rfl⟩ := Option.map_eq_some_iff.mp h
      exact hI.do_item_get hg
  | touch key exptime room =>
      obtain ⟨⟨s₁, r⟩, ht, rfl⟩ := Option.map_eq_some_iff.mp h
      exact hI.do_item_touch ht
  | pull a locks =>
      obtain ⟨⟨s₁, removed, r⟩, hp, rfl⟩ := Option.map_eq_some_iff.mp h
      exact hI.lru_pull_tail hs hp
  | bump n => exact hI.lru_maintainer_bump h
  | crawler_start sid remaining => exact hI.crawled (hs.do_lru_crawler_start h).2
  | crawler i mod client lock => exact hI.item_crawler_thread hs h
  | tick now =>
      simp only [Step, Store.step] at h
      split at h
      · cases h; exact .refl
      · cases h
  | flush oldest_live oldest_cas => cases h; exact .refl

end

/-- The items that are in use carry a CAS if `use_cas` is set, and the free ones do not. -/
def Tagged (cfg : Settings) (i : Item) : Prop := i.it_flags.cas = (cfg.use_cas && !i.it_flags.slabbed)

theorem tagged_rule (cfg : Settings) : ItemRule cfg (Tagged cfg) where
  shape hshape hi := by
    have hcas := Item.shape_congr (·.it_flags.cas) (fun _ => rfl) hshape
    have hslabbed := Item.shape_congr (·.it_flags.slabbed) (fun _ => rfl) hshape
    rw [Tagged, hcas, hslabbed]
    exact hi
  linked _ hi := hi
  freed _ := by simp [Tagged, Flags.zero]
  made new large clsid hslabbed hi := by
    rw [Tagged, hslabbed] at hi
    simp [Tagged, made, hi]

theorem tagged_empty {cfg : Settings} {n : Nat} : Tagged cfg (empty.heap (.item n)) := by
  simp [Tagged, empty, Flags.zero]

end Store

end Memcached.MemoryLru

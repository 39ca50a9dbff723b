import Memcached.MemoryLru.Lemmas.ItemRules

/-!
# What becomes of items

An event frees some items, each once, and leaves the others what they are to the slab allocator.
-/

namespace Memcached.MemoryLru

/-- An item as the slab allocator knows it. The hit marker counts where it says that a piece was cleared. -/
def Item.form (i : Item) : Item :=
  { i.shape with
    it_flags := { i.shape.it_flags with linked := false, fetched := i.it_flags.slabbed && i.it_flags.fetched }
    slabs_clsid := i.clsid }

/-- An item that was freed. -/
def Item.slabbed (i : Item) : Item := { i with it_flags := { Flags.zero with slabbed := true }, slabs_clsid := 0 }

theorem Item.form_congr {β : Type} (g : Item → β) (hg : ∀ i, g i.form = g i) {i j : Item} (h : i.form = j.form) :
    g i = g j := by
  rw [← hg i, h, hg j]

theorem Item.form_of_core {i j : Item} (h : i.core = j.core) : i.form = j.form := Item.core_congr Item.form (fun _ => rfl) h

theorem Item.form_slabbed {i j : Item} (h : i.form = j.form) : i.it_flags.slabbed = j.it_flags.slabbed :=
  Item.form_congr (·.it_flags.slabbed) (fun _ => rfl) h

theorem Item.slabbed_form {i j : Item} (h : i.form = j.form) : i.slabbed.form = j.slabbed.form :=
  Item.form_congr (fun i => i.slabbed.form) (fun _ => rfl) h

theorem clsid_or (c : UInt8) (lru : Lru) : (c &&& 63 ||| lru.bits) &&& 63 = c &&& 63 := by
  have hbits : lru.bits.toBitVec &&& 63 = 0 := by cases lru <;> rfl
  refine UInt8.toBitVec_inj.mp ?_
  change (c.toBitVec &&& 63 ||| lru.bits.toBitVec) &&& 63 = c.toBitVec &&& 63
  rw [BitVec.and_or_distrib_right, BitVec.and_assoc, BitVec.and_self, hbits]
  exact BitVec.or_zero

theorem Item.form_move_lru (i : Item) (lru : Lru) : { i with slabs_clsid := i.clsid ||| lru.bits }.form = i.form := by
  simp [Item.form, Item.shape, Item.clsid, clsid_or]

namespace Store

/-- From `s` to `s'` the items of `F` were freed, newest first, and no others. -/
structure Fates (s s' : Store) (F : List Nat) : Prop where
  frees : s'.frees = F.map Ptr.item ++ s.frees
  nodup : F.Nodup
  kept : ∀ n, n ∉ F → (s'.heap (.item n)).form = (s.heap (.item n)).form
  freed : ∀ n ∈ F, ¬ (s.heap (.item n)).it_flags.slabbed ∧
    (s'.heap (.item n)).form = (s.heap (.item n)).slabbed.form

def Evolved (s s' : Store) : Prop := ∃ F, Fates s s' F

section
variable {cfg : Settings} {s s' s'' : Store} {n : Nat} {F G : List Nat}

/-! ## Fates -/

theorem Fates.trans (h : Fates s s' F) (h' : Fates s' s'' G) : Fates s s'' (G ++ F) where
  frees := by rw [h'.frees, h.frees, List.map_append, List.append_assoc]
  nodup := by
    refine List.nodup_append.mpr ⟨h'.nodup, h.nodup, fun a ha b hb hab => ?_⟩
    subst hab
    apply (h'.freed a ha).1
    rw [Item.form_slabbed (h.freed a hb).2]
    rfl
  kept n hn := by
    rw [List.mem_append, not_or] at hn
    rw [h'.kept n hn.1, h.kept n hn.2]
  freed n hn := by
    by_cases hF : n ∈ F
    · have hG : n ∉ G := fun hG => (h'.freed n hG).1 (by rw [Item.form_slabbed (h.freed n hF).2]; rfl)
      exact ⟨(h.freed n hF).1, (h'.kept n hG).trans (h.freed n hF).2⟩
    · have hG := (List.mem_append.mp hn).resolve_right hF
      have hsame := h.kept n hF
      exact ⟨by rw [← Item.form_slabbed hsame]; exact (h'.freed n hG).1,
        (h'.freed n hG).2.trans (Item.slabbed_form hsame)⟩

theorem Evolved.refl : Evolved s s := ⟨[], rfl, List.nodup_nil, fun _ _ => rfl, fun _ h => absurd h List.not_mem_nil⟩

theorem Evolved.trans (h : Evolved s s') (h' : Evolved s' s'') : Evolved s s'' := by
  obtain ⟨F, h⟩ := h
  obtain ⟨G, h'⟩ := h'
  exact ⟨G ++ F, h.trans h'⟩

theorem Evolved.of_form (hheap : ∀ n, (s'.heap (.item n)).form = (s.heap (.item n)).form) (hfrees : s'.frees = s.frees) :
    Evolved s s' :=
  ⟨[], hfrees, List.nodup_nil, fun n _ => hheap n, fun _ h => absurd h List.not_mem_nil⟩

theorem Evolved.of_heap (hheap : s'.heap = s.heap) (hfrees : s'.frees = s.frees) : Evolved s s' :=
  .of_form (fun n => by rw [hheap]) hfrees

theorem Evolved.modify {p : Ptr} {f : Item → Item} (hf : (f (s.heap p)).form = (s.heap p).form) :
    Evolved s (s.modify p f) := by
  refine .of_form (fun n => ?_) rfl
  by_cases hn : .item n = p
  · rw [hn, modify_self, hf]
  · rw [modify_of_ne hn]

theorem Evolved.core (h : SameCore s s') : Evolved s s' :=
  .of_form (fun n => Item.form_of_core (h.core _)) (by rw [h.rest])

theorem Evolved.crawled (h : Crawled s s') : Evolved s s' := .of_form (fun n => Item.form_of_core (h.core n)) (by rw [h.rest])

theorem Evolved.freed (h : ¬ (s.heap (.item n)).it_flags.slabbed) : Evolved s (s.freed (.item n)) := by
  refine ⟨[n], rfl, List.nodup_singleton n, fun k hk => ?_, fun k hk => ?_⟩
  · have hne : Ptr.item k ≠ .item n := by simpa using hk
    simp [Store.freed, modify_of_ne hne]
  · obtain rfl := List.mem_singleton.mp hk
    exact ⟨h, by simp [Store.freed, Item.form, Item.shape, Item.slabbed, Item.clsid, Flags.zero]⟩

/-! ## The functions -/

theorem Evolved.do_item_remove (h : s.do_item_remove (.item n) = some s') : Evolved s s' := by
  obtain ⟨hslabbed, ⟨-, -, rfl⟩ | ⟨-, -, rfl⟩⟩ := do_item_remove_cases h
  · exact .modify rfl
  · exact .freed hslabbed

theorem Evolved.do_item_unlink (h : s.do_item_unlink (.item n) = some s') : Evolved s s' := by
  obtain ⟨-, rfl⟩ | ⟨-, s₁, hunlink, hremove⟩ := do_item_unlink_cases h
  · exact .refl
  · have hunlinking : Evolved s (s.unlinking (.item n)) := by
      refine .of_form (fun k => ?_) rfl
      by_cases hk : Ptr.item k = .item n
      · rw [hk]; simp [unlinking, Item.form, Item.shape, Item.clsid]
      · rw [unlinking_kept hk]
    exact (hunlinking.trans (.core (do_item_unlink_q_core hunlink))).trans (.do_item_remove hremove)

theorem Evolved.do_item_link (h : s.do_item_link cfg (.item n) = some s') : Evolved s s' := by
  obtain ⟨-, hslabbed, cas, cas_id, s₁, hlink, rfl⟩ := do_item_link_cases h
  have hlinking : Evolved s (s.linking (.item n) cas cas_id) := by
    refine .of_form (fun k => ?_) rfl
    by_cases hk : Ptr.item k = .item n
    · rw [hk]; simp [linking, Item.form, Item.shape, Item.clsid]
    · rw [linking_kept hk]
  exact (hlinking.trans (.core (do_item_link_q_core hlink))).trans (.modify rfl)

theorem Evolved.do_item_replace {m : Nat} (h : s.do_item_replace cfg (.item n) (.item m) = some s') : Evolved s s' := by
  simp only [Store.do_item_replace] at h
  split at h
  · cases h
  obtain ⟨s₁, hunlink, hlink⟩ := Option.bind_eq_some_iff.mp h
  exact (Evolved.do_item_unlink hunlink).trans (.do_item_link hlink)

theorem Evolved.set_time {p : Ptr} : Evolved s (s.set_time p) := .modify rfl

theorem Evolved.set_active {p : Ptr} {active : Bool} : Evolved s (s.set_active p active) := .modify rfl

theorem Evolved.move_lru {p : Ptr} {lru : Lru} : Evolved s (s.move_lru p lru) := .modify (Item.form_move_lru _ _)

theorem Evolved.do_item_update_nolock {p : Ptr} (h : s.do_item_update_nolock p = some s') : Evolved s s' := by
  simp only [Store.do_item_update_nolock] at h
  split_ifs at h
  · obtain ⟨s₁, hunlink, hlink⟩ := Option.bind_eq_some_iff.mp h
    exact (Evolved.core (do_item_unlink_q_core hunlink)).trans (Evolved.set_time.trans (.core (do_item_link_q_core hlink)))
  · cases h; exact .refl
  · cases h; exact .refl

theorem Evolved.do_item_update {p : Ptr} (h : s.do_item_update cfg p = some s') : Evolved s s' := by
  simp only [Store.do_item_update] at h
  split_ifs at h
  · obtain ⟨s₁, hunlink, hlink⟩ := Option.bind_eq_some_iff.mp h
    refine Evolved.set_time.trans ((Evolved.core (do_item_unlink_q_core hunlink)).trans ?_)
    exact Evolved.move_lru.trans (Evolved.set_active.trans (.core (do_item_link_q_core hlink)))
  · cases h; exact .set_time
  · cases h; exact .refl
  · cases h; exact .refl
  · obtain ⟨s₁, hunlink, hlink⟩ := Option.bind_eq_some_iff.mp h
    exact Evolved.set_time.trans ((Evolved.core (do_item_unlink_q_core hunlink)).trans (.core (do_item_link_q_core hlink)))
  · cases h; exact .refl
  · cases h; exact .refl

theorem Evolved.mark {p : Ptr} {fetched active : Bool} (h : ¬ (s.heap p).it_flags.slabbed) :
    Evolved s (s.mark p fetched active) := by
  rw [Bool.not_eq_true] at h
  exact .modify (by simp [Item.form, Item.shape, Item.clsid, h])

theorem Sound.not_slabbed (h : s.Sound) (hl : (s.heap (.item n)).it_flags.linked) :
    ¬ (s.heap (.item n)).it_flags.slabbed := by
  obtain ⟨l, hc⟩ := h
  exact (hc.placed (.item n)).kind.2 hl

theorem Sound.table_linked {k : Key} (h : s.Sound) (ht : s.table k = some (.item n)) :
    (s.heap (.item n)).it_flags.linked := by
  obtain ⟨l, hc⟩ := h
  exact (((hc.placed (.item n)).table k).mp ht).2.1

theorem Evolved.do_item_get {key : Key} {do_update room : Bool} {r : Option Ptr} (hs : s.Sound)
    (h : s.do_item_get cfg key do_update room = some (s', r)) : Evolved s s' := by
  obtain ⟨-, rfl, -⟩ | ⟨it, htable, hcases⟩ := do_item_get_cases h
  · exact .refl
  obtain ⟨n, rfl⟩ := hs.is_item htable
  have hincr : Evolved s (s.refcount_incr (.item n)) := .modify rfl
  obtain ⟨-, -, s₁, hunlink, hremove⟩ | ⟨-, -, s₁, rfl, hmark⟩ := hcases
  · exact hincr.trans ((Evolved.do_item_unlink hunlink).trans (.do_item_remove hremove))
  have hhold : Evolved s₁ (s₁.hold (.item n)) := .of_heap rfl rfl
  refine Evolved.trans (hincr.trans ?_) hhold
  rcases hmark with ⟨-, rfl⟩ | ⟨-, hmark⟩
  · exact .refl
  have hslabbed : ¬ ((s.refcount_incr (.item n)).heap (.item n)).it_flags.slabbed := by
    simpa [Store.refcount_incr] using hs.not_slabbed (hs.table_linked htable)
  obtain ⟨fetched, active, ⟨-, rfl | hu⟩ | ⟨-, rfl⟩⟩ := mark_fetched_cases hmark
  · exact .mark hslabbed
  · exact (Evolved.mark hslabbed).trans (.do_item_update hu)
  · have hmarked : Evolved (s.refcount_incr (.item n)) ((s.refcount_incr (.item n)).mark (.item n) fetched active) :=
      .mark hslabbed
    have hbumped : Evolved ((s.refcount_incr (.item n)).mark (.item n) fetched active)
        (((s.refcount_incr (.item n)).mark (.item n) fetched active).refcount_incr (.item n)) := .modify rfl
    exact hmarked.trans (hbumped.trans (.of_heap rfl rfl))

theorem Evolved.do_item_touch {key : Key} {exptime : UInt32} {room : Bool} {r : Option Ptr} (hs : s.Sound)
    (h : s.do_item_touch cfg key exptime room = some (s', r)) : Evolved s s' := by
  obtain ⟨s₁, hget, rfl⟩ := do_item_touch_cases h
  refine (Evolved.do_item_get hs hget).trans ?_
  cases r with
  | none => exact .refl
  | some it => exact .modify (f := fun i => { i with exptime := exptime }) rfl

theorem Evolved.lru_maintainer_bump (h : s.lru_maintainer_bump cfg (.item n) = some s') : Evolved s s' := by
  obtain ⟨-, s₁, hupdate, hremove⟩ := lru_maintainer_bump_cases h
  have hbumps : Evolved s { s with bump_bufs := s.bump_bufs.erase (.item n) } := .of_heap rfl rfl
  exact hbumps.trans ((Evolved.do_item_update hupdate).trans (.do_item_remove hremove))

theorem Evolved.release (h : s.release (.item n) = some s') : Evolved s s' := by
  refine Evolved.trans ?_ (.do_item_remove (release_cases h).2)
  exact .of_heap rfl rfl

/-! ## Pulls -/

theorem Evolved.rounded {a : Pull} {r : Option Pulled} (h : a.Rounded cfg s (.item n) s' r) : Evolved s s' := by
  have hincr : Evolved s (s.refcount_incr (.item n)) := .modify rfl
  cases h with
  | repaired _ hunlink => exact hincr.trans ((Evolved.modify rfl).trans (.do_item_unlink hunlink))
  | reclaimed hunlink hremove => exact hincr.trans ((Evolved.do_item_unlink hunlink).trans (.do_item_remove hremove))
  | warmed _ hupdate hremove =>
      exact hincr.trans (Evolved.set_active.trans ((Evolved.do_item_update_nolock hupdate).trans (.do_item_remove hremove)))
  | moved _ hmark hunlink =>
      have hcore := Evolved.core (do_item_unlink_q_core hunlink)
      rcases hmark with rfl | rfl
      · exact hincr.trans hcore
      · exact hincr.trans (Evolved.set_active.trans hcore)
  | kept _ => exact hincr
  | evicted _ hunlink => exact hincr.trans (.do_item_unlink hunlink)
  | returned _ => exact hincr

theorem Evolved.move_to_lru {p : Ptr} {lru : Option Lru} (h : s.move_to_lru p lru = some s') : Evolved s s' := by
  cases lru with
  | none => cases h; exact .refl
  | some lru => exact Evolved.move_lru.trans (.core (do_item_link_q_core h))

/-- After the loop an item is at hand, if any. -/
def AtHand : Pulled → Prop
  | .stopped it _ _ => ∃ n, it = .item n
  | _ => True

theorem Evolved.finished {a : Pull} {pulled : Pulled} {ret : Option Ptr} (hit : AtHand pulled)
    (h : a.Finished s pulled s' ret) : Evolved s s' := by
  cases h with
  | blocked => exact .refl
  | nothing => exact .refl
  | removed hmove _ hremove =>
      obtain ⟨n, rfl⟩ := hit
      exact (Evolved.move_to_lru hmove).trans (.do_item_remove hremove)
  | returned hmove _ => exact (Evolved.move_to_lru hmove).trans (.of_heap rfl rfl)
  | leaked hmove _ => exact .move_to_lru hmove

theorem Evolved.lru_pull_tail {a : Pull} {locks : List Bool} {removed : Nat} {ret : Option Ptr} (hs : s.Sound)
    (h : s.lru_pull_tail cfg a locks = some (s', removed, ret)) : Evolved s s' := by
  obtain ⟨rfl, -⟩ | ⟨s₁, removed', pulled, hloop, hfinish⟩ := lru_pull_tail_cases h
  · exact .refl
  obtain ⟨hrounds, hit⟩ : Evolved s s₁ ∧ AtHand pulled := by
    refine Pull.loop_rule (I := fun t => t.Sound ∧ Evolved s t) (R := fun t pulled => Evolved s t ∧ AtHand pulled)
      (fun _ h => h.1) (fun _ h => ⟨h.2, trivial⟩) (fun _ h => ⟨h.2, trivial⟩) (fun t n t' r ht hq hr => ⟨?_, ?_⟩)
      ⟨hs, .refl⟩ (fun p ht => Pull.queued_tail hs ht) hloop
    · exact fun he => ⟨(ht.1.rounded hq hr).1 he, ht.2.trans (.rounded hr)⟩
    · rintro pulled rfl
      refine ⟨ht.2.trans (.rounded hr), ?_⟩
      cases hr <;> exact ⟨n, rfl⟩
  exact hrounds.trans (.finished hit hfinish)

/-! ## Events -/

theorem Evolved.item_crawler_thread {i : UInt8} {mod : CrawlerMod} {client lock : Bool} (hs : s.Sound)
    (h : s.item_crawler_thread i mod client lock = some s') : Evolved s s' := by
  obtain ⟨s₁, -, hcrawled, rfl | ⟨n, -, hcrawl⟩⟩ := item_crawler_thread_cases hs h
  · exact .crawled hcrawled
  refine (Evolved.crawled hcrawled).trans ?_
  have hincr : Evolved s₁ (s₁.refcount_incr (.item n)) := .modify rfl
  obtain rfl | rfl | ⟨s₂, hunlink, hremove⟩ := crawl_cases hcrawl
  · exact .refl
  · exact hincr.trans (.modify rfl)
  · exact hincr.trans ((Evolved.do_item_unlink hunlink).trans (.do_item_remove hremove))

theorem Evolved.step {e : Event} (hs : s.Sound) (he : ∀ new rounds, e ≠ .alloc new rounds) (h : Step cfg s e s') :
    Evolved s s' := by
  cases e with
  | alloc new rounds => exact absurd rfl (he new rounds)
  | link n =>
      simp only [Step, Store.step] at h
      split at h
      · exact .do_item_link h
      · cases h
  | unlink n => exact .do_item_unlink h
  | unlink_nolock n => exact .do_item_unlink h
  | remove n => exact .release h
  | replace n m =>
      simp only [Step, Store.step] at h
      split at h
      · exact .do_item_replace h
      · cases h
  | update n => exact .do_item_update h
  | update_nolock n => exact .do_item_update_nolock h
  | get key do_update room =>
      obtain ⟨⟨s₁, r⟩, hg, rfl⟩ := Option.map_eq_some_iff.mp h
      exact .do_item_get hs hg
  | touch key exptime room =>
      obtain ⟨⟨s₁, r⟩, ht, rfl⟩ := Option.map_eq_some_iff.mp h
      exact .do_item_touch hs ht
  | pull a locks =>
      obtain ⟨⟨s₁, removed, r⟩, hp, rfl⟩ := Option.map_eq_some_iff.mp h
      exact .lru_pull_tail hs hp
  | bump n => exact .lru_maintainer_bump h
  | crawler_start sid remaining => exact .crawled (hs.do_lru_crawler_start h).2
  | crawler i mod client lock => exact .item_crawler_thread hs h
  | tick now =>
      simp only [Step, Store.step] at h
      split at h
      · cases h; exact .of_heap rfl rfl
      · cases h
  | flush oldest_live oldest_cas => cases h; exact .of_heap rfl rfl

/-! ## Header items -/

/-- A free item is no header. -/
def Plain (i : Item) : Prop := i.it_flags.slabbed → ¬ i.it_flags.hdr

theorem plain_rule (cfg : Settings) : ItemRule cfg Plain where
  shape hshape hi := by
    have hslabbed := Item.shape_congr (·.it_flags.slabbed) (fun _ => rfl) hshape
    have hhdr := Item.shape_congr (·.it_flags.hdr) (fun _ => rfl) hshape
    rw [Plain, hslabbed, hhdr]
    exact hi
  linked _ hi := hi
  freed _ := by simp [Plain, Flags.zero]
  made new large clsid _ _ := by simp [Plain, made]

/-- No item became a header, and none got another key. -/
def SameHeaders (s s' : Store) : Prop :=
  ∀ n, (s'.heap (.item n)).it_flags.hdr → (s.heap (.item n)).it_flags.hdr ∧ (s'.heap (.item n)).key = (s.heap (.item n)).key

theorem SameHeaders.refl : SameHeaders s s := fun _ h => ⟨h, rfl⟩

theorem SameHeaders.trans {s'' : Store} (h : SameHeaders s s') (h' : SameHeaders s' s'') : SameHeaders s s'' := by
  intro n hn
  obtain ⟨hhdr, hkey⟩ := h' n hn
  obtain ⟨hhdr', hkey'⟩ := h n hhdr
  exact ⟨hhdr', hkey.trans hkey'⟩

theorem SameHeaders.of_evolved (h : Evolved s s') : SameHeaders s s' := by
  obtain ⟨F, h⟩ := h
  intro n hn
  by_cases hF : n ∈ F
  · have hfree := Item.form_congr (·.it_flags.hdr) (fun _ => rfl) (h.freed n hF).2
    rw [hfree] at hn
    simp [Item.slabbed, Flags.zero] at hn
  · have hsame := h.kept n hF
    have hhdr := Item.form_congr (·.it_flags.hdr) (fun _ => rfl) hsame
    exact ⟨hhdr ▸ hn, Item.form_congr Item.key (fun _ => rfl) hsame⟩

theorem SameHeaders.do_item_alloc {new : NewItem} {rounds : List Round} {r : Option Ptr} (hs : s.Sound)
    (hplain : ∀ n, Plain (s.heap (.item n))) (h : s.do_item_alloc cfg new rounds = some (s', r)) :
    SameHeaders s s' := by
  obtain ⟨-, -, -, heq⟩ | ⟨s₀, n, large, clsid, ⟨-, hkeeps, hsame⟩, -, hslabbed, -, rfl⟩ :=
    do_item_alloc_made (I := fun t => t.Sound ∧ Keeps Plain s t ∧ SameHeaders s t)
      (fun ht _ hp => ⟨ht.1.lru_pull_tail hp, ht.2.1.trans ((plain_rule cfg).lru_pull_tail ht.1 hp),
        ht.2.2.trans (.of_evolved (.lru_pull_tail ht.1 hp))⟩) ⟨hs, .refl, .refl⟩ h
  · exact heq
  · refine hsame.trans fun m hm => ?_
    by_cases hmn : m = n
    · subst hmn
      have hhdr : (s₀.heap (.item m)).it_flags.hdr := by simpa [made] using hm
      exact absurd hhdr (hkeeps hplain m hslabbed)
    · have hne : Ptr.item m ≠ .item n := by simpa using hmn
      simp only [Function.update_of_ne hne] at hm ⊢
      exact ⟨hm, trivial⟩

theorem SameHeaders.step {e : Event} (hs : s.Sound) (hplain : ∀ n, Plain (s.heap (.item n))) (h : Step cfg s e s') :
    SameHeaders s s' := by
  cases e with
  | alloc new rounds =>
      obtain ⟨⟨s₁, r⟩, ha, rfl⟩ := Option.map_eq_some_iff.mp h
      exact .do_item_alloc hs hplain ha
  | _ =>
      apply SameHeaders.of_evolved
      apply Evolved.step hs _ h
      intro new rounds he
      cases he

end

end Store

end Memcached.MemoryLru

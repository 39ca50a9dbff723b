import Memcached.MemoryLru.ItemTheorems

/-!
# A get returns what was linked last

The hash table is what the log of links and unlinks makes of an empty one. So the item that a get returns is the last
that was linked under its key, and an item that is not linked comes back only if it is linked again.
-/

namespace Memcached.MemoryLru

open Transition

def Entry.key : Entry → Key
  | .linked key _ => key
  | .unlinked key _ => key

/-- What an entry of the log does to a table. -/
def Entry.apply (e : Entry) (table : Key → Option Ptr) : Key → Option Ptr :=
  match e with
  | .linked key it => Function.update table key (some it)
  | .unlinked key _ => Function.update table key none

/-- The item was linked under the key, and the log has no other entry for the key since. -/
def Latest (log : List Entry) (key : Key) (it : Ptr) : Prop :=
  ∃ since before, log = since ++ .linked key it :: before ∧ ∀ e ∈ since, e.key ≠ key

theorem Entry.apply_of_ne {e : Entry} {table : Key → Option Ptr} {key : Key} (h : e.key ≠ key) :
    e.apply table key = table key := by
  cases e with
  | linked k it => exact Function.update_of_ne h.symm _ _
  | unlinked k it => exact Function.update_of_ne h.symm _ _

theorem latest_of_replayed {table : Key → Option Ptr} {key : Key} {it : Ptr} {log : List Entry}
    (h : log.foldr Entry.apply table key = some it) : table key = some it ∧ (∀ e ∈ log, e.key ≠ key) ∨ Latest log key it := by
  induction log with
  | nil => exact .inl ⟨h, fun _ he => absurd he List.not_mem_nil⟩
  | cons e log ih =>
      rw [List.foldr_cons] at h
      by_cases hkey : e.key = key
      · cases e with
        | linked k it' =>
            obtain rfl : k = key := hkey
            obtain rfl : it' = it := by simpa [Entry.apply] using h
            exact .inr ⟨[], log, rfl, fun _ he => absurd he List.not_mem_nil⟩
        | unlinked k it' =>
            obtain rfl : k = key := hkey
            simp [Entry.apply] at h
      · rw [Entry.apply_of_ne hkey] at h
        rcases ih h with ⟨htable, hlog⟩ | ⟨since, before, rfl, hsince⟩
        · exact .inl ⟨htable, List.forall_mem_cons.mpr ⟨hkey, hlog⟩⟩
        · exact .inr ⟨e :: since, before, rfl, List.forall_mem_cons.mpr ⟨hkey, hsince⟩⟩

namespace Store

/-- `since` was logged, and the table went with it. -/
def Logs (s : Store) (since : List Entry) (s' : Store) : Prop :=
  s'.log = since ++ s.log ∧ s'.table = since.foldr Entry.apply s.table

/-- The log went on, and the table with it. -/
def Replays (s s' : Store) : Prop := ∃ since, s'.log = since ++ s.log ∧ s'.table = since.foldr Entry.apply s.table

section
variable {cfg : Settings} {s s' s'' : Store} {p : Ptr}

/-! ## What is logged -/

theorem Logs.of_eq (htable : s'.table = s.table) (hlog : s'.log = s.log) : Logs s [] s' := ⟨hlog, htable⟩

theorem Logs.trans {es es' : List Entry} (h : Logs s es s') (h' : Logs s' es' s'') : Logs s (es' ++ es) s'' :=
  ⟨by rw [h'.1, h.1, List.append_assoc], by rw [h'.2, h.2, List.foldr_append]⟩

theorem Logs.core (h : SameCore s s') : Logs s [] s' := .of_eq (by rw [h.rest]) (by rw [h.rest])

theorem Logs.kept (h : Kept s s' p) : Logs s [] s' := .of_eq (by rw [h.rest]) (by rw [h.rest])

theorem Logs.do_item_remove (h : s.do_item_remove p = some s') : Logs s [] s' := by
  obtain ⟨-, ⟨-, -, rfl⟩ | ⟨-, -, rfl⟩⟩ := do_item_remove_cases h
  · exact .of_eq rfl rfl
  · exact .of_eq rfl rfl

/-- What is unlinked is logged, if it was linked. -/
theorem do_item_unlink_logs (h : s.do_item_unlink p = some s') :
    s.Logs (if (s.heap p).it_flags.linked then [.unlinked (s.heap p).key p] else []) s' := by
  obtain ⟨hnot, rfl⟩ | ⟨hl, s₁, hunlink, hremove⟩ := do_item_unlink_cases h
  · rw [if_neg hnot]
    exact .of_eq rfl rfl
  · rw [if_pos hl]
    have hunlinking : s.Logs [.unlinked (s.heap p).key p] (s.unlinking p) := ⟨rfl, rfl⟩
    exact (hunlinking.trans (.core (do_item_unlink_q_core hunlink))).trans (.do_item_remove hremove)

/-- What is linked is logged. -/
theorem do_item_link_logs (h : s.do_item_link cfg p = some s') : s.Logs [.linked (s.heap p).key p] s' := by
  obtain ⟨-, -, cas, cas_id, s₁, hlink, rfl⟩ := do_item_link_cases h
  have hlinking : s.Logs [.linked (s.heap p).key p] (s.linking p cas cas_id) := ⟨rfl, rfl⟩
  exact (hlinking.trans (.core (do_item_link_q_core hlink))).trans (.kept refcount_incr_kept)

theorem do_item_unlink_key (h : s.do_item_unlink p = some s') (q : Ptr) : (s'.heap q).key = (s.heap q).key := by
  obtain ⟨-, rfl⟩ | ⟨-, s₁, hunlink, hremove⟩ := do_item_unlink_cases h
  · rfl
  · have hcore : (s₁.heap q).key = ((s.unlinking p).heap q).key :=
      Item.core_congr Item.key (fun _ => rfl) ((do_item_unlink_q_core hunlink).core q)
    have hunlinking : ((s.unlinking p).heap q).key = (s.heap q).key := by
      rcases eq_or_ne q p with rfl | hq
      · simp [unlinking]
      · simp [unlinking, hq]
    rw [← hunlinking, ← hcore]
    obtain ⟨-, ⟨-, -, rfl⟩ | ⟨-, -, rfl⟩⟩ := do_item_remove_cases hremove
    all_goals
      rcases eq_or_ne q p with rfl | hq
      · simp [refcount_decr, freed, modify]
      · simp [refcount_decr, freed, modify, hq]

/-- What is replaced and what takes its place are logged. -/
theorem do_item_replace_logs {new_it : Ptr} (h : s.do_item_replace cfg p new_it = some s') :
    s.Logs (.linked (s.heap new_it).key new_it ::
      if (s.heap p).it_flags.linked then [.unlinked (s.heap p).key p] else []) s' := by
  simp only [Store.do_item_replace] at h
  split at h
  · cases h
  obtain ⟨s₁, hunlink, hlink⟩ := Option.bind_eq_some_iff.mp h
  have hlogs := (do_item_unlink_logs hunlink).trans (do_item_link_logs hlink)
  rwa [do_item_unlink_key hunlink] at hlogs

/-! ## The functions -/

theorem Replays.of_eq (htable : s'.table = s.table) (hlog : s'.log = s.log) : Replays s s' := ⟨[], hlog, htable⟩

theorem Replays.refl : Replays s s := .of_eq rfl rfl

theorem Replays.trans (h : Replays s s') (h' : Replays s' s'') : Replays s s'' := by
  obtain ⟨since, hlog, htable⟩ := h
  obtain ⟨since', hlog', htable'⟩ := h'
  exact ⟨since' ++ since, by rw [hlog', hlog, List.append_assoc], by rw [htable', htable, List.foldr_append]⟩

theorem Replays.kept (h : Kept s s' p) : Replays s s' := ⟨_, Logs.kept h⟩

theorem Replays.core (h : SameCore s s') : Replays s s' := ⟨_, Logs.core h⟩

theorem Replays.crawled (h : Crawled s s') : Replays s s' := .of_eq (by rw [h.rest]) (by rw [h.rest])

theorem Replays.do_item_remove (h : s.do_item_remove p = some s') : Replays s s' := ⟨_, Logs.do_item_remove h⟩

theorem Replays.do_item_unlink (h : s.do_item_unlink p = some s') : Replays s s' := ⟨_, do_item_unlink_logs h⟩

theorem Replays.do_item_link (h : s.do_item_link cfg p = some s') : Replays s s' := ⟨_, do_item_link_logs h⟩

theorem Replays.do_item_replace {new_it : Ptr} (h : s.do_item_replace cfg p new_it = some s') : Replays s s' :=
  ⟨_, do_item_replace_logs h⟩

theorem Replays.mark_fetched {room : Bool} (h : s.mark_fetched cfg p room = some s') : Replays s s' := by
  obtain ⟨fetched, active, ⟨-, rfl | hu⟩ | ⟨-, rfl⟩⟩ := mark_fetched_cases h
  · exact .kept mark_kept
  · exact (Replays.kept mark_kept).trans (.kept (do_item_update_kept hu).1)
  · exact .of_eq rfl rfl

theorem Replays.do_item_get {key : Key} {do_update room : Bool} {r : Option Ptr}
    (h : s.do_item_get cfg key do_update room = some (s', r)) : Replays s s' := by
  obtain ⟨-, rfl, -⟩ | ⟨it, -, ⟨-, -, s₁, hunlink, hremove⟩ | ⟨-, -, s₁, rfl, ⟨-, rfl⟩ | ⟨-, hmark⟩⟩⟩ := do_item_get_cases h
  · exact .refl
  · exact (Replays.kept refcount_incr_kept).trans ((Replays.do_item_unlink hunlink).trans (.do_item_remove hremove))
  · exact .of_eq rfl rfl
  · exact (Replays.kept refcount_incr_kept).trans ((Replays.mark_fetched hmark).trans (.of_eq rfl rfl))

theorem Replays.do_item_touch {key : Key} {exptime : UInt32} {room : Bool} {r : Option Ptr}
    (h : s.do_item_touch cfg key exptime room = some (s', r)) : Replays s s' := by
  obtain ⟨s₁, hget, rfl⟩ := do_item_touch_cases h
  refine (Replays.do_item_get hget).trans ?_
  cases r with
  | none => exact .refl
  | some it => exact .of_eq rfl rfl

theorem Replays.lru_maintainer_bump (h : s.lru_maintainer_bump cfg p = some s') : Replays s s' := by
  obtain ⟨-, s₁, hupdate, hremove⟩ := lru_maintainer_bump_cases h
  have hbumps : Replays s { s with bump_bufs := s.bump_bufs.erase p } := .of_eq rfl rfl
  exact hbumps.trans ((Replays.kept (do_item_update_kept hupdate).1).trans (.do_item_remove hremove))

theorem Replays.release (h : s.release p = some s') : Replays s s' := by
  refine Replays.trans ?_ (.do_item_remove (release_cases h).2)
  exact .of_eq rfl rfl

/-! ## Pulls -/

theorem Replays.rounded {a : Pull} {r : Option Pulled} (h : a.Rounded cfg s p s' r) : Replays s s' := by
  have hincr : Replays s (s.refcount_incr p) := .kept refcount_incr_kept
  cases h with
  | repaired _ hunlink =>
      refine hincr.trans (Replays.trans ?_ (.do_item_unlink hunlink))
      exact .of_eq rfl rfl
  | reclaimed hunlink hremove => exact hincr.trans ((Replays.do_item_unlink hunlink).trans (.do_item_remove hremove))
  | warmed _ hupdate hremove =>
      have hkept := (Pull.do_item_update_nolock_kept hupdate).1
      exact (hincr.trans (.kept set_active_kept)).trans ((Replays.kept hkept).trans (.do_item_remove hremove))
  | moved _ hmark hunlink =>
      have hcore : Replays _ s' := .core (do_item_unlink_q_core hunlink)
      rcases hmark with rfl | rfl
      · exact hincr.trans hcore
      · exact (hincr.trans (.kept set_active_kept)).trans hcore
  | kept _ => exact hincr
  | evicted _ hunlink => exact hincr.trans (.do_item_unlink hunlink)
  | returned _ => exact hincr

theorem Replays.move_to_lru {lru : Option Lru} (h : s.move_to_lru p lru = some s') : Replays s s' := by
  cases lru with
  | none => cases h; exact .refl
  | some lru => exact (Replays.kept move_lru_kept).trans (.core (do_item_link_q_core h))

theorem Replays.finished {a : Pull} {pulled : Pulled} {ret : Option Ptr} (h : a.Finished s pulled s' ret) :
    Replays s s' := by
  cases h with
  | blocked => exact .refl
  | nothing => exact .refl
  | removed hmove _ hremove => exact (Replays.move_to_lru hmove).trans (.do_item_remove hremove)
  | returned hmove _ => exact (Replays.move_to_lru hmove).trans (.of_eq rfl rfl)
  | leaked hmove _ => exact .move_to_lru hmove

theorem Replays.lru_pull_tail {a : Pull} {locks : List Bool} {removed : Nat} {ret : Option Ptr} (hs : s.Sound)
    (h : s.lru_pull_tail cfg a locks = some (s', removed, ret)) : Replays s s' := by
  obtain ⟨rfl, -⟩ | ⟨s₁, removed', pulled, hloop, hfinish⟩ := lru_pull_tail_cases h
  · exact .refl
  have hrounds : Replays s s₁ := Pull.loop_rule (I := fun t => t.Sound ∧ Replays s t) (R := fun t _ => Replays s t)
    (fun _ h => h.1) (fun _ h => h.2) (fun _ h => h.2)
    (fun t n t' r ht hq hr => ⟨fun he => ⟨(ht.1.rounded hq hr).1 he, ht.2.trans (.rounded hr)⟩,
      fun _ _ => ht.2.trans (.rounded hr)⟩)
    ⟨hs, .refl⟩ (fun p ht => Pull.queued_tail hs ht) hloop
  exact hrounds.trans (.finished hfinish)

theorem Replays.do_item_alloc {new : NewItem} {rounds : List Round} {r : Option Ptr} (hs : s.Sound)
    (h : s.do_item_alloc cfg new rounds = some (s', r)) : Replays s s' := by
  obtain ⟨-, -, hreplays⟩ | ⟨s₀, n, large, clsid, ⟨-, hreplays⟩, -, -, -, rfl⟩ :=
    do_item_alloc_made (I := fun t => t.Sound ∧ Replays s t)
      (fun ht _ hp => ⟨ht.1.lru_pull_tail hp, ht.2.trans (.lru_pull_tail ht.1 hp)⟩) ⟨hs, .refl⟩ h
  · exact hreplays
  · exact hreplays.trans (.of_eq rfl rfl)

/-! ## Runs -/

theorem Replays.item_crawler_thread {i : UInt8} {mod : CrawlerMod} {client lock : Bool} (hs : s.Sound)
    (h : s.item_crawler_thread i mod client lock = some s') : Replays s s' := by
  obtain ⟨s₁, -, hcrawled, rfl | ⟨n, -, hcrawl⟩⟩ := item_crawler_thread_cases hs h
  · exact .crawled hcrawled
  refine (Replays.crawled hcrawled).trans ?_
  obtain rfl | rfl | ⟨s₂, hunlink, hremove⟩ := crawl_cases hcrawl
  · exact .refl
  · exact (Replays.kept refcount_incr_kept).trans (.kept refcount_decr_kept)
  · exact (Replays.kept refcount_incr_kept).trans ((Replays.do_item_unlink hunlink).trans (.do_item_remove hremove))

theorem Replays.step {e : Event} (hs : s.Sound) (h : Step cfg s e s') : Replays s s' := by
  cases e with
  | alloc new rounds =>
      obtain ⟨⟨s₁, r⟩, ha, rfl⟩ := Option.map_eq_some_iff.mp h
      exact .do_item_alloc hs ha
  | link n =>
      simp only [Step, Store.step] at h
      split at h
      · exact .do_item_link h
      · cases h
  | unlink n => exact .do_item_unlink h
  | unlink_nolock n => exact .do_item_unlink h
  | remove n => exact .release h
  | replace n m =>
      simp only [Step, Store.step] at h
      split at h
      · exact .do_item_replace h
      · cases h
  | update n => exact .kept (do_item_update_kept h).1
  | update_nolock n => exact .kept (Pull.do_item_update_nolock_kept h).1
  | get key do_update room =>
      obtain ⟨⟨s₁, r⟩, hg, rfl⟩ := Option.map_eq_some_iff.mp h
      exact .do_item_get hg
  | touch key exptime room =>
      obtain ⟨⟨s₁, r⟩, ht, rfl⟩ := Option.map_eq_some_iff.mp h
      exact .do_item_touch ht
  | pull a locks =>
      obtain ⟨⟨s₁, removed, r⟩, hp, rfl⟩ := Option.map_eq_some_iff.mp h
      exact .lru_pull_tail hs hp
  | bump n => exact .lru_maintainer_bump h
  | crawler_start sid remaining => exact .crawled (hs.do_lru_crawler_start h).2
  | crawler i mod client lock => exact .item_crawler_thread hs h
  | tick now =>
      simp only [Step, Store.step] at h
      split at h
      · cases h; exact .of_eq rfl rfl
      · cases h
  | flush oldest_live oldest_cas => cases h; exact .of_eq rfl rfl

theorem Replays.run {es : List Event} (hs : s.Sound) (h : Run (Step cfg) s es s') : Replays s s' := by
  have hinv : s'.Sound ∧ Replays s s' := h.invariant (P := fun t => t.Sound ∧ Replays s t)
    (fun ht hst => ⟨ht.1.step hst, ht.2.trans (.step ht.1 hst)⟩) ⟨hs, .refl⟩
  exact hinv.2

/-! ## Gets -/

theorem Latest.of_replays {t : Store} {key : Key} {it : Ptr} (h : Replays t s) (htable : s.table key = some it) :
    t.table key = some it ∨ ∃ since, s.log = since ++ t.log ∧ .linked key it ∈ since := by
  obtain ⟨since, hlog, hreplay⟩ := h
  rw [hreplay] at htable
  rcases latest_of_replayed htable with ⟨hold, -⟩ | ⟨later, before, rfl, -⟩
  · exact .inl hold
  · exact .inr ⟨_, hlog, by simp⟩

/-- What is right about the answer `r` to a get that comes after the events `es`. -/
structure NeverStale (cfg : Settings) (es : List Event) (s s' : Store) (key : Key) (r : Option Ptr) : Prop where
  latest : ∀ it, r = some it → Latest s.log key it
  unexpired : ∀ it, r = some it → (s.heap it).exptime ≠ 0 → s.current_time < (s.heap it).exptime
  unflushed : ∀ it, r = some it → ¬ s.item_is_flushed (s.heap it)
  missing : r = none → ∀ n, (s'.heap (.item n)).it_flags.linked → (s'.heap (.item n)).key ≠ key
  /-- An item that was not linked at some time is returned only if it was linked later. -/
  relinked : ∀ es₁ es₂ t it, es = es₁ ++ es₂ → Run (Step cfg) empty es₁ t → Run (Step cfg) t es₂ s →
    ¬ (t.heap it).it_flags.linked → r = some it → ∃ since, s.log = since ++ t.log ∧ .linked key it ∈ since

theorem do_item_get_found {key : Key} {do_update room : Bool} {it : Ptr}
    (h : s.do_item_get cfg key do_update room = some (s', some it)) : s.table key = some it ∧
      ¬ (s.item_is_flushed (s.heap it) ∨ (s.heap it).exptime ≠ 0 ∧ (s.heap it).exptime ≤ s.current_time) := by
  obtain ⟨-, -, hr⟩ | ⟨it', htable, ⟨-, hr, -⟩ | ⟨hlive, hr, -⟩⟩ := do_item_get_cases h
  · cases hr
  · cases hr
  · obtain rfl := Option.some.inj hr
    exact ⟨htable, hlive⟩

theorem do_item_get_missing {key : Key} {do_update room : Bool} (hs : s.Sound)
    (h : s.do_item_get cfg key do_update room = some (s', none)) : s'.table key = none := by
  obtain ⟨htable, rfl, -⟩ | ⟨it, htable, ⟨-, -, s₁, hunlink, hremove⟩ | ⟨-, hr, -⟩⟩ := do_item_get_cases h
  · exact htable
  · obtain ⟨l, hc⟩ := hs
    obtain ⟨-, hlinked, hkey⟩ := ((hc.placed it).table key).mp htable
    obtain ⟨-, hunlinked⟩ := do_item_unlink_table hunlink
    have hsame : s'.table = s₁.table := by
      obtain ⟨-, ⟨-, -, rfl⟩ | ⟨-, -, rfl⟩⟩ := do_item_remove_cases hremove <;> rfl
    rw [hsame, hunlinked]
    simp [Store.refcount_incr, hlinked, hkey]
  · cases hr

variable {es : List Event} {key : Key} {do_update room : Bool} {r : Option Ptr}

/-- Whatever came before it, a get returns the item linked last under the key, if it is alive, or nothing. -/
theorem get_never_stale (h : Run (Step cfg) empty es s) (hget : s.do_item_get cfg key do_update room = some (s', r)) :
    NeverStale cfg es s s' key r := by
  have hs := run_sound h
  refine ⟨fun it hr => ?_, fun it hr hexptime => ?_, fun it hr => ?_, fun hr n hl => ?_, fun es₁ es₂ t it hes h₁ h₂ hl hr => ?_⟩
  · subst hr
    obtain ⟨htable, -⟩ := do_item_get_found hget
    obtain ⟨since, hlog, hreplay⟩ := Replays.run sound_empty h
    rw [hreplay] at htable
    rcases latest_of_replayed htable with ⟨hempty, -⟩ | hlatest
    · cases hempty
    · rw [hlog]
      simpa [empty] using hlatest
  · subst hr
    have hlive := (do_item_get_found hget).2
    rw [not_or, not_and, UInt32.not_le] at hlive
    exact hlive.2 hexptime
  · subst hr
    exact fun hf => (do_item_get_found hget).2 (.inl hf)
  · subst hr
    intro hkey
    have hnone := do_item_get_missing hs hget
    obtain ⟨l, hc⟩ := hs.do_item_get hget
    rw [((hc.placed (.item n)).table key).mpr ⟨rfl, hl, hkey⟩] at hnone
    cases hnone
  · subst hr
    have hs₁ := run_sound h₁
    rcases Latest.of_replays (Replays.run hs₁ h₂) (do_item_get_found hget).1 with htable | hsince
    · obtain ⟨l, hc⟩ := hs₁
      exact absurd ((hc.placed it).table key |>.mp htable).2.1 hl
    · exact hsince

theorem busy_get : (((busy.foldlM (Store.step settings) empty).get busy_runs).do_item_get settings [98] true true).isSome := by
  decide +kernel

theorem get_never_stale_witness : NeverStale settings busy ((busy.foldlM (Store.step settings) empty).get busy_runs)
    ((((busy.foldlM (Store.step settings) empty).get busy_runs).do_item_get settings [98] true true).get busy_get).1 [98]
    ((((busy.foldlM (Store.step settings) empty).get busy_runs).do_item_get settings [98] true true).get busy_get).2 :=
  get_never_stale (Run.of_foldlM (Option.some_get busy_runs).symm) (Option.some_get busy_get).symm

end

end Store

end Memcached.MemoryLru

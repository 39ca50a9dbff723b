import Mathlib.Tactic.SplitIfs
import Memcached.MemoryLru.CrawlerLocks
import Memcached.MemoryLru.CursorTheorems

/-!
# Where the crawler keeps the lock discipline

A class that is given up before its lock was taken is unlinked and unlocked all the same, a bad class unlocks the crawler
lock, and the expired module looks at an item once more after it gave it up. There are no other failures.
-/

namespace Memcached.MemoryLru

open Discipline Transition Linked

namespace Crawling

variable {c c' : Crawling} {i : UInt8} {t : Turn} {mod : Module} {p : Ptr} {as : List CrawlerAction}

/-! ## Conditions -/

/-- The turn ends for want of a client. -/
def gives_up (c : Crawling) (i : UInt8) (t : Turn) : Prop :=
  (c.store.heap (.crawler i)).it_flags = .one ∧
    if c.client then t.getbuf ≠ .ok else c.mod.any Module.needs_client

/-- The expired module is given the item in front of the crawler. -/
def evaluates (c : Crawling) (i : UInt8) (t : Turn) : Prop :=
  (c.store.heap (.crawler i)).it_flags = .one ∧ ¬ c.gives_up i t ∧ c.mod = some .crawler_expired_mod ∧ t.lock ∧
    c.store.remaining i ≠ 1 ∧ ∃ p, (c.store.heap (.crawler i)).prev = some p ∧ (c.store.heap p).refcount = 1

/-! ## The store -/

/-- The module as the model of the store has it. -/
def crawler_mod (mod : Module) (is_valid : Bool) : CrawlerMod :=
  match mod with
  | .crawler_expired_mod => .expired is_valid
  | .crawler_metadump_mod => .metadump

@[simp] theorem put_store {s : Store} : (c.put s).store = s := rfl

theorem class_done_store (h : c.lru_crawler_class_done mod i = some (c', as)) :
    c.store.lru_crawler_class_done i = some c'.store ∧ as = [.change i, .unlock (.lru_locks i)] ++ mod.doneclass := by
  obtain ⟨s, hs, he⟩ := Option.map_eq_some_iff.mp h
  obtain ⟨rfl, rfl⟩ := Prod.mk.inj he
  exact ⟨hs, rfl⟩

/-- `eval`, whatever the module: the item is read, maybe unlinked, and given up. -/
theorem eval_cases {is_valid : Bool} (h : c.eval mod p is_valid = some (c', as)) :
    (mod = .crawler_expired_mod ∧ c.store.crawler_expired_eval p is_valid = some c'.store ∧
        ∃ changed, (changed = [] ∨ changed = [.change (c.store.heap p).slabs_clsid]) ∧
          as = [.lock .data_lock, .read p] ++ changed ++ [.drop p, .read p, .unlock .data_lock]) ∨
      mod = .crawler_metadump_mod ∧ c.store.crawler_metadump_eval p = some c'.store ∧ as = [.read p, .drop p] := by
  cases mod with
  | crawler_expired_mod =>
      simp only [eval, Option.map_eq_some_iff] at h
      obtain ⟨s, hs, he⟩ := h
      obtain ⟨rfl, rfl⟩ := Prod.mk.inj he
      refine .inl ⟨rfl, hs, _, ?_, rfl⟩
      split_ifs
      · exact .inr rfl
      · exact .inl rfl
  | crawler_metadump_mod =>
      simp only [eval, Option.map_eq_some_iff] at h
      obtain ⟨s, hs, he⟩ := h
      obtain ⟨rfl, rfl⟩ := Prod.mk.inj he
      exact .inr ⟨rfl, hs, rfl⟩

theorem eval_store {is_valid : Bool} (h : c.eval mod p is_valid = some (c', as)) :
    (match crawler_mod mod is_valid with
      | .expired is_valid => c.store.crawler_expired_eval p is_valid
      | .metadump => c.store.crawler_metadump_eval p) = some c'.store := by
  rcases eval_cases h with ⟨rfl, hs, -⟩ | ⟨rfl, hs, -⟩ <;> exact hs

theorem examine_store (h : c.examine mod i p t = some (c', as)) :
    c.store.crawl p (crawler_mod mod t.is_valid) t.lock = some c'.store := by
  simp only [examine] at h
  simp only [Store.crawl]
  split at h
  · next hlock =>
    cases h
    rw [if_pos hlock]
  next hlock =>
  rw [if_neg hlock]
  split at h
  · next hrefs =>
    cases h
    rw [if_pos hrefs]
    rfl
  · next hrefs =>
    obtain ⟨⟨c₁, acts⟩, heval, h⟩ := Option.bind_eq_some_iff.mp h
    cases h
    rw [if_neg hrefs]
    exact eval_store heval

theorem last_iff {r : UInt32} : r ≠ 0 ∧ r - 1 < 1 ↔ r = 1 := by
  constructor
  · rintro ⟨-, hlast⟩
    have hzero : r - 1 = 0 := by simpa using hlast
    rw [← UInt32.sub_add_cancel r 1, hzero]
    rfl
  · rintro rfl
    decide

theorem search_cases (h : c.search mod i t = some (c', as)) :
    (∃ s done, c.store.do_item_crawl_q (.crawler i) = some (s, none) ∧
        (c.put s).lru_crawler_class_done mod i = some (c', done) ∧ as = [.lock (.lru_locks i), .change i] ++ done) ∨
      ∃ s p s₁ rest, c.store.do_item_crawl_q (.crawler i) = some (s, some p) ∧
        s₁ = (if s.remaining i = 0 then s else s.set_remaining i (s.remaining i - 1)) ∧
        as = [.lock (.lru_locks i), .change i, .find p] ++ rest ∧
        (s.remaining i = 1 ∧ (c.put s₁).lru_crawler_class_done mod i = some (c', rest) ∨
          s.remaining i ≠ 1 ∧ (c.put s₁).examine mod i p t = some (c', rest)) := by
  simp only [search] at h
  obtain ⟨⟨s, found⟩, hcrawl, h⟩ := Option.bind_eq_some_iff.mp h
  cases found with
  | none =>
      obtain ⟨⟨c₁, done⟩, hdone, h⟩ := Option.bind_eq_some_iff.mp h
      cases h
      exact .inl ⟨s, done, hcrawl, hdone, rfl⟩
  | some p =>
      dsimp only at h
      split at h
      · next hlast =>
        have hone := last_iff.mp hlast
        obtain ⟨⟨c₁, done⟩, hdone, h⟩ := Option.bind_eq_some_iff.mp h
        cases h
        exact .inr ⟨s, p, _, done, hcrawl, rfl, rfl, .inl ⟨hone, hdone⟩⟩
      · next hlast =>
        have hone := fun h => hlast (last_iff.mpr h)
        obtain ⟨⟨c₁, rest⟩, hrest, h⟩ := Option.bind_eq_some_iff.mp h
        cases h
        exact .inr ⟨s, p, _, rest, hcrawl, rfl, rfl, .inr ⟨hone, hrest⟩⟩

theorem search_store (hone : (c.store.heap (.crawler i)).it_flags = .one) (h : c.search mod i t = some (c', as)) :
    c.store.item_crawler_thread i (crawler_mod mod t.is_valid) true t.lock = some c'.store := by
  obtain ⟨s, done, hcrawl, hdone, -⟩ | ⟨s, p, s₁, rest, hcrawl, rfl, -, hrest⟩ := search_cases h
  · simpa [Store.item_crawler_thread, hone, hcrawl] using (class_done_store hdone).1
  have hthread : c.store.item_crawler_thread i (crawler_mod mod t.is_valid) true t.lock =
      if s.remaining i = 0 then s.crawl p (crawler_mod mod t.is_valid) t.lock
      else if s.remaining i - 1 < 1 then (s.set_remaining i (s.remaining i - 1)).lru_crawler_class_done i
      else (s.set_remaining i (s.remaining i - 1)).crawl p (crawler_mod mod t.is_valid) t.lock := by
    simp [Store.item_crawler_thread, hone, hcrawl]
  rw [hthread]
  rcases hrest with ⟨hlast, hdone⟩ | ⟨hlast, hexamine⟩
  · have hne := last_iff.mpr hlast
    rw [if_neg hne.1, if_pos hne.2]
    rw [if_neg hne.1] at hdone
    exact (class_done_store hdone).1
  · have hstore := examine_store hexamine
    by_cases hzero : s.remaining i = 0
    · rw [if_pos hzero] at hstore ⊢
      exact hstore
    · rw [if_neg hzero] at hstore ⊢
      rw [if_neg fun hl => hlast (last_iff.mp ⟨hzero, hl⟩)]
      exact hstore

theorem turn_store (h : c.turn i t = some (c', as)) :
    ∃ mod client, c.store.item_crawler_thread i mod client t.lock = some c'.store := by
  simp only [turn] at h
  split at h
  · next hoff =>
    cases h
    exact ⟨.metadump, true, by simp [Store.item_crawler_thread, hoff]⟩
  next hone =>
  rw [not_not] at hone
  obtain ⟨mod, hmod, h⟩ := Option.bind_eq_some_iff.mp h
  have hgiven (c₁ : Crawling) (hs : c₁.store = c.store) (hd : c₁.lru_crawler_class_done mod i = some (c', as)) :
      ∃ mod client, c.store.item_crawler_thread i mod client t.lock = some c'.store := by
    have hdone := (class_done_store hd).1
    rw [hs] at hdone
    exact ⟨.metadump, false, by simpa [Store.item_crawler_thread, hone] using hdone⟩
  split at h
  · split at h
    · exact ⟨_, _, search_store hone h⟩
    · exact hgiven { c with client := false } rfl h
    · exact hgiven c rfl h
  · split at h
    · exact hgiven c rfl h
    · exact ⟨_, _, search_store hone h⟩

/-! ## The actions of a turn -/

/-- Only links and ends change, and what is returned was in front of the crawler. -/
theorem crawl_q_same {s s' : Store} {it : Ptr} {r : Option Ptr} (h : s.do_item_crawl_q it = some (s', r)) :
    (∀ q, (s'.heap q).core = (s.heap q).core) ∧ s'.remaining = s.remaining ∧ (s.heap it).prev = r := by
  unfold Store.do_item_crawl_q at h
  dsimp only at h
  split at h
  · cases h
  split at h
  · next hprev =>
    split at h
    · cases h
    split at h
    · cases h
      exact ⟨fun _ => rfl, rfl, hprev⟩
    · split at h
      · cases h
      cases h
      exact ⟨Store.modify_core fun _ => rfl, rfl, hprev⟩
  · next p hprev =>
    split at h
    · cases h
    split at h
    · cases h
    cases h
    refine ⟨fun q => ?_, ?_, hprev⟩
    · refine (Store.modify?_core ?_ q).trans ((Store.modify_core ?_ q).trans ((Store.modify_core ?_ q).trans
        (Store.modify?_core ?_ q))) <;> exact fun _ => rfl
    · cases (s.heap it).next <;> cases (s.heap p).prev <;> rfl

theorem prev_clsid {s : Store} (hs : s.Sound) (hone : (s.heap (.crawler i)).it_flags = .one)
    (hprev : (s.heap (.crawler i)).prev = some p) : (s.heap p).slabs_clsid = i := by
  obtain ⟨l, hc⟩ := hs
  have hmem := (hc.crawler_mem hone).2
  exact hc.clsid i p ((hc.holds i).mem_of_prev hmem hprev)

/-- What a turn may do, by what it meets. -/
inductive TurnActions (c : Crawling) (i : UInt8) (t : Turn) : List CrawlerAction → Prop
  | idle (hoff : (c.store.heap (.crawler i)).it_flags ≠ .one) : TurnActions c i t []
  | given_up (hgives : c.gives_up i t) (mod : Module) :
      TurnActions c i t ([.change i, .unlock (.lru_locks i)] ++ mod.doneclass)
  | done (hgives : ¬ c.gives_up i t) (hnone : ¬ c.evaluates i t) (mod : Module) (found : Option Ptr) :
      TurnActions c i t ([.lock (.lru_locks i), .change i] ++ found.toList.map Action.find ++
        ([.change i, .unlock (.lru_locks i)] ++ mod.doneclass))
  | locked (hgives : ¬ c.gives_up i t) (hnone : ¬ c.evaluates i t) (p : Ptr) :
      TurnActions c i t [.lock (.lru_locks i), .change i, .find p, .read p, .unlock (.lru_locks i)]
  | busy (hgives : ¬ c.gives_up i t) (hnone : ¬ c.evaluates i t) (p : Ptr) :
      TurnActions c i t [.lock (.lru_locks i), .change i, .find p, .read p, .lock (.item_lock p), .drop p,
        .unlock (.item_lock p), .unlock (.lru_locks i)]
  | dumped (hgives : ¬ c.gives_up i t) (hnone : ¬ c.evaluates i t) (p : Ptr) :
      TurnActions c i t ([.lock (.lru_locks i), .change i, .find p, .read p, .lock (.item_lock p),
        .unlock (.lru_locks i), .read p, .drop p, .unlock (.item_lock p)] ++
          if t.yields then [.unlock .lru_crawler_lock, .lock .lru_crawler_lock] else [])
  | expired (hgives : ¬ c.gives_up i t) (heval : c.evaluates i t) (p : Ptr) (changed : List CrawlerAction)
      (hchanged : changed = [] ∨ changed = [.change i]) :
      TurnActions c i t ([.lock (.lru_locks i), .change i, .find p, .read p, .lock (.item_lock p), .lock .data_lock,
        .read p] ++ changed ++ [.drop p, .read p, .unlock .data_lock, .unlock (.item_lock p), .unlock (.lru_locks i)] ++
          if t.yields then [.unlock .lru_crawler_lock, .lock .lru_crawler_lock] else [])

theorem search_actions (hs : c.store.Sound) (hone : (c.store.heap (.crawler i)).it_flags = .one)
    (hgives : ¬ c.gives_up i t) (hmod : c.mod = some mod) (h : c.search mod i t = some (c', as)) :
    c.TurnActions i t as := by
  obtain ⟨s, done, hcrawl, hdone, rfl⟩ | ⟨s, p, s₁, rest, hcrawl, hs₁, rfl, hrest⟩ := search_cases h
  · obtain ⟨-, -, hprev⟩ := crawl_q_same hcrawl
    have hnone : ¬ c.evaluates i t := fun he => by
      obtain ⟨-, -, -, -, -, p, hp, -⟩ := he
      simp [hprev] at hp
    obtain ⟨-, rfl⟩ := class_done_store hdone
    exact .done hgives hnone mod none
  obtain ⟨hcore, hremaining, hprev⟩ := crawl_q_same hcrawl
  have hheap : s₁.heap = s.heap := by
    rw [hs₁]
    split_ifs <;> rfl
  have hclsid : (s.heap p).slabs_clsid = i :=
    (Item.core_congr Item.slabs_clsid (fun _ => rfl) (hcore p)).trans (prev_clsid hs hone hprev)
  have hrefs : (s.heap p).refcount = (c.store.heap p).refcount :=
    Item.core_congr Item.refcount (fun _ => rfl) (hcore p)
  rw [hremaining] at hrest
  rcases hrest with ⟨hlast, hdone⟩ | ⟨hlast, hexamine⟩
  · have hnone : ¬ c.evaluates i t := fun he => he.2.2.2.2.1 hlast
    obtain ⟨-, rfl⟩ := class_done_store hdone
    exact .done hgives hnone mod (some p)
  simp only [examine] at hexamine
  split at hexamine
  · next hlock =>
    cases hexamine
    have hnone : ¬ c.evaluates i t := fun he => by simp [he.2.2.2.1] at hlock
    exact .locked hgives hnone p
  next hlock =>
  split at hexamine
  · next hbusy =>
    cases hexamine
    have hnone : ¬ c.evaluates i t := fun he => by
      obtain ⟨-, -, -, -, -, q, hq, hone'⟩ := he
      obtain rfl := Option.some.inj (hq.symm.trans hprev)
      apply hbusy
      simp [Store.refcount_incr, hheap, hrefs, hone']
    exact .busy hgives hnone p
  next hbusy =>
  obtain ⟨⟨c₁, evaluated⟩, heval, hexamine⟩ := Option.bind_eq_some_iff.mp hexamine
  cases hexamine
  rcases eval_cases heval with ⟨rfl, -, changed, hchanged, rfl⟩ | ⟨rfl, -, rfl⟩
  · have hone' : (c.store.heap p).refcount = 1 := by
      rw [not_not] at hbusy
      have hincr : (c.store.heap p).refcount + 1 = 2 := by simpa [Store.refcount_incr, hheap, hrefs] using hbusy
      rw [← UInt16.add_sub_cancel (c.store.heap p).refcount 1, hincr]
      rfl
    have hmet : c.evaluates i t := ⟨hone, hgives, hmod, by simpa using hlock, hlast, p, hprev, hone'⟩
    have hchanged' : changed = [] ∨ changed = [.change i] := by simpa [Store.refcount_incr, hheap, hclsid] using hchanged
    simpa [Module.needs_lock] using TurnActions.expired hgives hmet p changed hchanged'
  · have hnone : ¬ c.evaluates i t := fun he => absurd (hmod.symm.trans he.2.2.1) (by simp)
    simpa [Module.needs_lock] using TurnActions.dumped hgives hnone p

theorem turn_actions (hs : c.store.Sound) (h : c.turn i t = some (c', as)) : c.TurnActions i t as := by
  simp only [turn] at h
  split at h
  · next hoff =>
    cases h
    exact .idle hoff
  next hone =>
  rw [not_not] at hone
  obtain ⟨mod, hmod, h⟩ := Option.bind_eq_some_iff.mp h
  split at h
  · next hclient =>
    have hgives : c.gives_up i t ↔ t.getbuf ≠ .ok := by simp [gives_up, hone, hclient]
    split at h
    · next hok => exact search_actions hs hone (by simp [hgives, hok]) hmod h
    · next hclosed =>
      obtain ⟨-, rfl⟩ := class_done_store h
      exact .given_up (by simp [hgives, hclosed]) mod
    · next hfailed =>
      obtain ⟨-, rfl⟩ := class_done_store h
      exact .given_up (by simp [hgives, hfailed]) mod
  · next hclient =>
    have hgives : c.gives_up i t ↔ mod.needs_client = true := by simp [gives_up, hone, hclient, hmod]
    split at h
    · next hneeds =>
      obtain ⟨-, rfl⟩ := class_done_store h
      exact .given_up (hgives.mpr hneeds) mod
    · next hneeds => exact search_actions hs hone (mt hgives.mp hneeds) hmod h

/-- Each mutex is taken once at most, and given back. -/
def Once (as : List CrawlerAction) : Prop := (taken as).Nodup ∧ Balanced as

/-- A turn keeps the discipline of mutexes, and holds afterwards what it held before, unless the class is given up. -/
theorem TurnActions.locked_iff (h : c.TurnActions i t as) :
    (Locked Mutex.lru_locks [.lru_crawler_lock] as ↔ ¬ c.gives_up i t) ∧
      (¬ c.gives_up i t → as.foldl held_after [.lru_crawler_lock] = [.lru_crawler_lock] ∧ Once as) := by
  cases h with
  | idle hoff => exact ⟨iff_of_true trivial fun hg => hoff hg.1, fun _ => ⟨rfl, List.nodup_nil, .refl _⟩⟩
  | given_up hgives mod =>
      refine ⟨iff_of_false (fun hl => ?_) fun h => h hgives, fun h => absurd hgives h⟩
      simp [Locked] at hl
  | done hgives _ mod found =>
      refine ⟨iff_of_true ?_ hgives, fun _ => ?_⟩
      · cases found <;> cases mod <;> simp [Locked, Module.doneclass]
      · cases found <;> cases mod <;> refine ⟨by simp [held_after, Module.doneclass], ?_, .refl _⟩ <;>
          simp [taken, Module.doneclass]
  | locked hgives _ p =>
      exact ⟨iff_of_true (by simp [Locked]) hgives, fun _ => ⟨by simp [held_after], by simp [taken], .refl _⟩⟩
  | busy hgives _ p =>
      refine ⟨iff_of_true (by simp [Locked]) hgives, fun _ => ⟨by simp [held_after], by simp [taken], .swap _ _ _⟩⟩
  | dumped hgives _ p =>
      refine ⟨iff_of_true ?_ hgives, fun _ => ?_⟩
      · split_ifs <;> simp [Locked]
      · split_ifs <;> exact ⟨by simp [held_after], by simp [taken], .refl _⟩
  | expired hgives _ p changed hchanged =>
      refine ⟨iff_of_true ?_ hgives, fun _ => ?_⟩
      · rcases hchanged with rfl | rfl <;> split_ifs <;>
          simp only [List.cons_append, List.nil_append, List.append_nil, Locked, List.erase_cons_head, List.mem_cons,
            List.not_mem_nil, reduceCtorEq, or_false, or_true, not_false_eq_true, and_self]
      · have hperm : List.Perm [Mutex.lru_locks i, .item_lock p, .data_lock] [.data_lock, .item_lock p, .lru_locks i] :=
          List.reverse_perm [Mutex.data_lock, .item_lock p, .lru_locks i]
        rcases hchanged with rfl | rfl <;> split_ifs <;> refine ⟨by simp [held_after], by simp [taken], ?_⟩
        · exact hperm.append_right [.lru_crawler_lock]
        · exact hperm
        · exact hperm.append_right [.lru_crawler_lock]
        · exact hperm

/-- An item is looked at after it was given up where the expired module evaluates one, and nowhere else. -/
theorem TurnActions.live_iff {dropped : List Ptr} (h : c.TurnActions i t as) : Live dropped as ↔ ¬ c.evaluates i t := by
  cases h with
  | idle hoff => exact iff_of_true trivial fun he => hoff he.1
  | given_up hgives mod => exact iff_of_true (by cases mod <;> simp [Live, Module.doneclass]) fun he => he.2.1 hgives
  | done _ hnone mod found => exact iff_of_true (by cases found <;> cases mod <;> simp [Live, Module.doneclass]) hnone
  | locked _ hnone p => exact iff_of_true (by simp [Live]) hnone
  | busy _ hnone p => exact iff_of_true (by simp [Live]) hnone
  | dumped _ hnone p => exact iff_of_true (by split_ifs <;> simp [Live]) hnone
  | expired _ heval p changed hchanged =>
      refine iff_of_false (fun hl => ?_) fun h => h heval
      rcases hchanged with rfl | rfl <;> simp [Live] at hl

/-! ## The start -/

theorem do_lru_crawler_start_within {sid : UInt8} {remaining : UInt32}
    (h : c.do_lru_crawler_start sid remaining = some (c', as)) :
    c.store.do_lru_crawler_start sid remaining = some c'.store ∧ Within Mutex.lru_locks [.lru_crawler_lock] as := by
  simp only [do_lru_crawler_start, Option.map_eq_some_iff] at h
  obtain ⟨s, hs, he⟩ := h
  obtain ⟨rfl, rfl⟩ := Prod.mk.inj he
  refine ⟨hs, ?_⟩
  split_ifs
  · exact ⟨by simp [Locked], by simp [held_after], .refl _⟩
  · exact ⟨by simp [Locked], by simp [held_after], .refl _⟩

theorem start_all_within {ids : UInt8 → Bool} {remaining : UInt32} {sids : List UInt8} (hs : c.store.Sound)
    (h : start_all ids remaining sids c = some (c', as)) :
    c'.store.Sound ∧ Within Mutex.lru_locks [.lru_crawler_lock] as := by
  induction sids generalizing c as with
  | nil =>
      cases h
      exact ⟨hs, .nil⟩
  | cons sid sids ih =>
      simp only [start_all] at h
      split at h
      · obtain ⟨⟨c₁, started⟩, hfirst, h⟩ := Option.bind_eq_some_iff.mp h
        obtain ⟨⟨c₂, rest⟩, hrest, h⟩ := Option.bind_eq_some_iff.mp h
        cases h
        obtain ⟨hstore, hwithin⟩ := do_lru_crawler_start_within hfirst
        obtain ⟨hs₂, hwithin'⟩ := ih (hs.do_lru_crawler_start hstore).1 hrest
        exact ⟨hs₂, hwithin.append hwithin'⟩
      · obtain ⟨⟨c₁, started⟩, hfirst, h⟩ := Option.bind_eq_some_iff.mp h
        obtain ⟨⟨c₂, rest⟩, hrest, h⟩ := Option.bind_eq_some_iff.mp h
        cases hfirst
        cases h
        exact ih hs hrest

theorem stats_within : Within Mutex.lru_locks [.lru_crawler_lock]
    ([.lock .stats_lock, .unlock .stats_lock] : List CrawlerAction) :=
  Within.around .nil (by simp)

theorem init_within (mod : Module) (calloc : Bool) : Within Mutex.lru_locks [.lru_crawler_lock] (mod.init calloc) := by
  cases mod <;> cases calloc <;> first | exact .nil | exact Within.around .nil (by simp)

theorem lru_crawler_start_within {ids : UInt8 → Bool} {remaining : UInt32} {type : CrawlerRunType} {start : Start}
    (hs : c.store.Sound) (h : c.lru_crawler_start ids remaining type start = some (c', as)) :
    c'.store.Sound ∧ Within Mutex.lru_locks [] as := by
  have hheld : Mutex.lru_crawler_lock ∉ ([] : List Mutex) := List.not_mem_nil
  have hbefore := stats_within.append (init_within type.mod start.calloc)
  unfold lru_crawler_start at h
  dsimp only at h
  split at h
  · cases h
    exact ⟨hs, stats_within.around hheld⟩
  split at h
  · cases h
    exact ⟨hs, stats_within.around hheld⟩
  split at h
  · obtain ⟨⟨c₁, started⟩, hstart, h⟩ := Option.bind_eq_some_iff.mp h
    cases h
    obtain ⟨hs₁, hwithin⟩ := start_all_within hs hstart
    exact ⟨hs₁, (stats_within.append hwithin).around hheld⟩
  split at h
  · cases h
    exact ⟨hs, hbefore.around hheld⟩
  · obtain ⟨⟨c₁, started⟩, hstart, h⟩ := Option.bind_eq_some_iff.mp h
    cases h
    obtain ⟨hs₁, hwithin⟩ := start_all_within (by exact hs) hstart
    exact ⟨hs₁, (hbefore.append hwithin).around hheld⟩

/-! ## Runs -/

variable {cfg : Settings} {safe_strtoul : List UInt8 → Option UInt32} {e : CrawlEvent}

/-- Whether the crawler thread takes the step. -/
def by_thread : CrawlEvent → Bool
  | .turn .. | .sleep => true
  | .crawl .. | .other _ => false

/-- No class is given up for want of a client, and none that is asked for is bad. -/
def locks_kept (safe_strtoul : List UInt8 → Option UInt32) (c : Crawling) : CrawlEvent → Prop
  | .turn i t => ¬ c.gives_up i t
  | .crawl slabs .. => (tocrawl safe_strtoul slabs).isSome
  | .sleep | .other _ => True

/-- The expired module evaluates no item. -/
def reads_kept (c : Crawling) : CrawlEvent → Prop
  | .turn i t => ¬ c.evaluates i t
  | .crawl .. | .sleep | .other _ => True

theorem sleep_within : Within Mutex.lru_locks [.lru_crawler_lock] (c.mod.elim [] Module.finalize ++
    [.lock .stats_lock, .unlock .stats_lock]) := by
  refine Within.append ?_ stats_within
  cases c.mod with
  | none => exact .nil
  | some mod => cases mod <;> first | exact .nil | exact Within.around .nil (by simp)

theorem thread_step (dropped : List Ptr) (hs : c.store.Sound) (he : by_thread e)
    (h : c.step cfg safe_strtoul e = some (c', as)) :
    c'.store.Sound ∧ (Locked Mutex.lru_locks [.lru_crawler_lock] as ↔ locks_kept safe_strtoul c e) ∧
      (locks_kept safe_strtoul c e → as.foldl held_after [.lru_crawler_lock] = [.lru_crawler_lock] ∧ Once as) ∧
      (Live dropped as ↔ reads_kept c e) := by
  cases e with
  | turn i t =>
      obtain ⟨mod, client, hstore⟩ := turn_store h
      have hactions := turn_actions hs h
      exact ⟨hs.item_crawler_thread hstore, hactions.locked_iff.1, hactions.locked_iff.2, hactions.live_iff⟩
  | sleep =>
      cases h
      have hwithin := sleep_within (c := c)
      refine ⟨hs, iff_of_true (locked_append.mpr ⟨hwithin.locked, ?_⟩) trivial, fun _ => ⟨?_, ?_, ?_⟩, iff_of_true ?_ trivial⟩
      · rw [hwithin.held_same]
        simp [Locked]
      · rw [List.foldl_append, hwithin.held_same]
        simp [held_after]
      · cases c.mod with
        | none => simp [taken]
        | some mod => cases mod <;> simp [taken, Module.finalize]
      · exact hwithin.balanced.append (.refl _)
      · cases c.mod with
        | none => simp [Live]
        | some mod => cases mod <;> simp [Live, Module.finalize]
  | crawl => cases he
  | other => cases he

theorem worker_step (hs : c.store.Sound) (he : ¬ by_thread e) (h : c.step cfg safe_strtoul e = some (c', as)) :
    c'.store.Sound ∧ (Locked Mutex.lru_locks [] as ∧ Balanced as ↔ locks_kept safe_strtoul c e) ∧ reads_kept c e := by
  cases e with
  | turn => exact absurd rfl he
  | sleep => exact absurd rfl he
  | crawl slabs type remaining start =>
      simp only [step, lru_crawler_crawl] at h
      cases hids : tocrawl safe_strtoul slabs with
      | none =>
          rw [hids] at h
          cases h
          exact ⟨hs, iff_of_false (fun hl => by simp [Locked] at hl) (by simp [locks_kept, hids]), trivial⟩
      | some ids =>
          rw [hids] at h
          obtain ⟨hs', hwithin⟩ := lru_crawler_start_within hs h
          exact ⟨hs', iff_of_true ⟨hwithin.locked, hwithin.balanced⟩ (by simp [locks_kept, hids]), trivial⟩
  | other e =>
      simp only [step] at h
      split at h
      · cases h
      obtain ⟨s, hstep, heq⟩ := Option.map_eq_some_iff.mp h
      obtain ⟨rfl, rfl⟩ := Prod.mk.inj heq
      exact ⟨hs.step hstep, iff_of_true ⟨trivial, .refl _⟩ trivial, trivial⟩

/-- The steps, with what they do. -/
def Step (cfg : Settings) (safe_strtoul : List UInt8 → Option UInt32) (c : Crawling)
    (l : CrawlEvent × List CrawlerAction) (c' : Crawling) : Prop := c.step cfg safe_strtoul l.1 = some (c', l.2)

/-- What the crawler thread does in a run. -/
def thread_actions (ls : List (CrawlEvent × List CrawlerAction)) : List CrawlerAction :=
  ls.flatMap fun l => if by_thread l.1 then l.2 else []

/-- The crawler thread changes a list under its lock, unlocks what it holds, and gives back in a turn what it took in it;
so does each call of a worker. -/
structure LockDiscipline (ls : List (CrawlEvent × List CrawlerAction)) : Prop where
  thread : Locked Mutex.lru_locks [.lru_crawler_lock] (thread_actions ls)
  turns : ∀ l ∈ ls, by_thread l.1 → Once l.2
  workers : ∀ l ∈ ls, ¬ by_thread l.1 → Locked Mutex.lru_locks [] l.2 ∧ Balanced l.2

variable {l : CrawlEvent × List CrawlerAction} {ls : List (CrawlEvent × List CrawlerAction)} {c₁ : Crawling}

theorem thread_actions_cons : thread_actions (l :: ls) = (if by_thread l.1 then l.2 else []) ++ thread_actions ls := rfl

theorem lockDiscipline_cons (hs : c.store.Sound) (h : Step cfg safe_strtoul c l c₁) :
    LockDiscipline (l :: ls) ↔ locks_kept safe_strtoul c l.1 ∧ LockDiscipline ls := by
  obtain ⟨e, as⟩ := l
  by_cases he : by_thread e
  · obtain ⟨-, hlocked, hkept, -⟩ := thread_step [] hs he h
    constructor
    · intro hd
      have hthread := hd.thread
      rw [thread_actions_cons, if_pos he, locked_append, hlocked] at hthread
      obtain ⟨hk, hrest⟩ := hthread
      rw [(hkept hk).1] at hrest
      exact ⟨hk, hrest, fun l hl => hd.turns l (List.mem_cons_of_mem _ hl), fun l hl => hd.workers l (List.mem_cons_of_mem _ hl)⟩
    · rintro ⟨hk, hd⟩
      refine ⟨?_, fun l hl hb => ?_, fun l hl hb => ?_⟩
      · rw [thread_actions_cons, if_pos he, locked_append, hlocked, (hkept hk).1]
        exact ⟨hk, hd.thread⟩
      · rcases List.mem_cons.mp hl with rfl | hl
        · exact (hkept hk).2
        · exact hd.turns l hl hb
      · rcases List.mem_cons.mp hl with rfl | hl
        · exact absurd he hb
        · exact hd.workers l hl hb
  · obtain ⟨-, hkept, -⟩ := worker_step hs he h
    have hsame : thread_actions ((e, as) :: ls) = thread_actions ls := by
      rw [thread_actions_cons, if_neg he, List.nil_append]
    constructor
    · intro hd
      exact ⟨hkept.mp (hd.workers _ List.mem_cons_self he), hsame ▸ hd.thread,
        fun l hl => hd.turns l (List.mem_cons_of_mem _ hl), fun l hl => hd.workers l (List.mem_cons_of_mem _ hl)⟩
    · rintro ⟨hk, hd⟩
      refine ⟨hsame ▸ hd.thread, fun l hl hb => ?_, fun l hl hb => ?_⟩
      · rcases List.mem_cons.mp hl with rfl | hl
        · exact absurd hb he
        · exact hd.turns l hl hb
      · rcases List.mem_cons.mp hl with rfl | hl
        · exact hkept.mpr hk
        · exact hd.workers l hl hb

theorem live_cons {dropped : List Ptr} (hs : c.store.Sound) (h : Step cfg safe_strtoul c l c₁) :
    Live dropped (thread_actions (l :: ls)) ↔ reads_kept c l.1 ∧
      Live ((if by_thread l.1 then l.2 else []).foldl dropped_after dropped) (thread_actions ls) := by
  rw [thread_actions_cons, live_append]
  by_cases he : by_thread l.1
  · obtain ⟨-, -, -, hlive⟩ := thread_step dropped hs he h
    rw [if_pos he, hlive]
  · obtain ⟨-, -, hkept⟩ := worker_step hs he h
    rw [if_neg he]
    exact and_congr_left fun _ => iff_of_true trivial hkept

theorem step_sound (hs : c.store.Sound) (h : Step cfg safe_strtoul c l c₁) : c₁.store.Sound := by
  by_cases he : by_thread l.1
  · exact (thread_step [] hs he h).1
  · exact (worker_step hs he h).1

theorem run_guarded_cons {P : Crawling → CrawlEvent → Prop} (h : Step cfg safe_strtoul c l c₁) :
    Run (fun c l c' => P c l.1 ∧ Step cfg safe_strtoul c l c') c (l :: ls) c' ↔
      P c l.1 ∧ Run (fun c l c' => P c l.1 ∧ Step cfg safe_strtoul c l c') c₁ ls c' := by
  rw [run_cons]
  constructor
  · rintro ⟨c₂, ⟨hp, hstep⟩, hrun⟩
    obtain ⟨rfl, -⟩ := Prod.mk.inj (Option.some.inj (h.symm.trans hstep))
    exact ⟨hp, hrun⟩
  · rintro ⟨hp, hrun⟩
    exact ⟨c₁, ⟨hp, h⟩, hrun⟩

theorem run_live_iff {dropped : List Ptr} (hs : c.store.Sound) (h : Run (Step cfg safe_strtoul) c ls c') :
    Live dropped (thread_actions ls) ↔
      Run (fun c l c' => reads_kept c l.1 ∧ Step cfg safe_strtoul c l c') c ls c' := by
  induction h generalizing dropped with
  | nil c => exact iff_of_true trivial (.nil c)
  | cons hstep _ ih => rw [live_cons hs hstep, run_guarded_cons hstep, ih (step_sound hs hstep)]

/-- In a run of the crawler thread and of those who start crawls, mutexes are used as they should be if and only if no
class is given up for want of a client and no class list is bad; and items are read in time if and only if the expired
module evaluates none. -/
theorem crawler_discipline_iff (hs : c.store.Sound) (h : Run (Step cfg safe_strtoul) c ls c') :
    (LockDiscipline ls ↔ Run (fun c l c' => locks_kept safe_strtoul c l.1 ∧ Step cfg safe_strtoul c l c') c ls c') ∧
      (Live [] (thread_actions ls) ↔
        Run (fun c l c' => reads_kept c l.1 ∧ Step cfg safe_strtoul c l c') c ls c') := by
  refine ⟨?_, run_live_iff hs h⟩
  induction h with
  | nil c =>
      refine iff_of_true ⟨trivial, fun l hl => ?_, fun l hl => ?_⟩ (.nil c) <;> exact absurd hl List.not_mem_nil
  | cons hstep _ ih => rw [lockDiscipline_cons hs hstep, run_guarded_cons hstep, ih (step_sound hs hstep)]

/-- `safe_strtoul`, of one digit. -/
def digit : List UInt8 → Option UInt32
  | [d] => if 48 ≤ d ∧ d ≤ 57 then some (d - 48).toUInt32 else none
  | _ => none

/-- An item in an LRU. -/
def one : List Event := [.alloc ⟨[97], 0, 0, 3⟩ [⟨some (.item 0), 0, [], [], []⟩], .link 0, .remove 0]

theorem one_runs : (one.foldlM (Store.step Store.settings) Store.empty).isSome := by decide +kernel

def idle : Crawling where
  store := (one.foldlM (Store.step Store.settings) Store.empty).get one_runs
  mod := none
  client := false
  active_crawler_type := .CRAWLER_EXPIRED
  lru_crawler_running := false
  block_ae_until := 0

theorem idle_sound : idle.store.Sound := Store.run_sound (Run.of_foldlM (Option.some_get one_runs).symm)

def crawl_one : CrawlEvent := .crawl [49] .CRAWLER_EXPIRED 0 ⟨false, true, false⟩

def turn_one : CrawlEvent := .turn 1 ⟨.ok, true, true, false⟩

theorem idle_starts : (idle.step Store.settings digit crawl_one).isSome := by decide +kernel

/-- The crawl of class 1 has been started. -/
def started : Crawling := ((idle.step Store.settings digit crawl_one).get idle_starts).1

theorem started_turns : (started.step Store.settings digit turn_one).isSome := by decide +kernel

/-- A crawl that is started, and its first item. -/
def crawled : List (CrawlEvent × List CrawlerAction) :=
  [(crawl_one, ((idle.step Store.settings digit crawl_one).get idle_starts).2),
    (turn_one, ((started.step Store.settings digit turn_one).get started_turns).2)]

theorem step_get (h : (c.step cfg safe_strtoul e).isSome) :
    Step cfg safe_strtoul c (e, ((c.step cfg safe_strtoul e).get h).2) ((c.step cfg safe_strtoul e).get h).1 :=
  (Option.some_get h).symm

theorem crawled_run :
    Run (Step Store.settings digit) idle crawled ((started.step Store.settings digit turn_one).get started_turns).1 :=
  .cons (step_get idle_starts) (.cons (step_get started_turns) (.nil _))

theorem crawler_discipline_iff_witness :
    ∃ c', (LockDiscipline crawled ↔
        Run (fun c l c' => locks_kept digit c l.1 ∧ Step Store.settings digit c l c') idle crawled c') ∧
      (Live [] (thread_actions crawled) ↔
        Run (fun c l c' => reads_kept c l.1 ∧ Step Store.settings digit c l c') idle crawled c') :=
  ⟨_, crawler_discipline_iff idle_sound crawled_run⟩

theorem bad_class_step {slabs : List UInt8} {type : CrawlerRunType} {remaining : UInt32} {start : Start}
    (h : tocrawl safe_strtoul slabs = none) :
    Step cfg safe_strtoul c (.crawl slabs type remaining start, [.unlock .lru_crawler_lock]) c := by
  simp only [Step, step, lru_crawler_crawl, h]

theorem crawled_actions : thread_actions crawled =
    [.lock (.lru_locks 1), .change 1, .find (.item 0), .read (.item 0), .lock (.item_lock (.item 0)), .lock .data_lock,
      .read (.item 0), .drop (.item 0), .read (.item 0), .unlock .data_lock, .unlock (.item_lock (.item 0)),
      .unlock (.lru_locks 1)] := by decide +kernel

theorem crawled_not_live : ¬ Live [] (thread_actions crawled) := by
  rw [crawled_actions]
  simp [Live]

/-- `lru_crawler crawl 0` unlocks a mutex that it does not hold, and the first item of a crawl is read after the reference
to it was given up. -/
theorem crawler_breaks_discipline :
    (∃ ls c', Run (Step Store.settings digit) idle ls c' ∧ ¬ LockDiscipline ls) ∧
      ∃ c', Run (Step Store.settings digit) idle crawled c' ∧ ¬ Live [] (thread_actions crawled) := by
  constructor
  · have hbad : tocrawl digit [48] = none := by decide
    refine ⟨[(.crawl [48] .CRAWLER_EXPIRED 0 ⟨false, true, false⟩, [.unlock .lru_crawler_lock])], idle,
      .cons (bad_class_step hbad) (.nil idle), fun h => ?_⟩
    have hlocked := (h.workers _ List.mem_cons_self Bool.false_ne_true).1
    exact absurd hlocked.1 List.not_mem_nil
  · exact ⟨_, crawled_run, crawled_not_live⟩

end Crawling

end Memcached.MemoryLru

import Memcached.MemoryLru.Crawler
import Memcached.MemoryLru.Lemmas.Pulls

/-!
# The crawler keeps the store consistent

A crawler in a queue counts as no item, so the sizes stay; only its own place and flags change.
-/

namespace Memcached.MemoryLru

open Linked

namespace Store

/-- No item changed but for its links, and no item was linked or unlinked. -/
structure Crawled (s s' : Store) : Prop where
  core : ∀ n, (s'.heap (.item n)).core = (s.heap (.item n)).core
  rest : s' = { s with heap := s'.heap, heads := s'.heads, tails := s'.tails, remaining := s'.remaining }

section
variable {s s' : Store} {l : UInt8 → List Ptr} {i : UInt8} {p : Ptr}

theorem Crawled.trans {s'' : Store} (h : Crawled s s') (h' : Crawled s' s'') : Crawled s s'' :=
  ⟨fun n => (h'.core n).trans (h.core n), by rw [h'.rest, h.rest]⟩

theorem Requeued.crawled {id : UInt8} {q : Queue Ptr} (h : Requeued s s' id q) : Crawled s s' :=
  ⟨fun n => h.core _, by rw [h.rest]⟩

theorem crawled_modify {f : Item → Item} : Crawled s (s.modify (.crawler i) f) :=
  ⟨fun n => by rw [modify_of_ne (by simp)], rfl⟩

theorem Requeued.counted_items {q : Queue Ptr} {xs : List Ptr} (hc : Counted s l) (h : Requeued s s' i q)
    (hq : q.Holds xs) (hxs : ∀ p ∈ xs, (s.heap p).slabs_clsid = i)
    (hlinks : ∀ p, p ∉ l i → p ∉ xs → q.next p = (s.heap p).next ∧ q.prev p = (s.heap p).prev)
    (hitems : items xs = items (l i)) : Counted s' (Function.update l i xs) := by
  obtain ⟨hholds, hclsid⟩ := h.counted hc hq hxs hlinks
  have hsame (j) : items (Function.update l i xs j) = items (l j) := by
    by_cases hj : j = i
    · subst hj; simpa using hitems
    · simp [hj]
  refine ⟨hholds, hclsid, fun j => ?_, fun j => ?_⟩
  · rw [hsame, ← hc.sizes, h.rest]
  · have hbytes : s'.bytes Item.accounted (Function.update l i xs j) = s.bytes Item.accounted (l j) := by
      simp only [bytes, hsame]
      exact congrArg List.sum (List.map_congr_left fun p _ => Item.core_congr Item.accounted (fun _ => rfl) (h.core p))
    rw [hbytes, ← hc.sizes_bytes, h.rest]

theorem Consistent.of_crawler {l' : UInt8 → List Ptr} (hc : Consistent s l) (h : Crawled s s') (hcount : Counted s' l')
    (hplaced : Placed s' l' (.crawler i)) (hcore : ∀ p, p ≠ .crawler i → (s'.heap p).core = (s.heap p).core)
    (hmem : ∀ p, p ≠ .crawler i → ∀ id, p ∈ l' id ↔ p ∈ l id) (hitems : ∀ id, items (l' id) = items (l id)) :
    Consistent s' l' := by
  have htotal {g : Item → UInt64} (hg : ∀ i : Item, g i.core = g i) : s'.total g l' = s.total g l := by
    refine Finset.sum_congr rfl fun id _ => ?_
    simp only [bytes, hitems]
    refine congrArg List.sum (List.map_congr_left fun p hp => ?_)
    cases p with
    | item n => exact Item.core_congr g hg (h.core n)
    | crawler j => simp [items] at hp
  refine hc.of_one hcount hplaced hcore hmem (fun p _ k => by rw [h.rest]) ?_ ?_
  · rw [htotal fun _ => rfl, ← hc.curr_items, h.rest]
  · rw [htotal fun _ => rfl, ← hc.curr_bytes, h.rest]

/-! ## Start -/

@[simp] theorem set_remaining_heap {r : UInt32} : (s.set_remaining i r).heap = s.heap := rfl

theorem Sound.do_lru_crawler_start {remaining : UInt32} (h : s.Sound)
    (hs : s.do_lru_crawler_start i remaining = some s') : s'.Sound ∧ Crawled s s' := by
  simp only [Store.do_lru_crawler_start] at hs
  split at hs
  case isFalse => cases hs; exact ⟨h, fun _ => rfl, rfl⟩
  next hzero =>
  obtain ⟨l, hc⟩ := h
  have hnone := hc.not_mem (p := .crawler i) (by simp [hzero, Flags.zero])
  generalize (if _ ≠ (0 : UInt32) then _ else _) = r at hs
  obtain ⟨-, -, hre⟩ := do_item_linktail_q_requeued hs
  have hclsid : (((s.modify (.crawler i) (crawler_init i)).set_remaining i r).heap (.crawler i)).slabs_clsid = i := by
    simp [crawler_init]
  rw [hclsid] at hre
  have hcount : Counted ((s.modify (.crawler i) (crawler_init i)).set_remaining i r) l :=
    (hc.toCounted.modify (f := crawler_init i) fun id hm => absurd hm (hnone id)).congr rfl rfl rfl rfl rfl
  have hholds := hcount.holds i
  have hcrawled : Crawled s s' := Crawled.trans ⟨fun n => by simp [modify_of_ne], rfl⟩ hre.crawled
  have hcore : (s'.heap (.crawler i)).core = (crawler_init i (s.heap (.crawler i))).core := by
    rw [hre.core]
    simp
  have hflags : (s'.heap (.crawler i)).it_flags = .one := Item.core_congr Item.it_flags (fun _ => rfl) hcore
  have hclsid' : (s'.heap (.crawler i)).slabs_clsid = i := Item.core_congr Item.slabs_clsid (fun _ => rfl) hcore
  have hcount' : Counted s' (Function.update l i (l i ++ [.crawler i])) := by
    refine hre.counted_items hcount (hholds.push_back (hnone i)) (fun p hp => ?_) (fun p hp hp' => ?_) ?_
    · rcases List.mem_append.mp hp with hp | hp
      · exact hcount.clsid i p hp
      · obtain rfl := List.mem_singleton.mp hp
        exact hclsid
    · exact hholds.push_back_links hp fun he => hp' (by simp [he])
    · simp [items]
  refine ⟨⟨_, hc.of_crawler (i := i) hcrawled hcount' ?_ ?_ ?_ ?_⟩, hcrawled⟩
  · refine ⟨?_, fun k => ?_, .inr ⟨hflags, hclsid'⟩, Item.core_congr Item.nbytes (fun _ => rfl) hcore,
      Item.core_congr Item.key (fun _ => rfl) hcore⟩
    · rw [hclsid', hflags]
      exact iff_of_true (by simp) rfl
    · rw [hcrawled.rest]
      exact iff_of_false (fun he => absurd (((hc.placed _).table k).mp he).1 (by simp))
        fun he => absurd he.1 (by simp)
  · intro p hp
    rw [hre.core, set_remaining_heap, modify_of_ne hp]
  · intro p hp j
    by_cases hj : j = i
    · subst hj; simp [hp]
    · simp [hj]
  · intro j
    by_cases hj : j = i
    · subst hj; simp [items]
    · simp [hj]

/-! ## End -/

theorem Consistent.class_done (hc : Consistent s l) (hmem : .crawler i ∈ l i)
    (hre : Requeued (s.modify (.crawler i) fun c => { c with it_flags := .zero }) s' i
      ((s.queue i).remove (.crawler i))) : Consistent s' (Function.update l i ((l i).erase (.crawler i))) ∧ Crawled s s' := by
  have hholds := hc.holds i
  obtain ⟨hflags₀, hnbytes, hkey⟩ := (hc.placed (.crawler i)).kind
  have hone : (s.heap (.crawler i)).it_flags = .one := by
    rcases hflags₀ with hzero | ⟨hone, -⟩
    · have hl := (hc.placed _).linked.mp (hc.mem_clsid hmem)
      simp [hzero, Flags.zero] at hl
    · exact hone
  have hcount : Counted (s.modify (.crawler i) fun c => { c with it_flags := .zero }) l := by
    refine hc.toCounted.modify fun _ _ => ⟨rfl, rfl, rfl, ?_⟩
    simp [Item.accounted, Item.ntotal, hone, Flags.one, Flags.zero]
  have hlinks (p) : ((s.modify (.crawler i) fun c => { c with it_flags := .zero }).heap p).next = (s.heap p).next ∧
      ((s.modify (.crawler i) fun c => { c with it_flags := .zero }).heap p).prev = (s.heap p).prev := by
    by_cases hp : p = .crawler i
    · subst hp; simp
    · rw [modify_of_ne hp]; exact ⟨rfl, rfl⟩
  have hitems : items ((l i).erase (.crawler i)) = items (l i) := by
    obtain ⟨pre, post, hl⟩ := List.append_of_mem hmem
    rw [hl] at hholds ⊢
    rw [List.erase_append_right _ hholds.not_mem_mid.1]
    simp [items]
  have hcrawled : Crawled s s' := crawled_modify.trans hre.crawled
  have hcore : (s'.heap (.crawler i)).core = Item.core { s.heap (.crawler i) with it_flags := .zero } := by
    rw [hre.core, modify_self]
  have hflags : (s'.heap (.crawler i)).it_flags = .zero := Item.core_congr Item.it_flags (fun _ => rfl) hcore
  have hcount' : Counted s' (Function.update l i ((l i).erase (.crawler i))) := by
    refine hre.counted_items hcount (hholds.remove hmem) (fun p hp => hcount.clsid i p (List.mem_of_mem_erase hp))
      (fun p hp _ => ?_) hitems
    rw [(hlinks p).1, (hlinks p).2]
    exact hholds.remove_links hmem hp
  refine ⟨hc.of_crawler (i := i) hcrawled hcount' ⟨?_, fun k => ?_, .inl hflags, ?_, ?_⟩ (fun p hp => ?_)
    (fun p hp j => mem_update_erase hp j) fun j => ?_, hcrawled⟩
  · rw [hflags]
    exact iff_of_false (hc.toCounted.not_mem_erase hmem _) (by simp [Flags.zero])
  · rw [hcrawled.rest]
    exact iff_of_false (fun he => absurd (((hc.placed _).table k).mp he).1 (by simp))
      fun he => absurd he.1 (by simp)
  · exact (Item.core_congr Item.nbytes (fun _ => rfl) hcore).trans hnbytes
  · exact (Item.core_congr Item.key (fun _ => rfl) hcore).trans hkey
  · rw [hre.core, modify_of_ne hp]
  · by_cases hj : j = i
    · subst hj; simpa using hitems
    · simp [hj]

theorem Consistent.crawler_mem (hc : Consistent s l) (hone : (s.heap (.crawler i)).it_flags = .one) :
    (s.heap (.crawler i)).slabs_clsid = i ∧ .crawler i ∈ l i := by
  obtain ⟨hzero | ⟨-, hclsid⟩, -⟩ := (hc.placed (.crawler i)).kind
  · rw [hone] at hzero
    cases hzero
  · have hmem := (hc.placed (.crawler i)).linked.mpr (by rw [hone]; rfl)
    rw [hclsid] at hmem
    exact ⟨hclsid, hmem⟩

theorem modify_flags_queue {f : Item → Item} {id : UInt8} (hnext : (f (s.heap p)).next = (s.heap p).next)
    (hprev : (f (s.heap p)).prev = (s.heap p).prev) : (s.modify p f).queue id = s.queue id := by
  ext q : 2
  · by_cases hq : q = p
    · subst hq; simp [queue, hnext]
    · simp [queue, modify_of_ne hq]
  · by_cases hq : q = p
    · subst hq; simp [queue, hprev]
    · simp [queue, modify_of_ne hq]
  · rfl
  · rfl

theorem Sound.lru_crawler_class_done (h : s.Sound) (hone : (s.heap (.crawler i)).it_flags = .one)
    (hd : s.lru_crawler_class_done i = some s') : s'.Sound ∧ Crawled s s' := by
  obtain ⟨l, hc⟩ := h
  obtain ⟨hclsid, hmem⟩ := hc.crawler_mem hone
  have hre := do_item_unlinktail_q_requeued hd
  rw [modify_self, hclsid, modify_flags_queue rfl rfl] at hre
  obtain ⟨hc', hcrawled⟩ := hc.class_done hmem hre
  exact ⟨⟨_, hc'⟩, hcrawled⟩

/-- At the head, the crawler is popped off and then unlinked once more. -/
theorem Sound.crawl_done {s₁ : Store} (h : s.Sound) (hone : (s.heap (.crawler i)).it_flags = .one)
    (hcrawl : s.do_item_crawl_q (.crawler i) = some (s₁, none)) (hd : s₁.lru_crawler_class_done i = some s') :
    s'.Sound ∧ Crawled s s' := by
  obtain ⟨-, rfl, -, -⟩ | ⟨-, hprev, hnext, hpop⟩ | ⟨p, hp, -⟩ := do_item_crawl_q_requeued hcrawl
  · exact h.lru_crawler_class_done hone hd
  · obtain ⟨l, hc⟩ := h
    obtain ⟨hclsid, hmem⟩ := hc.crawler_mem hone
    rw [hclsid] at hpop
    have hholds := hc.holds i
    obtain ⟨pre, post, hl⟩ := List.append_of_mem hmem
    rw [hl] at hholds
    obtain rfl : pre = [] := List.getLast?_eq_none_iff.mp (hholds.mid.1.symm.trans hprev)
    obtain ⟨n, post, rfl⟩ : ∃ n post', post = n :: post' := by
      cases post with
      | nil => exact absurd hholds.mid.2 hnext
      | cons n post => exact ⟨n, post, rfl⟩
    have htail : s.tails i ≠ some (.crawler i) := fun he =>
      hholds.not_mem_mid.2.1 (List.mem_of_getLast? (by
        rw [← List.getLast?_cons_cons, ← List.nil_append (.crawler i :: n :: post), ← hholds.tail]; exact he))
    have hre := hpop htail
    have hclsid₁ : (s₁.heap (.crawler i)).slabs_clsid = i :=
      (Item.core_congr Item.slabs_clsid (fun _ => rfl) (hre.core _)).trans hclsid
    have hre' := do_item_unlinktail_q_requeued hd
    rw [modify_self, hclsid₁, modify_flags_queue rfl rfl, hre.queue, Queue.Holds.remove_again hholds] at hre'
    have hboth : Requeued (s.modify (.crawler i) fun c => { c with it_flags := .zero }) s' i
        ((s.queue i).remove (.crawler i)) := by
      refine ⟨hre'.queue, fun j hj => (hre'.heads j hj).trans (hre.heads j hj),
        fun j hj => (hre'.tails j hj).trans (hre.tails j hj), fun p => ?_, ?_⟩
      · rw [hre'.core]
        by_cases hp : p = .crawler i
        · subst hp
          simp only [modify_self]
          exact congrArg (fun c : Item => { c with it_flags := .zero }) (hre.core (.crawler i))
        · rw [modify_of_ne hp, modify_of_ne hp, hre.core]
      · rw [hre'.rest, Store.modify, hre.rest]
        rfl
    obtain ⟨hc', hcrawled⟩ := hc.class_done hmem hboth
    exact ⟨⟨_, hc'⟩, hcrawled⟩
  · cases hp

theorem Sound.crawl_past {s₁ : Store} (h : s.Sound) (hone : (s.heap (.crawler i)).it_flags = .one)
    (hcrawl : s.do_item_crawl_q (.crawler i) = some (s₁, some p)) :
    s₁.Sound ∧ Crawled s s₁ ∧ (s₁.heap (.crawler i)).it_flags = .one ∧
      ∃ n, p = .item n ∧ (s₁.heap (.item n)).it_flags.linked := by
  obtain ⟨hp, -⟩ | ⟨hp, -⟩ | ⟨p', hp, hprev, hswap⟩ := do_item_crawl_q_requeued hcrawl
  · cases hp
  · cases hp
  cases hp
  obtain ⟨l, hc⟩ := h
  obtain ⟨hclsid, hmem⟩ := hc.crawler_mem hone
  rw [hclsid] at hswap
  have hholds := hc.holds i
  obtain ⟨pre', post, hl⟩ := List.append_of_mem hmem
  rw [hl] at hholds
  obtain ⟨pre, rfl⟩ : ∃ pre, pre' = pre ++ [p] := by
    have hlast : pre'.getLast? = some p := hholds.mid.1.symm.trans hprev
    exact ⟨pre'.dropLast, (List.dropLast_append_getLast? p hlast).symm⟩
  rw [List.append_assoc, List.singleton_append] at hholds hl
  have hne : p ≠ .crawler i := fun he => hholds.not_mem_mid.2.1 (by simp [he])
  have hself : (s.heap p).prev ≠ some p := fun he =>
    hholds.not_mem_mid.1 (List.mem_of_getLast? (hholds.mid.1.symm.trans he))
  have hre := hswap hself
  have hmemp : p ∈ l i := by simp [hl]
  have hcount : Counted s₁ (Function.update l i (pre ++ .crawler i :: p :: post)) := by
    refine hre.counted_items hc.toCounted hholds.swap (fun q hq => hc.clsid i q ?_) (fun q hq _ => ?_) ?_
    · rw [hl]
      simp only [List.mem_append, List.mem_cons] at hq ⊢
      tauto
    · exact (hc.holds i).swap_links hmem hmemp hq
    · rw [hl]
      simp [items, List.filter_cons]
  have hcrawled := hre.crawled
  have hperm (q id) : q ∈ Function.update l i (pre ++ .crawler i :: p :: post) id ↔ q ∈ l id := by
    by_cases hj : id = i
    · subst hj
      rw [Function.update_self, hl]
      simp only [List.mem_append, List.mem_cons]
      tauto
    · rw [Function.update_of_ne hj]
  have hflags (q) : (s₁.heap q).it_flags = (s.heap q).it_flags := Item.core_congr Item.it_flags (fun _ => rfl) (hre.core q)
  have hlinked := (hc.placed p).linked.mp (hc.mem_clsid hmemp)
  refine ⟨⟨_, hc.of_crawler (i := i) hcrawled hcount ((hc.placed _).congr (hre.core _) (hperm _) fun k => by rw [hcrawled.rest])
    (fun q _ => hre.core q) (fun q _ => hperm q) fun id => ?_⟩, hcrawled, (hflags _).trans hone, ?_⟩
  · by_cases hj : id = i
    · subst hj
      rw [Function.update_self, hl]
      simp [items, List.filter_cons]
    · rw [Function.update_of_ne hj]
  · cases p with
    | item n => exact ⟨n, rfl, by rw [hflags]; exact hlinked⟩
    | crawler j =>
        obtain ⟨hzero | ⟨-, hj⟩, -⟩ := (hc.placed (.crawler j)).kind
        · simp [hzero, Flags.zero] at hlinked
        · exact absurd (congrArg Ptr.crawler (hj.symm.trans (hc.clsid i _ hmemp))) hne

/-! ## The thread -/

theorem crawl_cases {mod : CrawlerMod} {lock : Bool} (h : s.crawl p mod lock = some s') :
    s' = s ∨ s' = (s.refcount_incr p).refcount_decr p ∨
      ∃ s₁, (s.refcount_incr p).do_item_unlink p = some s₁ ∧ s₁.do_item_remove p = some s' := by
  simp only [crawl] at h
  split at h
  · exact .inl (Option.some.inj h).symm
  split at h
  · exact .inr (.inl (Option.some.inj h).symm)
  cases mod with
  | metadump => exact .inr (.inl (Option.some.inj h).symm)
  | expired is_valid =>
      simp only [crawler_expired_eval] at h
      split at h
      · obtain ⟨s₁, hunlink, h⟩ := Option.bind_eq_some_iff.mp h
        obtain ⟨s₂, hremove, h⟩ := Option.bind_eq_some_iff.mp h
        split at h
        · cases h; exact .inr (.inr ⟨s₁, hunlink, hremove⟩)
        · cases h
      · exact .inr (.inl (Option.some.inj h).symm)

/-- The thread moves or stops the crawler, and then maybe looks at the item it came to. -/
theorem item_crawler_thread_cases {mod : CrawlerMod} {client lock : Bool} (h : s.Sound)
    (hs : s.item_crawler_thread i mod client lock = some s') : ∃ s₁, s₁.Sound ∧ Crawled s s₁ ∧
      (s' = s₁ ∨ ∃ n, (s₁.heap (.item n)).it_flags.linked ∧ s₁.crawl (.item n) mod lock = some s') := by
  simp only [item_crawler_thread] at hs
  split at hs
  · cases hs
    exact ⟨s, h, ⟨fun _ => rfl, rfl⟩, .inl rfl⟩
  next hone =>
  rw [not_not] at hone
  split at hs
  · obtain ⟨hs', hcrawled⟩ := h.lru_crawler_class_done hone hs
    exact ⟨s', hs', hcrawled, .inl rfl⟩
  obtain ⟨⟨s₁, search⟩, hcrawl, hs⟩ := Option.bind_eq_some_iff.mp hs
  cases search with
  | none =>
      obtain ⟨hs', hcrawled⟩ := h.crawl_done hone hcrawl hs
      exact ⟨s', hs', hcrawled, .inl rfl⟩
  | some p =>
      obtain ⟨hs₁, hcrawled, hone₁, n, rfl, hlinked⟩ := h.crawl_past hone hcrawl
      have hset (r) : (s₁.set_remaining i r).Sound ∧ Crawled s (s₁.set_remaining i r) :=
        ⟨hs₁.congr rfl, hcrawled.trans ⟨fun _ => rfl, rfl⟩⟩
      dsimp only at hs
      split_ifs at hs with hzero hlast
      · exact ⟨s₁, hs₁, hcrawled, .inr ⟨n, hlinked, hs⟩⟩
      · obtain ⟨hs', hcrawled'⟩ := (hset _).1.lru_crawler_class_done hone₁ hs
        exact ⟨s', hs', (hset _).2.trans hcrawled', .inl rfl⟩
      · exact ⟨_, (hset _).1, (hset _).2, .inr ⟨n, hlinked, hs⟩⟩

theorem Sound.crawl {n : Nat} {mod : CrawlerMod} {lock : Bool} (h : s.Sound)
    (hs : s.crawl (.item n) mod lock = some s') : s'.Sound := by
  obtain rfl | rfl | ⟨s₁, hunlink, hremove⟩ := crawl_cases hs
  · exact h
  · exact h.refcount_incr.refcount_decr
  · exact (h.refcount_incr.do_item_unlink hunlink).do_item_remove hremove

theorem Sound.item_crawler_thread {mod : CrawlerMod} {client lock : Bool} (h : s.Sound)
    (hs : s.item_crawler_thread i mod client lock = some s') : s'.Sound := by
  obtain ⟨s₁, hs₁, -, rfl | ⟨n, -, hcrawl⟩⟩ := item_crawler_thread_cases h hs
  · exact hs₁
  · exact hs₁.crawl hcrawl

end

/-! ## The cache -/

variable {cfg : Settings} {s s' : Store} {e : Event}

theorem Sound.step (h : s.Sound) (hs : Step cfg s e s') : s'.Sound := by
  cases e with
  | alloc new rounds =>
      obtain ⟨⟨s₁, r⟩, ha, rfl⟩ := Option.map_eq_some_iff.mp hs
      exact h.do_item_alloc ha
  | link n =>
      simp only [Step, Store.step] at hs
      split at hs
      · next hkey => exact h.do_item_link hkey hs
      · cases hs
  | unlink n => exact h.do_item_unlink hs
  | unlink_nolock n => exact h.do_item_unlink hs
  | remove n => exact h.release hs
  | replace n m =>
      simp only [Step, Store.step] at hs
      split at hs
      · next hkey => exact h.do_item_replace hkey hs
      · cases hs
  | update n => exact h.do_item_update hs
  | update_nolock n => exact h.do_item_update_nolock hs
  | get key do_update room =>
      obtain ⟨⟨s₁, r⟩, hg, rfl⟩ := Option.map_eq_some_iff.mp hs
      exact h.do_item_get hg
  | touch key exptime room =>
      obtain ⟨⟨s₁, r⟩, ht, rfl⟩ := Option.map_eq_some_iff.mp hs
      exact h.do_item_touch ht
  | pull a locks =>
      obtain ⟨⟨s₁, removed, r⟩, hp, rfl⟩ := Option.map_eq_some_iff.mp hs
      exact h.lru_pull_tail hp
  | bump n => exact h.lru_maintainer_bump hs
  | crawler_start sid remaining => exact (h.do_lru_crawler_start hs).1
  | crawler i mod client lock => exact h.item_crawler_thread hs
  | tick now =>
      simp only [Step, Store.step] at hs
      split at hs
      · cases hs; exact h.congr rfl
      · cases hs
  | flush oldest_live oldest_cas =>
      cases hs
      exact h.congr rfl

theorem sound_empty : empty.Sound := by
  refine ⟨fun _ => [], ⟨⟨fun _ => ⟨List.nodup_nil, rfl, rfl, trivial⟩, fun _ _ hp => absurd hp List.not_mem_nil,
    fun _ => rfl, fun _ => rfl⟩, fun p => ?_, ?_, ?_⟩⟩
  · cases p with
    | item n => exact ⟨by simp [empty, Flags.zero], by simp [empty, Flags.zero], by simp [empty], by simp [empty, Flags.zero]⟩
    | crawler id =>
        exact ⟨by simp [empty, Flags.zero], by simp [empty], .inl rfl, rfl, rfl⟩
  · simp [empty, total, bytes, items]
  · simp [empty, total, bytes, items]

end Store

end Memcached.MemoryLru

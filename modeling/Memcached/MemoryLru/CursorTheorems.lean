import Memcached.MemoryLru.Cursor
import Memcached.MemoryLru.ItemTheorems

/-!
# What a crawl returns

The crawler is a node of the list it walks through. The list of the real items is what links and unlinks alone would
have made of it, and the crawler comes past each of those that stay.
-/

namespace Memcached.MemoryLru.Store

open Cursor Linked Transition

variable {s s' : Store} {i : UInt8} {w w' : Position Nat}

/-! ## One call -/

/-- `do_item_crawl_q` fails no assertion: it returns the item in front of the crawler. -/
theorem CrawlerAt.crawl_q (h : CrawlerAt s i w) :
    ∃ s', s.do_item_crawl_q (.crawler i) = some (s', w.ahead.getLast?.map .item) := by
  obtain ⟨ahead, behind⟩ := w
  obtain ⟨hprev, hnext⟩ := h.holds.mid
  obtain ⟨hhead, htail⟩ := And.intro h.holds.head h.holds.tail
  dsimp only at *
  simp only [queue] at hprev hnext hhead
  unfold do_item_crawl_q
  dsimp only
  rw [if_neg (by simp [h.it_flags, h.nbytes]), h.slabs_clsid]
  obtain rfl | ⟨ahead, x, rfl⟩ := List.eq_nil_or_concat ahead
  · rw [hprev, hnext, hhead]
    cases behind with
    | nil => exact ⟨s, by simp⟩
    | cons b behind =>
        have hb : (s.heap (.item b)).prev = some (.crawler i) := by
          have hmid := (Queue.Holds.mid (show (s.queue i).Holds ([.crawler i] ++ .item b :: behind.map .item) from h.holds)).1
          simpa [queue] using hmid
        simp [hb]
  · rw [List.concat_eq_append] at *
    have hp : (s.heap (.crawler i)).prev = some (.item x) := by simpa using hprev
    have hx := Queue.Holds.mid (show (s.queue i).Holds (ahead.map .item ++ .item x :: .crawler i :: behind.map .item) by
      simpa using h.holds)
    simp only [queue, List.head?_cons] at hx
    have hbefore : (s.heap (.item x)).prev ≠ some (.crawler i) := by
      rw [hx.1]
      intro he
      simpa using List.mem_of_getLast? he
    have hself : (s.heap (.crawler i)).next ≠ some (.crawler i) := by
      rw [hnext]
      intro he
      simpa using List.mem_of_mem_head? he
    simp only [hp]
    rw [if_neg (by simp [hself, hx.2]), if_neg hbefore]
    rw [List.getLast?_concat]
    exact ⟨_, rfl⟩

/-- The crawler goes past an item, and nothing but links and ends changes. -/
theorem CrawlerAt.pass {n : Nat} (h : CrawlerAt s i w) (hs : s.do_item_crawl_q (.crawler i) = some (s', some (.item n))) :
    ∃ ahead, w.ahead = ahead ++ [n] ∧ CrawlerAt s' i ⟨ahead, n :: w.behind⟩ ∧ s'.remaining = s.remaining := by
  obtain ⟨ahead, behind⟩ := w
  obtain ⟨s₁, hs₁⟩ := h.crawl_q
  obtain ⟨rfl, hlast⟩ := Prod.mk.inj (Option.some.inj (hs₁.symm.trans hs))
  obtain rfl | ⟨ahead, x, rfl⟩ := List.eq_nil_or_concat ahead
  · simp at hlast
  rw [List.concat_eq_append] at *
  obtain rfl : x = n := by simpa using hlast
  obtain ⟨hp, -⟩ | ⟨hp, -⟩ | ⟨p, hp, hprev, hswap⟩ := do_item_crawl_q_requeued hs
  · cases hp
  · cases hp
  cases hp
  have hholds : (s.queue i).Holds (ahead.map .item ++ .item x :: .crawler i :: behind.map .item) := by simpa using h.holds
  have hself : (s.heap (.item x)).prev ≠ some (.item x) := fun he =>
    hholds.not_mem_mid.1 (List.mem_of_getLast? (hholds.mid.1.symm.trans he))
  have hre := hswap hself
  rw [h.slabs_clsid] at hre
  refine ⟨ahead, rfl, ⟨?_, ?_, ?_, ?_⟩, by rw [hre.rest]⟩
  · rw [hre.queue]
    simpa using hholds.swap
  · exact (Item.core_congr Item.it_flags (fun _ => rfl) (hre.core _)).trans h.it_flags
  · exact (Item.core_congr Item.nbytes (fun _ => rfl) (hre.core _)).trans h.nbytes
  · exact (Item.core_congr Item.slabs_clsid (fun _ => rfl) (hre.core _)).trans h.slabs_clsid

/-! ## The end of a crawl -/

/-- `do_item_unlinktail_q` fails no assertion on a node whose links fit the ends. -/
theorem do_item_unlinktail_q_total {it : Ptr} (hhead : s.heads (s.heap it).slabs_clsid = some it → (s.heap it).prev = none)
    (htail : s.tails (s.heap it).slabs_clsid = some it → (s.heap it).next = none) (hnext : (s.heap it).next ≠ some it)
    (hprev : (s.heap it).prev ≠ some it) : ∃ s', s.do_item_unlinktail_q it = some s' := by
  unfold do_item_unlinktail_q
  dsimp only
  rw [if_neg]
  · exact ⟨_, rfl⟩
  · rintro (⟨h, h'⟩ | ⟨h, h'⟩ | h | h)
    · exact h' (hhead h)
    · exact h' (htail h)
    · exact hnext h
    · exact hprev h

/-- The class is done: the crawler is off, and the real items stay. -/
structure Finished (s : Store) (i : UInt8) (l : List Nat) : Prop where
  holds : (s.queue i).Holds (l.map .item)
  it_flags : (s.heap (.crawler i)).it_flags = .zero

theorem CrawlerAt.class_done (h : CrawlerAt s i w) : ∃ s', s.lru_crawler_class_done i = some s' ∧ Finished s' i w.list := by
  have hqueue : (s.modify (.crawler i) fun c => { c with it_flags := .zero }).queue i = s.queue i :=
    modify_flags_queue rfl rfl
  have hheads : s.heads (s.heap (.crawler i)).slabs_clsid = s.heads i := by rw [h.slabs_clsid]
  have htails : s.tails (s.heap (.crawler i)).slabs_clsid = s.tails i := by rw [h.slabs_clsid]
  obtain ⟨s', hs'⟩ : ∃ s', s.lru_crawler_class_done i = some s' := by
    unfold lru_crawler_class_done
    apply do_item_unlinktail_q_total <;> rw [modify_self]
    · exact fun he => h.holds.prev_of_head (hheads.symm.trans he)
    · exact fun he => h.holds.next_of_tail (htails.symm.trans he)
    · exact h.holds.next_ne
    · exact h.holds.prev_ne
  have hre := do_item_unlinktail_q_requeued hs'
  rw [modify_self, h.slabs_clsid, hqueue] at hre
  refine ⟨s', hs', ?_, ?_⟩
  · rw [hre.queue, Position.list, List.map_append]
    exact h.holds.remove_mid
  · rw [Item.core_congr Item.it_flags (fun _ => rfl) (hre.core _), modify_self]

/-- At the head the crawler is popped off, and then unlinked once more. -/
theorem CrawlerAt.crawl_done {behind : List Nat} (h : CrawlerAt s i ⟨[], behind⟩)
    (hs : s.do_item_crawl_q (.crawler i) = some (s', none)) :
    ∃ s'', s'.lru_crawler_class_done i = some s'' ∧ Finished s'' i behind := by
  have hholds : (s.queue i).Holds (.crawler i :: behind.map .item) := h.holds
  obtain ⟨-, rfl, -, -⟩ | ⟨-, hprev, hnext, hpop⟩ | ⟨p, hp, -⟩ := do_item_crawl_q_requeued hs
  · exact h.class_done
  · obtain ⟨b, behind, rfl⟩ : ∃ b behind', behind = b :: behind' := by
      cases behind with
      | nil => exact absurd h.holds.mid.2 hnext
      | cons b behind => exact ⟨b, behind, rfl⟩
    have hpopped := h.holds.remove_mid
    rw [h.slabs_clsid] at hpop
    have hre := hpop fun he => hnext (h.holds.next_of_tail he)
    have hclsid : (s'.heap (.crawler i)).slabs_clsid = i :=
      (Item.core_congr Item.slabs_clsid (fun _ => rfl) (hre.core _)).trans h.slabs_clsid
    have hholds' : (s'.queue i).Holds ((b :: behind).map .item) := hre.queue ▸ hpopped
    have hlinks : (s'.heap (.crawler i)).next = (s.heap (.crawler i)).next ∧
        (s'.heap (.crawler i)).prev = (s.heap (.crawler i)).prev := by
      have hlinks := h.holds.remove_self
      rw [← hre.queue] at hlinks
      exact hlinks
    have htails : s'.tails (s'.heap (.crawler i)).slabs_clsid = s'.tails i := by rw [hclsid]
    obtain ⟨s'', hs''⟩ : ∃ s'', s'.lru_crawler_class_done i = some s'' := by
      unfold lru_crawler_class_done
      apply do_item_unlinktail_q_total <;> rw [modify_self]
      · exact fun _ => hlinks.2.trans hprev
      · exact fun he => absurd (List.mem_of_getLast? (hholds'.tail.symm.trans (htails.symm.trans he))) (by simp)
      · rw [hlinks.1]
        exact h.holds.next_ne
      · rw [hlinks.2]
        exact h.holds.prev_ne
    have hre' := do_item_unlinktail_q_requeued hs''
    rw [modify_self, hclsid, modify_flags_queue rfl rfl, hre.queue, Queue.Holds.remove_again hholds] at hre'
    refine ⟨s'', hs'', ?_, ?_⟩
    · rw [hre'.queue]
      exact hpopped
    · rw [Item.core_congr Item.it_flags (fun _ => rfl) (hre'.core _), modify_self]
  · cases hp

/-! ## The start -/

theorem do_lru_crawler_start_at {l : List Nat} (hl : (s.queue i).Holds (l.map .item))
    (hoff : (s.heap (.crawler i)).it_flags = .zero) (remaining : UInt32) :
    ∃ s', s.do_lru_crawler_start i remaining = some s' ∧ CrawlerAt s' i ⟨l, []⟩ := by
  unfold do_lru_crawler_start
  rw [if_pos hoff]
  dsimp only
  generalize (if _ ≠ (0 : UInt32) then _ else _) = r
  have hheap : ((s.modify (.crawler i) (crawler_init i)).set_remaining i r).heap (.crawler i) =
      crawler_init i (s.heap (.crawler i)) := by simp
  have hother (n) : ((s.modify (.crawler i) (crawler_init i)).set_remaining i r).heap (.item n) = s.heap (.item n) := by
    rw [set_remaining_heap, modify_of_ne (by simp)]
  generalize hs₁ : (s.modify (.crawler i) (crawler_init i)).set_remaining i r = s₁ at hheap hother ⊢
  have hl₁ : (s₁.queue i).Holds (l.map .item) := by
    refine hl.congr ?_ ?_ (fun p hp => ?_) fun p hp => ?_
    · rw [← hs₁]; rfl
    · rw [← hs₁]; rfl
    all_goals
      obtain ⟨n, -, rfl⟩ := List.mem_map.mp hp
      simp only [queue, hother]
  have hclsid : (s₁.heap (.crawler i)).slabs_clsid = i := by rw [hheap]; rfl
  obtain ⟨s', hs'⟩ : ∃ s', s₁.do_item_linktail_q (.crawler i) = some s' := by
    unfold do_item_linktail_q
    dsimp only
    rw [if_neg]
    · exact ⟨_, rfl⟩
    · have hhead : s₁.heads i = (l.map Ptr.item).head? := hl₁.head
      have htail : s₁.tails i = (l.map Ptr.item).getLast? := hl₁.tail
      rw [hclsid, hhead, htail, hheap]
      rintro (h | h | h | h | h)
      · exact h rfl
      · exact h rfl
      · simpa using List.mem_of_getLast? h
      · cases l <;> simp at h
      · cases hlast : (l.map Ptr.item).getLast? with
        | none => simp [hlast] at h
        | some t =>
            have hnext : (s₁.heap t).next = none := hl₁.next_of_tail (htail.trans hlast)
            simp [hlast, hnext] at h
  obtain ⟨-, -, hre⟩ := do_item_linktail_q_requeued hs'
  rw [hclsid] at hre
  refine ⟨s', hs', ?_, ?_, ?_, ?_⟩
  · rw [hre.queue]
    exact hl₁.push_back (by simp)
  · rw [Item.core_congr Item.it_flags (fun _ => rfl) (hre.core _), hheap]; rfl
  · rw [Item.core_congr Item.nbytes (fun _ => rfl) (hre.core _), hheap]; rfl
  · rw [Item.core_congr Item.slabs_clsid (fun _ => rfl) (hre.core _), hclsid]

/-! ## A step -/

/-- `k` items were passed while `remaining` went from `r` to `r'`: 0 is no limit, and 1 is never left over. -/
structure Counts (r r' : UInt32) (k : Nat) : Prop where
  no_limit : r = 0 → r' = 0
  limit : r ≠ 0 → r' ≠ 0 ∧ r'.toNat + k = r.toNat

theorem Counts.refl (r : UInt32) : Counts r r 0 := ⟨id, fun h => ⟨h, rfl⟩⟩

theorem Counts.trans {r r' r'' : UInt32} {k k' : Nat} (h : Counts r r' k) (h' : Counts r' r'' k') :
    Counts r r'' (k + k') := by
  refine ⟨fun hr => h'.no_limit (h.no_limit hr), fun hr => ?_⟩
  obtain ⟨hr', hk⟩ := h.limit hr
  obtain ⟨hr'', hk'⟩ := h'.limit hr'
  exact ⟨hr'', by omega⟩

theorem CrawlerAt.of_core (h : CrawlerAt s i w) (hholds : (s'.queue i).Holds (w'.ahead.map .item ++ .crawler i :: w'.behind.map .item))
    (hcore : (s'.heap (.crawler i)).core = (s.heap (.crawler i)).core) : CrawlerAt s' i w' where
  holds := hholds
  it_flags := (Item.core_congr Item.it_flags (fun _ => rfl) hcore).trans h.it_flags
  nbytes := (Item.core_congr Item.nbytes (fun _ => rfl) hcore).trans h.nbytes
  slabs_clsid := (Item.core_congr Item.slabs_clsid (fun _ => rfl) hcore).trans h.slabs_clsid

theorem CrawlerAt.nodup (h : CrawlerAt s i w) : w.list.Nodup := by
  have hnd := h.holds.remove_mid.nodup
  rw [← List.map_append] at hnd
  exact hnd.of_map _

theorem CrawlerAt.link {n : Nat} (h : CrawlerAt s i w) (hclsid : (s.heap (.item n)).slabs_clsid = i)
    (hout : ∀ l, (s.queue i).Holds l → .item n ∉ l) (hs : s.do_item_link_q (.item n) = some s') :
    Edited w (.link n) ⟨n :: w.ahead, w.behind⟩ ∧ CrawlerAt s' i ⟨n :: w.ahead, w.behind⟩ ∧
      s'.remaining = s.remaining := by
  have hnew := hout _ h.holds
  have hcore := do_item_link_q_core hs
  simp only [do_item_link_q] at hs
  split at hs
  · cases hs
  obtain ⟨s₁, hpush, hs⟩ := Option.bind_eq_some_iff.mp hs
  obtain rfl := Option.some.inj hs
  have hre := push_head_requeued hpush
  rw [hclsid] at hre
  refine ⟨.link ?_, h.of_core ?_ (hcore.core _), by rw [hre.rest]⟩
  · intro hm
    apply hnew
    simpa [Position.list] using hm
  · have hq : s₁.queue i = _ := hre.queue
    exact hq ▸ h.holds.push_front hnew

theorem erase_around {ahead behind : List Nat} {n : Nat} (hnd : (ahead ++ behind).Nodup) :
    (ahead.map Ptr.item ++ Ptr.crawler i :: behind.map Ptr.item).erase (.item n) =
      (ahead.erase n).map Ptr.item ++ Ptr.crawler i :: (behind.erase n).map Ptr.item := by
  have hinj : Function.Injective Ptr.item := fun _ _ => Ptr.item.inj
  rw [List.map_erase hinj, List.map_erase hinj]
  by_cases ha : n ∈ ahead
  · have hb : n ∉ behind := fun hb => (List.nodup_append.mp hnd).2.2 n ha n hb rfl
    have hb' : Ptr.item n ∉ behind.map Ptr.item := by simpa using hb
    rw [List.erase_append_left _ (List.mem_map_of_mem ha), List.erase_of_not_mem hb']
  · have ha' : Ptr.item n ∉ ahead.map Ptr.item := by simpa using ha
    rw [List.erase_append_right _ ha', List.erase_cons_tail (by simp), List.erase_of_not_mem ha']

theorem CrawlerAt.unlink {n : Nat} (h : CrawlerAt s i w) (hclsid : (s.heap (.item n)).slabs_clsid = i)
    (hin : ∀ l, (s.queue i).Holds l → .item n ∈ l) (hs : s.do_item_unlink_q (.item n) = some s') :
    Edited w (.unlink n) ⟨w.ahead.erase n, w.behind.erase n⟩ ∧
      CrawlerAt s' i ⟨w.ahead.erase n, w.behind.erase n⟩ ∧ s'.remaining = s.remaining := by
  have hmem : n ∈ w.list := by simpa [Position.list] using hin _ h.holds
  have hcore := do_item_unlink_q_core hs
  simp only [do_item_unlink_q] at hs
  obtain ⟨s₁, hunlink, hs⟩ := Option.bind_eq_some_iff.mp hs
  obtain rfl := Option.some.inj hs
  have hre := do_item_unlinktail_q_requeued hunlink
  rw [hclsid] at hre
  refine ⟨.unlink hmem, h.of_core ?_ (hcore.core _), by rw [hre.rest]⟩
  have hq : s₁.queue i = _ := hre.queue
  rw [← erase_around h.nodup]
  exact hq ▸ h.holds.remove (hin _ h.holds)

/-- One turn of the loop: the class is done at the head or at the limit, and otherwise the crawler goes past an item. -/
theorem CrawlerAt.search (h : CrawlerAt s i w) :
    (∃ s', s.crawler_search i = some (s', none) ∧ (w.ahead = [] ∨ s.remaining i = 1) ∧ Finished s' i w.list) ∨
      ∃ s' n ahead, s.crawler_search i = some (s', some (.item n)) ∧ w.ahead = ahead ++ [n] ∧
        CrawlerAt s' i ⟨ahead, n :: w.behind⟩ ∧ Counts (s.remaining i) (s'.remaining i) 1 := by
  obtain ⟨s₁, hcrawl⟩ := h.crawl_q
  unfold crawler_search
  rw [hcrawl]
  obtain ⟨ahead, behind⟩ := w
  obtain rfl | ⟨ahead, n, rfl⟩ := List.eq_nil_or_concat ahead
  · obtain ⟨s₂, hdone, hfinished⟩ := h.crawl_done hcrawl
    exact .inl ⟨s₂, by simp [hdone], .inl rfl, hfinished⟩
  rw [List.concat_eq_append] at *
  have hn : ((ahead ++ [n]).getLast?.map Ptr.item) = some (.item n) := by simp
  rw [hn] at hcrawl ⊢
  obtain ⟨ahead', hahead, hat, hremaining⟩ := h.pass hcrawl
  obtain ⟨rfl, -⟩ := List.append_inj' hahead rfl
  simp only [Option.bind_eq_bind, Option.bind_some, hremaining]
  split_ifs with hzero hlast
  · refine .inr ⟨s₁, n, ahead, rfl, rfl, hat, fun _ => hremaining ▸ hzero, fun h => absurd hzero h⟩
  · have hat' : CrawlerAt (s₁.set_remaining i (s.remaining i - 1)) i ⟨ahead, n :: behind⟩ :=
      ⟨hat.holds, hat.it_flags, hat.nbytes, hat.slabs_clsid⟩
    obtain ⟨s₂, hdone, hfinished⟩ := hat'.class_done
    refine .inl ⟨s₂, by simp [hdone], .inr ?_, by simpa [Position.list] using hfinished⟩
    have hone : s.remaining i - 1 = 0 := by simpa using hlast
    rw [← UInt32.sub_add_cancel (s.remaining i) 1, hone]
    rfl
  · refine .inr ⟨_, n, ahead, rfl, rfl, ⟨hat.holds, hat.it_flags, hat.nbytes, hat.slabs_clsid⟩,
      fun h => absurd h hzero, fun _ => ?_⟩
    have hleft : (s₁.set_remaining i (s.remaining i - 1)).remaining i = s.remaining i - 1 := by simp [set_remaining]
    rw [hleft]
    have hone : s.remaining i - 1 ≠ 0 := by simpa using hlast
    refine ⟨hone, ?_⟩
    have hpos : 1 ≤ (s.remaining i).toNat := Nat.pos_of_ne_zero fun hz => hzero (UInt32.toNat_inj.mp hz)
    have hle : (1 : UInt32) ≤ s.remaining i := UInt32.le_iff_toNat_le.mpr hpos
    rw [UInt32.toNat_sub_of_le _ _ hle]
    exact Nat.sub_add_cancel hpos

theorem CrawlerAt.step {e : Edit Nat} (h : CrawlerAt s i w) (hs : ListStep i s e s') :
    ∃ w', Edited w e w' ∧ CrawlerAt s' i w' ∧ Counts (s.remaining i) (s'.remaining i) e.passed.toList.length := by
  cases hs with
  | link hclsid hout hs =>
      obtain ⟨hedit, hat, hremaining⟩ := h.link hclsid hout hs
      exact ⟨_, hedit, hat, hremaining ▸ Counts.refl _⟩
  | unlink hclsid hin hs =>
      obtain ⟨hedit, hat, hremaining⟩ := h.unlink hclsid hin hs
      exact ⟨_, hedit, hat, hremaining ▸ Counts.refl _⟩
  | pass hs =>
      obtain ⟨s₁, hs₁, -⟩ | ⟨s₁, n, ahead, hs₁, hahead, hat, hcounts⟩ := h.search
      · simp [hs₁] at hs
      · obtain ⟨rfl, hn⟩ := Prod.mk.inj (Option.some.inj (hs₁.symm.trans hs))
        obtain rfl := Ptr.item.inj (Option.some.inj hn)
        obtain ⟨wahead, behind⟩ := w
        obtain rfl : wahead = ahead ++ [n] := hahead
        exact ⟨_, .pass, hat, hcounts⟩
  | other hlist hcrawler hremaining =>
      exact ⟨w, .other, h.of_core (hlist _ h.holds) hcrawler, hremaining ▸ Counts.refl _⟩

theorem CrawlerAt.run {es : List (Edit Nat)} (hrun : Run (ListStep i) s es s') (h : CrawlerAt s i w) :
    ∃ w', Run Edited w es w' ∧ CrawlerAt s' i w' ∧
      Counts (s.remaining i) (s'.remaining i) (es.filterMap Edit.passed).length := by
  induction hrun generalizing w with
  | nil s => exact ⟨w, .nil w, h, Counts.refl _⟩
  | @cons s s₁ s' e es hstep _ ih =>
      obtain ⟨w₁, hedit, hat, hcounts⟩ := h.step hstep
      obtain ⟨w', hrun', hat', hcounts'⟩ := ih hat
      refine ⟨w', .cons hedit hrun', hat', ?_⟩
      have hlen : ((e :: es).filterMap Edit.passed).length =
          e.passed.toList.length + (es.filterMap Edit.passed).length := by
        cases he : e.passed <;> simp [he, Nat.add_comm]
      exact hlen ▸ hcounts.trans hcounts'

/-! ## A crawl -/

/-- The items of the list at the start that nobody unlinks, not even to link them again. -/
def kept (l : List Nat) (es : List (Edit Nat)) : List Nat := l.filter (· ∉ es.filterMap Edit.unlinked)

/-- What a crawl of the list `l` with at most `limit` steps has come to after `es`, with the crawler at `w`. -/
structure Crawl (i : UInt8) (l : List Nat) (limit : UInt32) (es : List (Edit Nat)) (s : Store) (w : Position Nat) : Prop where
  /-- The list is well formed, and the crawler is in it. -/
  holds : (s.queue i).Holds (w.ahead.map .item ++ .crawler i :: w.behind.map .item)
  /-- The real items are what links and unlinks make of `l`. -/
  list : w.list = es.foldl Edit.apply l
  /-- The items that stay were returned once each, in order from the tail, down to those still in front. -/
  passed : kept l es = w.ahead.filter (· ∈ kept l es) ++ ((es.filterMap Edit.passed).filter (· ∈ kept l es)).reverse
  nodup : (kept l es).Nodup
  /-- The crawl comes to an end. -/
  length : w.ahead.length + (es.filterMap Edit.passed).length ≤ l.length + (es.filterMap Edit.linked).length
  /-- The next call returns the last item in front of the crawler, and `NULL` at the head. -/
  next : ∃ s', s.do_item_crawl_q (.crawler i) = some (s', w.ahead.getLast?.map .item)
  /-- With `n + 1` as the limit, `n` items are examined. -/
  examined : limit ≠ 0 → (es.filterMap Edit.passed).length < limit.toNat
  search : ∃ s' search, s.crawler_search i = some (s', search) ∧
    (search = none ↔ w.ahead = [] ∨ limit.toNat = (es.filterMap Edit.passed).length + 1) ∧
    (search = none → Finished s' i w.list) ∧ (search ≠ none → search = w.ahead.getLast?.map .item)
  /-- Wherever the crawler is unlinked, the real items stay. -/
  done : ∃ s', s.lru_crawler_class_done i = some s' ∧ Finished s' i w.list

/-- A crawl of any list, whatever is linked and unlinked meanwhile. -/
theorem crawler_returns_each {l : List Nat} (hl : (s.queue i).Holds (l.map .item))
    (hoff : (s.heap (.crawler i)).it_flags = .zero) (remaining : UInt32) :
    ∃ s₀, s.do_lru_crawler_start i remaining = some s₀ ∧
      ∀ es s', Run (ListStep i) s₀ es s' → ∃ w, Crawl i l (s₀.remaining i) es s' w := by
  obtain ⟨s₀, hs₀, hat₀⟩ := do_lru_crawler_start_at hl hoff remaining
  refine ⟨s₀, hs₀, fun es s' hrun => ?_⟩
  obtain ⟨w, hedited, hat, hcounts⟩ := hat₀.run hrun
  have hl₀ : (⟨l, []⟩ : Position Nat).list = l := List.append_nil l
  have hnd : l.Nodup := hl₀ ▸ hat₀.nodup
  have hkept : l.filter (· ∈ kept l es) = kept l es := by
    refine List.filter_congr fun x hx => ?_
    simp [kept, hx]
  have hone : s'.remaining i = 1 ↔ (s₀.remaining i).toNat = (es.filterMap Edit.passed).length + 1 := by
    rw [← UInt32.toNat_inj]
    by_cases hz : s₀.remaining i = 0
    · rw [hcounts.no_limit hz, hz]
      simp
    · have hk := (hcounts.limit hz).2
      simp only [UInt32.reduceToNat]
      omega
  refine ⟨w, hat.holds, (run_list hedited hat₀.nodup).trans (by rw [hl₀]), ?_, hnd.filter _, run_length hedited,
    hat.crawl_q, fun hz => ?_, ?_, hat.class_done⟩
  · have hun (x) (hx : x ∈ es.filterMap Edit.unlinked) : ¬ decide (x ∈ kept l es) = true := by
      intro hk
      have hkept : x ∈ kept l es := of_decide_eq_true hk
      exact of_decide_eq_true (List.mem_filter.mp hkept).2 hx
    have hmem (x) (hx : decide (x ∈ kept l es) = true) : x ∈ (⟨l, []⟩ : Position Nat).list := by
      rw [hl₀]
      exact List.mem_of_mem_filter (of_decide_eq_true hx)
    rw [← run_passed hedited hun hmem]
    exact hkept.symm
  · obtain ⟨hz', hk⟩ := hcounts.limit hz
    have hpos : 0 < (s'.remaining i).toNat := Nat.pos_of_ne_zero fun h => hz' (UInt32.toNat_inj.mp h)
    omega
  · obtain ⟨s₁, hs₁, hdone, hfinished⟩ | ⟨s₁, n, ahead, hs₁, hahead, -, hcounts₁⟩ := hat.search
    · refine ⟨s₁, none, hs₁, iff_of_true rfl (hdone.imp_right hone.mp), fun _ => hfinished, fun h => absurd rfl h⟩
    · refine ⟨s₁, some (.item n), hs₁, iff_of_false (by simp) ?_, fun h => (nomatch h), fun _ => by simp [hahead]⟩
      rintro (h | h)
      · simp [hahead] at h
      · rw [← hone] at h
        obtain ⟨hne, hk⟩ := hcounts₁.limit (by rw [h]; decide)
        rw [h] at hk
        exact hne (UInt32.toNat_inj.mp (by simpa using hk))

/-- Three items are linked in one LRU. -/
def three : List Event := [
  .alloc ⟨[97], 0, 0, 3⟩ [⟨some (.item 0), 0, [], [], []⟩], .link 0,
  .alloc ⟨[98], 0, 0, 4⟩ [⟨some (.item 1), 0, [], [], []⟩], .link 1,
  .alloc ⟨[99], 0, 0, 5⟩ [⟨some (.item 2), 0, [], [], []⟩], .link 2]

theorem three_runs : (three.foldlM (Store.step settings) empty).isSome := by decide +kernel

theorem crawler_returns_each_witness :
    ∃ s₀, ((three.foldlM (Store.step settings) empty).get three_runs).do_lru_crawler_start 1 0 = some s₀ ∧
      ∀ es s', Run (ListStep 1) s₀ es s' → ∃ w, Crawl 1 [2, 1, 0] (s₀.remaining 1) es s' w := by
  have hl : (((three.foldlM (Store.step settings) empty).get three_runs).queue 1).Holds ([2, 1, 0].map .item) :=
    ⟨by decide, by decide +kernel, by decide +kernel,
      by decide +kernel, by decide +kernel, by decide +kernel, by decide +kernel, by decide +kernel, by decide +kernel,
      trivial⟩
  exact crawler_returns_each hl (by decide +kernel) 0

end Memcached.MemoryLru.Store

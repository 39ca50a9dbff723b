import Memcached.Lib.Run
import Memcached.MemoryLru.CrawlerClients
import Memcached.MemoryLru.ItemTheorems

/-!
# Who owns the connection of a crawl

`lru_crawler_start` installs the module and the client before it knows whether a crawl starts, and takes neither back.
-/

namespace Memcached.MemoryLru

open Transition

/-! ## The thread -/

namespace Crawling

variable {c c' : Crawling} {i : UInt8} {t : Turn} {mod : Module} {search : Ptr} {is_valid : Bool}
  {as : List CrawlerAction}

theorem class_done_put (h : c.lru_crawler_class_done mod i = some (c', as)) : ∃ s, c' = c.put s := by
  obtain ⟨s, -, h⟩ := Option.map_eq_some_iff.mp h
  cases h
  exact ⟨s, rfl⟩

theorem eval_put (h : c.eval mod search is_valid = some (c', as)) : ∃ s, c' = c.put s := by
  cases mod with
  | crawler_expired_mod =>
      obtain ⟨s, -, h⟩ := Option.map_eq_some_iff.mp h
      cases h
      exact ⟨s, rfl⟩
  | crawler_metadump_mod =>
      cases h
      exact ⟨c.store.refcount_decr search, rfl⟩

theorem examine_put (h : c.examine mod i search t = some (c', as)) : ∃ s, c' = c.put s := by
  simp only [examine] at h
  split at h
  · cases h
    exact ⟨c.store, rfl⟩
  split at h
  · cases h
    exact ⟨_, rfl⟩
  · obtain ⟨⟨c₁, evaluated⟩, heval, h⟩ := Option.bind_eq_some_iff.mp h
    cases h
    obtain ⟨s, rfl⟩ := eval_put heval
    exact ⟨s, rfl⟩

theorem search_put (h : c.search mod i t = some (c', as)) : ∃ s, c' = c.put s := by
  simp only [Crawling.search] at h
  obtain ⟨⟨s, found⟩, -, h⟩ := Option.bind_eq_some_iff.mp h
  cases found with
  | none =>
      obtain ⟨⟨c₁, done⟩, hdone, h⟩ := Option.bind_eq_some_iff.mp h
      cases h
      obtain ⟨s', rfl⟩ := class_done_put hdone
      exact ⟨s', rfl⟩
  | some found =>
      dsimp only at h
      split at h
      · obtain ⟨⟨c₁, done⟩, hdone, h⟩ := Option.bind_eq_some_iff.mp h
        cases h
        obtain ⟨s', rfl⟩ := class_done_put hdone
        exact ⟨s', rfl⟩
      · obtain ⟨⟨c₁, rest⟩, hrest, h⟩ := Option.bind_eq_some_iff.mp h
        cases h
        obtain ⟨s', rfl⟩ := examine_put hrest
        exact ⟨s', rfl⟩

theorem turn_put (h : c.turn i t = some (c', as)) :
    ∃ s, c' = c.put s ∨ c' = ({ c with client := false } : Crawling).put s := by
  simp only [turn] at h
  split at h
  · cases h
    exact ⟨c.store, .inl rfl⟩
  obtain ⟨mod, -, h⟩ := Option.bind_eq_some_iff.mp h
  split at h
  · split at h
    · obtain ⟨s, hs⟩ := search_put h
      exact ⟨s, .inl hs⟩
    · obtain ⟨s, hs⟩ := class_done_put h
      exact ⟨s, .inr hs⟩
    · obtain ⟨s, hs⟩ := class_done_put h
      exact ⟨s, .inl hs⟩
  split at h
  · obtain ⟨s, hs⟩ := class_done_put h
    exact ⟨s, .inl hs⟩
  · obtain ⟨s, hs⟩ := search_put h
    exact ⟨s, .inl hs⟩

/-! ## The start of a crawl -/

/-- What the loop over the LRUs comes to. -/
structure Looped (c : Crawling) (ids : UInt8 → Bool) (sids : List UInt8) (n : Nat) (c' : Crawling) : Prop where
  mod : c'.mod = c.mod
  client : c'.client = c.client
  running : c'.lru_crawler_running = (c.lru_crawler_running || decide (0 < n))
  starts : 0 < n ↔ ∃ sid ∈ sids, ids sid ∧ c.store.crawler_off sid

theorem start_all_cons {ids : UInt8 → Bool} {remaining : UInt32} {sid : UInt8} {l : List UInt8}
    (h : start_all ids remaining (sid :: l) c = some (c', as)) : ∃ c₁ rest,
      (if ids sid then c.store.do_lru_crawler_start sid remaining else some c.store) = some c₁.store ∧
        c₁.mod = c.mod ∧ c₁.client = c.client ∧
        c₁.lru_crawler_running = (c.lru_crawler_running || ids sid && c.store.crawler_off sid) ∧
        start_all ids remaining l c₁ = some (c', rest) := by
  simp only [start_all] at h
  cases hids : ids sid with
  | false =>
      rw [hids, if_neg Bool.false_ne_true] at h
      obtain ⟨_, hsame, h⟩ := Option.bind_eq_some_iff.mp h
      cases hsame
      obtain ⟨⟨c₁, rest⟩, hrest, h⟩ := Option.bind_eq_some_iff.mp h
      cases h
      exact ⟨c, rest, rfl, rfl, rfl, by simp, hrest⟩
  | true =>
      rw [hids, if_pos rfl] at h
      obtain ⟨⟨c₁, started⟩, hone, h⟩ := Option.bind_eq_some_iff.mp h
      obtain ⟨⟨c₂, rest⟩, hrest, h⟩ := Option.bind_eq_some_iff.mp h
      cases h
      obtain ⟨s, hs, hone⟩ := Option.map_eq_some_iff.mp hone
      cases hone
      exact ⟨{ c with
        store := s, lru_crawler_running := c.lru_crawler_running || c.store.crawler_off sid }, rest, hs, rfl, rfl, rfl,
        hrest⟩

theorem start_all_looped {ids : UInt8 → Bool} {remaining : UInt32} {l : List UInt8}
    (h : start_all ids remaining l c = some (c', as)) :
    ∃ n, Store.crawler_starts ids remaining l c.store = some n ∧ Looped c ids l n c' := by
  induction l generalizing c as with
  | nil =>
      cases h
      exact ⟨0, rfl, rfl, rfl, by simp, by simp⟩
  | cons sid l ih =>
      obtain ⟨c₁, rest, hstore, hmod, hclient, hrunning, hrest⟩ := start_all_cons h
      obtain ⟨n, hn, hlooped⟩ := ih hrest
      refine ⟨(if ids sid ∧ c.store.crawler_off sid then 1 else 0) + n, ?_, hlooped.mod.trans hmod,
        hlooped.client.trans hclient, ?_, ?_⟩
      · simp only [Store.crawler_starts]
        cases hids : ids sid with
        | false =>
            rw [hids] at hstore
            rw [Option.some.inj hstore]
            simp [hn]
        | true =>
            rw [hids, if_pos rfl] at hstore
            simp [hstore, hn]
      · have hpos : 0 < 1 + n := by omega
        rw [hlooped.running, hrunning]
        cases ids sid <;> cases c.store.crawler_off sid <;> simp [hpos]
      · by_cases hoff : ids sid ∧ c.store.crawler_off sid
        · rw [if_pos hoff]
          exact iff_of_true (by omega) ⟨sid, List.mem_cons_self, hoff⟩
        · have hsame : c₁.store = c.store := by
            split at hstore
            · next hids =>
              have hon : ¬ (c.store.heap (.crawler sid)).it_flags = .zero := by
                simpa [Store.crawler_off, hids] using hoff
              rw [Store.do_lru_crawler_start, if_neg hon] at hstore
              exact (Option.some.inj hstore).symm
            · exact (Option.some.inj hstore).symm
          rw [if_neg hoff, Nat.zero_add, hlooped.starts, hsame]
          simp [hoff]

/-- The module has no client for the crawl, or no memory for what it prints. -/
def lacks_client (c : Crawling) (type : CrawlerRunType) (start : Start) : Prop :=
  type.mod.needs_client ∧ (!start.client ∨ c.client ∨ !start.bipbuf)

/-- What a call of `lru_crawler_start` does to the module and the client, and what it returns. -/
inductive Asked (c : Crawling) (ids : UInt8 → Bool) (type : CrawlerRunType) (start : Start) : Crawling → Int → Prop
  | turned_away {c' : Crawling} (haway : c.is_busy type ∨ c.is_blocked type) (hmod : c'.mod = c.mod)
      (hclient : c'.client = c.client) (hrunning : c'.lru_crawler_running = c.lru_crawler_running) :
      Asked c ids type start c' (-1)
  | joined {c' : Crawling} {n : Nat} (hrun : c.lru_crawler_running) (hneeds : ¬ type.mod.needs_client)
      (hmod : c'.mod = c.mod) (hclient : c'.client = c.client) (hrunning : c'.lru_crawler_running) :
      Asked c ids type start c' n
  | refused {c' : Crawling} (hidle : c.lru_crawler_running = false) (hblocked : c.is_blocked type = false)
      (hlacks : c.lacks_client type start) (hmod : c'.mod = some type.mod) : Asked c ids type start c' (-2)
  | configured {c' : Crawling} {n : Nat} (hidle : c.lru_crawler_running = false) (hblocked : c.is_blocked type = false)
      (hlacks : ¬ c.lacks_client type start) (hmod : c'.mod = some type.mod)
      (hclient : c'.client = (c.client || (type.mod.needs_client && start.client)))
      (hrunning : c'.lru_crawler_running = decide (0 < n))
      (hstarts : 0 < n ↔ ∃ sid ∈ sids, ids sid ∧ c.store.crawler_off sid) : Asked c ids type start c' n

theorem lru_crawler_start_asked {ids : UInt8 → Bool} {remaining : UInt32} {type : CrawlerRunType} {start : Start}
    (h : c.lru_crawler_start ids remaining type start = some (c', as)) :
    ∃ result, c.start_result ids remaining type start = some result ∧ Asked c ids type start c' result := by
  simp only [Crawling.lru_crawler_start] at h
  split at h
  · next hbusy =>
    cases h
    have hbusy' : c.is_busy type ∨ c.is_blocked type := .inl (by simpa only [is_busy, decide_eq_true_eq] using hbusy)
    exact ⟨-1, by rw [start_result, if_pos hbusy'], .turned_away hbusy' rfl rfl rfl⟩
  next hbusy =>
  split at h
  · next hblocked =>
    cases h
    have hblocked' : c.is_busy type ∨ c.is_blocked type := .inr (by simpa [is_blocked] using hblocked)
    exact ⟨-1, by rw [start_result, if_pos hblocked'], .turned_away hblocked' rfl rfl rfl⟩
  next hblocked =>
  have hblocked' : c.is_blocked type = false := by simpa [is_blocked] using hblocked
  have hfree : ¬(c.is_busy type ∨ c.is_blocked type) := by
    rw [hblocked']
    simpa only [is_busy, decide_eq_true_eq, Bool.false_eq_true, or_false] using hbusy
  split at h
  · next hrunning =>
    obtain ⟨⟨c₁, started⟩, hall, h⟩ := Option.bind_eq_some_iff.mp h
    cases h
    obtain ⟨n, hn, hlooped⟩ := start_all_looped hall
    have hauto : type = .CRAWLER_AUTOEXPIRE := by
      by_contra hne
      exact hbusy ⟨hrunning, fun h => hne h.1⟩
    subst hauto
    refine ⟨n, ?_, .joined hrunning Bool.false_ne_true hlooped.mod hlooped.client ?_⟩
    · rw [start_result, if_neg hfree, if_neg (by simp [hrunning]), sids, hn]
      rfl
    · simp [hlooped.running, hrunning]
  next hrunning =>
  have hidle : c.lru_crawler_running = false := by simpa using hrunning
  split at h
  · next hlacks =>
    cases h
    refine ⟨-2, ?_, .refused hidle hblocked' hlacks rfl⟩
    rw [start_result, if_neg hfree, if_pos ⟨by simp [hidle], hlacks⟩]
  · next hlacks =>
    obtain ⟨⟨c₁, started⟩, hall, h⟩ := Option.bind_eq_some_iff.mp h
    cases h
    obtain ⟨n, hn, hlooped⟩ := start_all_looped hall
    refine ⟨n, ?_, .configured hidle hblocked' hlacks hlooped.mod hlooped.client ?_ hlooped.starts⟩
    · rw [start_result, if_neg hfree, if_neg fun h => hlacks h.2, sids, hn]
      rfl
    · simp [hlooped.running, hidle]

end Crawling

namespace CrawlerClients

/-! ## What is to hold -/

/-- A call that starts no crawl leaves the client and the module as they were. -/
def Untouched (calls : List Answered) : Prop := ∀ a ∈ calls, a.result ≤ 0 → a.after = a.before

structure Owned (s : CrawlerClients) : Prop where
  idle : s.crawling.lru_crawler_running = false → s.active = (none, none)
  once : s.accepted = s.conn.toList ++ s.disposed.map Prod.fst
  untouched : Untouched s.answered

/-- A call that gets as far as the module has a client, if one is needed, and finds a crawler that it can start. -/
def Starts (s : CrawlerClients) : Event → Prop
  | .start ids _ type start _ => s.crawling.lru_crawler_running = false → s.crawling.is_blocked type = false →
      (type.mod.needs_client → start.client ∧ start.bipbuf) ∧
        ∃ sid ∈ Crawling.sids, ids sid ∧ s.crawling.store.crawler_off sid
  | _ => True

/-! ## Steps -/

structure Consistent (s : CrawlerClients) : Prop where
  client : s.crawling.client = s.conn.isSome
  module : s.conn.isSome → s.crawling.mod.isSome
  idle : s.crawling.lru_crawler_running = false → s.active = (none, none)
  once : s.accepted = s.conn.toList ++ s.disposed.map Prod.fst

variable {cfg : Settings} {s t : CrawlerClients} {e : Event} {es : List Event} {c : Crawling} {how : Disposal}

theorem Consistent.proceed (h : s.Consistent) (hclient : c.client = s.crawling.client ∨ c.client = false)
    (hmod : c.client → c.mod = s.crawling.mod)
    (hidle : c.lru_crawler_running = false → c.client = false ∧ c.mod = none ∨
      s.crawling.lru_crawler_running = false ∧ c.mod = s.crawling.mod) : (s.proceed c how).Consistent := by
  unfold CrawlerClients.proceed
  split
  · next hgone =>
    obtain ⟨hhad, hgone⟩ := hgone
    have hgone : c.client = false := by simpa using hgone
    refine ⟨hgone, fun hsome => (nomatch hsome), fun hr => ?_, ?_⟩
    · rcases hidle hr with ⟨-, hnone⟩ | ⟨hidle, hsame⟩
      · simp [active, hnone]
      · have hmod := congrArg Prod.snd (h.idle hidle)
        simp only [active] at hmod ⊢
        rw [hsame, hmod]
    · rw [h.once]
      simp [Function.comp_def]
  · next hkept =>
    have hsame : c.client = s.crawling.client := by
      rcases hclient with hsame | hgone
      · exact hsame
      · rw [hgone]
        symm
        simpa [hgone] using hkept
    refine ⟨hsame.trans h.client, fun hsome => ?_, fun hr => ?_, h.once⟩
    · have hhas : c.client := hsame.trans (h.client.trans hsome)
      simp only [hmod hhas]
      exact h.module hsome
    · rcases hidle hr with ⟨hno, hnone⟩ | ⟨hidle, hsame⟩
      · have hconn : s.conn = none := by
          rw [← Option.not_isSome_iff_eq_none, ← h.client, ← hsame, hno]
          exact Bool.false_ne_true
        simp [active, hconn, hnone]
      · have hactive := h.idle hidle
        simp only [active] at hactive ⊢
        rw [hsame, hactive]

theorem proceed_answered : (s.proceed c how).answered = s.answered := by
  unfold CrawlerClients.proceed
  split <;> rfl

theorem untouched_singleton {a : Answered} : Untouched [a] ↔ (a.result ≤ 0 → a.after = a.before) := by
  simp [Untouched]

/-- A call of `lru_crawler_start` that returned `result`. -/
structure Called (s : CrawlerClients) (type : CrawlerRunType) (c : Nat) (result : Int) (t : CrawlerClients) : Prop where
  conn : t.conn = if t.crawling.client ∧ !s.crawling.client then some c else s.conn
  accepted : t.accepted = if type.mod.needs_client ∧ 0 < result then c :: s.accepted else s.accepted
  disposed : t.disposed = s.disposed
  answered : t.answered = ⟨result, s.active, t.active⟩ :: s.answered

section
variable {ids : UInt8 → Bool} {remaining : UInt32} {type : CrawlerRunType} {start : Start} {conn : Nat} {result : Int}

theorem start_called (hstep : Step cfg s (.start ids remaining type start conn) t) :
    ∃ result, s.crawling.Asked ids type start t.crawling result ∧ s.Called type conn result t := by
  obtain ⟨result, hresult, hstep⟩ := Option.bind_eq_some_iff.mp hstep
  obtain ⟨⟨c, as⟩, hstart, hstep⟩ := Option.bind_eq_some_iff.mp hstep
  cases hstep
  obtain ⟨result', hresult', hasked⟩ := Crawling.lru_crawler_start_asked hstart
  obtain rfl : result = result' := Option.some.inj (hresult.symm.trans hresult')
  exact ⟨result, hasked, rfl, rfl, rfl, rfl⟩

theorem Called.kept (hcalled : s.Called type conn result t) (h : s.Consistent)
    (hmod : t.crawling.mod = s.crawling.mod) (hclient : t.crawling.client = s.crawling.client)
    (hidle : t.crawling.lru_crawler_running = false → s.crawling.lru_crawler_running = false)
    (haccepted : ¬(type.mod.needs_client ∧ 0 < result)) : t.active = s.active ∧ t.Consistent := by
  have hconn : t.conn = s.conn := by
    rw [hcalled.conn, hclient]
    simp
  have hactive : t.active = s.active := by rw [active, active, hconn, hmod]
  refine ⟨hactive, ?_, ?_, fun hr => hactive.trans (h.idle (hidle hr)), ?_⟩
  · rw [hclient, hconn, h.client]
  · rw [hconn, hmod]
    exact h.module
  · rw [hcalled.accepted, if_neg haccepted, hcalled.disposed, hconn, h.once]

theorem Consistent.changed (h : s.Consistent) (hidle : s.crawling.lru_crawler_running = false)
    (hmod : t.crawling.mod = some type.mod) : t.active ≠ s.active := by
  intro hsame
  have hmods := congrArg Prod.snd (hsame.trans (h.idle hidle))
  simp only [active, hmod] at hmods
  cases hmods

theorem start_step (h : s.Consistent) (hstep : Step cfg s (.start ids remaining type start conn) t) :
    ∃ a, t.answered = a :: s.answered ∧ (s.Starts (.start ids remaining type start conn) ↔ Untouched [a]) ∧
      (s.Starts (.start ids remaining type start conn) → t.Consistent) := by
  obtain ⟨result, hasked, hcalled⟩ := start_called hstep
  refine ⟨_, hcalled.answered, ?_⟩
  simp only [untouched_singleton]
  generalize hc : t.crawling = c at hasked
  cases hasked with
  | turned_away haway hmod hclient hrunning =>
      subst hc
      obtain ⟨hactive, hcons⟩ := hcalled.kept h hmod hclient (fun hr => hrunning.symm.trans hr) fun hn => by
        have hpos := hn.2
        omega
      refine ⟨iff_of_true (fun hidle hblocked => ?_) fun _ => hactive, fun _ => hcons⟩
      rcases haway with hbusy | hblocked'
      · simp [Crawling.is_busy, hidle] at hbusy
      · rw [hblocked] at hblocked'
        cases hblocked'
  | joined hrun hneeds hmod hclient hrunning =>
      subst hc
      have hnot : t.crawling.lru_crawler_running = false → s.crawling.lru_crawler_running = false := by
        intro hr
        rw [hrunning] at hr
        cases hr
      obtain ⟨hactive, hcons⟩ := hcalled.kept h hmod hclient hnot fun hn => hneeds hn.1
      refine ⟨iff_of_true (fun hidle => ?_) fun _ => hactive, fun _ => hcons⟩
      rw [hrun] at hidle
      cases hidle
  | refused hidle hblocked hlacks hmod =>
      subst hc
      have hnone : s.crawling.client = false := by
        rw [h.client, Option.isSome_eq_false_iff, Option.isNone_iff_eq_none]
        exact congrArg Prod.fst (h.idle hidle)
      have hnot : ¬ s.Starts (.start ids remaining type start conn) := by
        intro hstarts
        obtain ⟨hgiven, hbuf⟩ := (hstarts hidle hblocked).1 hlacks.1
        simp [Crawling.lacks_client, hgiven, hbuf, hnone] at hlacks
      exact ⟨iff_of_false hnot fun hkept => h.changed hidle hmod (hkept (by simp)), fun hs => absurd hs hnot⟩
  | @configured n hidle hblocked hlacks hmod hclient hrunning hstarts =>
      subst hc
      have hnoconn : s.conn = none := congrArg Prod.fst (h.idle hidle)
      have hnone : s.crawling.client = false := by
        rw [h.client, hnoconn]
        rfl
      have hgiven : type.mod.needs_client → start.client ∧ start.bipbuf := by
        intro hneeds
        simpa [Crawling.lacks_client, hneeds, hnone] using hlacks
      have hiff : s.Starts (.start ids remaining type start conn) ↔ 0 < n := by
        rw [hstarts]
        exact ⟨fun h => (h hidle hblocked).2, fun h _ _ => ⟨hgiven, h⟩⟩
      rw [hiff]
      constructor
      · constructor
        · intro hpos hle
          omega
        · intro hkept
          by_contra hzero
          exact h.changed hidle hmod (hkept (by omega))
      · intro hpos
        have hclient' : t.crawling.client = type.mod.needs_client := by
          rw [hclient, hnone]
          cases hneeds : type.mod.needs_client with
          | false => rfl
          | true => simpa using (hgiven hneeds).1
        have hconn : t.conn = if type.mod.needs_client then some conn else none := by
          rw [hcalled.conn, hclient', hnone, hnoconn]
          simp
        refine ⟨?_, fun _ => by simp [hmod], fun hoff => ?_, ?_⟩
        · rw [hclient', hconn]
          cases type.mod.needs_client <;> rfl
        · simp [hrunning, hpos] at hoff
        · rw [hcalled.accepted, hconn, hcalled.disposed, h.once, hnoconn]
          cases type.mod.needs_client <;> simp [hpos.ne']

end

theorem other_step (h : s.Consistent) (hstep : Step cfg s e t) (he : ∀ ids remaining type start conn,
    e ≠ .start ids remaining type start conn) : t.answered = s.answered ∧ s.Starts e ∧ t.Consistent := by
  cases e with
  | start ids remaining type start conn => exact absurd rfl (he ids remaining type start conn)
  | turn i turn =>
      obtain ⟨⟨c, as⟩, hturn, rfl⟩ := Option.map_eq_some_iff.mp hstep
      refine ⟨proceed_answered, trivial, ?_⟩
      obtain ⟨store, rfl | rfl⟩ := Crawling.turn_put hturn
      · exact h.proceed (.inl rfl) (fun _ => rfl) fun hidle => .inr ⟨hidle, rfl⟩
      · exact h.proceed (.inr rfl) (fun _ => rfl) fun hidle => .inr ⟨hidle, rfl⟩
  | sleep how =>
      simp only [Step, CrawlerClients.step] at hstep
      split at hstep
      · cases hstep
        refine ⟨proceed_answered, trivial, ?_⟩
        have hgone : s.crawling.sleep.1.client = false := by
          cases hconn : s.conn with
          | none => simp [Crawling.sleep, h.client, hconn]
          | some conn =>
              have hmod := h.module (by simp [hconn])
              have hnot : s.crawling.mod.isNone = false := by simpa [Option.isSome_iff_ne_none] using hmod
              simp [Crawling.sleep, hnot]
        refine h.proceed (.inr hgone) (fun hhas => ?_) fun _ => .inl ⟨hgone, rfl⟩
        rw [hgone] at hhas
        cases hhas
      · cases hstep
  | other e =>
      simp only [Step, CrawlerClients.step] at hstep
      split at hstep
      · cases hstep
      · obtain ⟨store, -, rfl⟩ := Option.map_eq_some_iff.mp hstep
        exact ⟨rfl, trivial, h.client, h.module, h.idle, h.once⟩

theorem step_answers (h : s.Consistent) (hstep : Step cfg s e t) :
    ∃ calls, t.answered = calls ++ s.answered ∧ (s.Starts e ↔ Untouched calls) ∧ (s.Starts e → t.Consistent) := by
  have hother (he : ∀ ids remaining type start conn, e ≠ .start ids remaining type start conn) :
      ∃ calls, t.answered = calls ++ s.answered ∧ (s.Starts e ↔ Untouched calls) ∧ (s.Starts e → t.Consistent) := by
    obtain ⟨hanswered, hstarts, hcons⟩ := other_step h hstep he
    exact ⟨[], hanswered, iff_of_true hstarts fun _ hm => (nomatch hm), fun _ => hcons⟩
  cases e with
  | start ids remaining type start conn =>
      obtain ⟨a, ha, hrest⟩ := start_step h hstep
      exact ⟨[a], ha, hrest⟩
  | turn i turn => exact hother fun _ _ _ _ _ he => (nomatch he)
  | sleep how => exact hother fun _ _ _ _ _ he => (nomatch he)
  | other e => exact hother fun _ _ _ _ _ he => (nomatch he)

/-! ## Runs -/

theorem run_answered (hrun : Run (Step cfg) s es t) : ∃ calls, t.answered = calls ++ s.answered := by
  induction hrun with
  | nil s => exact ⟨[], rfl⟩
  | @cons s s' t e es hstep _ ih =>
      obtain ⟨calls, hcalls⟩ := ih
      have hone : ∃ calls, s'.answered = calls ++ s.answered := by
        cases e with
        | start ids remaining type start conn =>
            obtain ⟨result, -, hcalled⟩ := start_called hstep
            exact ⟨[_], hcalled.answered⟩
        | turn i turn =>
            obtain ⟨r, -, rfl⟩ := Option.map_eq_some_iff.mp hstep
            exact ⟨[], proceed_answered⟩
        | sleep how =>
            simp only [Step, CrawlerClients.step] at hstep
            split at hstep <;> cases hstep
            exact ⟨[], proceed_answered⟩
        | other e =>
            simp only [Step, CrawlerClients.step] at hstep
            split at hstep
            · cases hstep
            · obtain ⟨store, -, rfl⟩ := Option.map_eq_some_iff.mp hstep
              exact ⟨[], rfl⟩
      obtain ⟨calls', hcalls'⟩ := hone
      exact ⟨calls ++ calls', by rw [hcalls, hcalls', List.append_assoc]⟩

theorem untouched_append {calls calls' : List Answered} :
    Untouched (calls ++ calls') ↔ Untouched calls ∧ Untouched calls' := by
  simp only [Untouched, List.mem_append, or_imp, forall_and]

theorem run_answers (h : s.Consistent) (hrun : Run (Step cfg) s es t) :
    ∃ calls, t.answered = calls ++ s.answered ∧
      (Run (fun s e s' => Step cfg s e s' ∧ s.Starts e) s es t ↔ Untouched calls) ∧
      (Untouched calls → t.Consistent) := by
  induction hrun with
  | nil s => exact ⟨[], rfl, iff_of_true (.nil s) fun _ hm => (nomatch hm), fun _ => h⟩
  | @cons s s' t e es hstep hrest ih =>
      obtain ⟨calls, hcalls, hiff, hcons⟩ := step_answers h hstep
      have hsplit : Run (fun s e s' => Step cfg s e s' ∧ s.Starts e) s (e :: es) t ↔
          s.Starts e ∧ Run (fun s e s' => Step cfg s e s' ∧ s.Starts e) s' es t := by
        rw [run_cons]
        constructor
        · rintro ⟨s'', ⟨hstep', hstarts⟩, hrest'⟩
          obtain rfl : s' = s'' := Option.some.inj (hstep.symm.trans hstep')
          exact ⟨hstarts, hrest'⟩
        · rintro ⟨hstarts, hrest'⟩
          exact ⟨s', ⟨hstep, hstarts⟩, hrest'⟩
      by_cases hstarts : s.Starts e
      · obtain ⟨later, hlater, hiff', hcons'⟩ := ih (hcons hstarts)
        refine ⟨later ++ calls, by rw [hlater, hcalls, List.append_assoc], ?_, ?_⟩
        · rw [hsplit, untouched_append, hiff, hiff', and_comm]
        · exact fun hu => hcons' (untouched_append.mp hu).1
      · obtain ⟨later, hlater⟩ := run_answered hrest
        have hbad : ¬ Untouched (later ++ calls) := fun hu => hstarts (hiff.mpr (untouched_append.mp hu).2)
        refine ⟨later ++ calls, by rw [hlater, hcalls, List.append_assoc], ?_, fun hu => absurd hu hbad⟩
        rw [hsplit]
        exact iff_of_false (fun hg => hstarts hg.1) hbad

theorem init_consistent (store : Store) : (init store).Consistent :=
  ⟨rfl, fun hsome => (nomatch hsome), fun _ => rfl, rfl⟩

/-- Clients are owned as they should be in a run just if each call that gets as far as the module starts a crawl. -/
theorem clients_owned_iff {store : Store} (h : Run (Step cfg) (init store) es s) :
    s.Owned ↔ Run (fun s e s' => Step cfg s e s' ∧ s.Starts e) (init store) es s := by
  obtain ⟨calls, hcalls, hiff, hcons⟩ := run_answers (init_consistent store) h
  have hanswered : s.answered = calls := by rw [hcalls, init, List.append_nil]
  rw [hiff, ← hanswered]
  constructor
  · exact Owned.untouched
  · intro huntouched
    have hcons' := hcons (hanswered ▸ huntouched)
    exact ⟨hcons'.idle, hcons'.once, huntouched⟩

/-! ## One dump -/

/-- `lru_crawler metadump 1`, for connection 5. -/
def metadump_one (bipbuf : Bool) : Event := .start (· = 1) 0 .CRAWLER_METADUMP ⟨true, true, bipbuf⟩ 5

/-- The LRU is empty, so that the crawl is over at once. -/
def dump : List Event := [metadump_one true, .turn 1 ⟨.ok, true, true, false⟩, .sleep .released]

theorem dump_runs : (dump.foldlM (CrawlerClients.step Store.settings) (init .empty)).isSome := by decide +kernel

theorem clients_owned_after_dump : Owned (Option.get _ dump_runs) ↔
    Run (fun s e s' => Step Store.settings s e s' ∧ s.Starts e) (init .empty) dump (Option.get _ dump_runs) :=
  clients_owned_iff (.of_foldlM (Option.some_get dump_runs).symm)

theorem no_buffer_runs : ([metadump_one false].foldlM (CrawlerClients.step Store.settings) (init .empty)).isSome := by
  decide +kernel

/-- There is no memory for the buffer: the call fails, and the client stays with the crawler. -/
theorem clients_not_owned : ∃ s, Run (Step Store.settings) (init .empty) [metadump_one false] s ∧
    s.answered = [⟨-2, (none, none), (some 5, some .crawler_metadump_mod)⟩] ∧
    s.crawling.lru_crawler_running = false ∧ s.active = (some 5, some .crawler_metadump_mod) ∧ ¬ s.Owned := by
  have hidle : (Option.get _ no_buffer_runs).crawling.lru_crawler_running = false := by decide +kernel
  have hactive : (Option.get _ no_buffer_runs).active = (some 5, some .crawler_metadump_mod) := by decide +kernel
  refine ⟨_, .of_foldlM (Option.some_get no_buffer_runs).symm, by decide +kernel, hidle, hactive, fun howned => ?_⟩
  have hnone := hactive.symm.trans (howned.idle hidle)
  cases hnone

end CrawlerClients

end Memcached.MemoryLru

import Memcached.MemoryLru.CrawlerLocks

/-!
# The clients of memory_lru/crawler.c

Which connection a crawl writes to, what `lru_crawler_start` returns, and what becomes of each connection. The thread
and the start of a crawl are those of `Crawling`; a worker keeps its connection unless a crawl was started for it.
-/

namespace Memcached.MemoryLru

/-- How the crawler gives up a connection. -/
inductive Disposal
  /-- `lru_crawler_close_client`. -/
  | closed
  /-- `lru_crawler_release_client`. -/
  | released
  deriving DecidableEq

/-- `active_crawler_mod`: `c.c` and `mod`. -/
abbrev Active := Option Nat × Option Module

/-- A call of `lru_crawler_start` that was answered. -/
structure Answered where
  result : Int
  before : Active
  after : Active
  deriving DecidableEq

structure CrawlerClients where
  crawling : Crawling
  /-- `active_crawler_mod.c.c`. -/
  conn : Option Nat
  /-- The connections that were taken over from workers, newest first. This and the lists below are not in the code. -/
  accepted : List Nat
  /-- The connections that were closed or released, newest first. -/
  disposed : List (Nat × Disposal)
  /-- The calls of `lru_crawler_start`. -/
  answered : List Answered

/-- The crawler of the LRU is off. -/
def Store.crawler_off (s : Store) (sid : UInt8) : Bool := (s.heap (.crawler sid)).it_flags = .zero

/-- The `starts` of the loop of `lru_crawler_start`. -/
def Store.crawler_starts (ids : UInt8 → Bool) (remaining : UInt32) : List UInt8 → Store → Option Nat
  | [], _ => some 0
  | sid :: sids, s => do
      let s' ← if ids sid then s.do_lru_crawler_start sid remaining else some s
      let rest ← crawler_starts ids remaining sids s'
      some ((if ids sid ∧ s.crawler_off sid then 1 else 0) + rest)

namespace Crawling

/-- The LRUs that `lru_crawler_start` goes over. -/
def sids : List UInt8 := (List.range' POWER_SMALLEST (POWER_LARGEST - POWER_SMALLEST)).map UInt8.ofNat

def crawler_count (c : Crawling) : Nat :=
  ((List.range POWER_LARGEST).map UInt8.ofNat).countP fun i => (c.store.heap (.crawler i)).it_flags = .one

/-- A crawl is on, which this one may not join. -/
def is_busy (c : Crawling) (type : CrawlerRunType) : Bool :=
  c.lru_crawler_running ∧ ¬(type = .CRAWLER_AUTOEXPIRE ∧ c.active_crawler_type = .CRAWLER_AUTOEXPIRE)

def is_blocked (c : Crawling) (type : CrawlerRunType) : Bool :=
  type = .CRAWLER_AUTOEXPIRE ∧ c.block_ae_until > c.store.current_time

/-- What `lru_crawler_start` returns. -/
def start_result (c : Crawling) (ids : UInt8 → Bool) (remaining : UInt32) (type : CrawlerRunType) (start : Start) :
    Option Int :=
  if c.is_busy type ∨ c.is_blocked type then some (-1)
  else if !c.lru_crawler_running ∧ type.mod.needs_client ∧ (!start.client ∨ c.client ∨ !start.bipbuf) then some (-2)
  else (Store.crawler_starts ids remaining sids c.store).map Int.ofNat

end Crawling

namespace CrawlerClients

def active (s : CrawlerClients) : Active := (s.conn, s.crawling.mod)

/-- The crawler thread went on to `c`; it may have given up its client. -/
def proceed (s : CrawlerClients) (c : Crawling) (how : Disposal) : CrawlerClients :=
  if s.crawling.client ∧ !c.client then
    { s with crawling := c, conn := none, disposed := s.conn.toList.map (·, how) ++ s.disposed }
  else { s with crawling := c }

/-- `lru_crawler_start`; a worker waits for the end of the crawl if it returns a positive number for its connection. -/
def lru_crawler_start (s : CrawlerClients) (ids : UInt8 → Bool) (remaining : UInt32) (type : CrawlerRunType)
    (start : Start) (conn : Nat) : Option CrawlerClients := do
  let result ← s.crawling.start_result ids remaining type start
  let (c, _) ← s.crawling.lru_crawler_start ids remaining type start
  let t := { s with
    crawling := c
    conn := if c.client ∧ !s.crawling.client then some conn else s.conn
    accepted := if type.mod.needs_client ∧ 0 < result then conn :: s.accepted else s.accepted }
  some { t with answered := ⟨result, s.active, t.active⟩ :: s.answered }

/-- A turn of the thread, its end of a crawl, a call by a worker, and what all others do to the store. -/
inductive Event
  | turn (i : UInt8) (turn : Turn)
  | sleep (how : Disposal)
  | start (ids : UInt8 → Bool) (remaining : UInt32) (type : CrawlerRunType) (start : Start) (conn : Nat)
  | other (e : MemoryLru.Event)

/-- The thread goes to sleep when no crawler is on. -/
def step (cfg : Settings) (s : CrawlerClients) : Event → Option CrawlerClients
  | .turn i turn => (s.crawling.turn i turn).map fun r => s.proceed r.1 .closed
  | .sleep how => if s.crawling.crawler_count = 0 then some (s.proceed s.crawling.sleep.1 how) else none
  | .start ids remaining type start conn => s.lru_crawler_start ids remaining type start conn
  | .other e =>
      if e.is_crawlers then none
      else (s.crawling.store.step cfg e).map fun store => { s with crawling := s.crawling.put store }

def Step (cfg : Settings) (s : CrawlerClients) (e : Event) (s' : CrawlerClients) : Prop := step cfg s e = some s'

/-- After `init_lru_crawler`. -/
def init (store : Store) : CrawlerClients where
  crawling :=
    { store := store, mod := none, client := false, active_crawler_type := .CRAWLER_AUTOEXPIRE,
      lru_crawler_running := false, block_ae_until := 0 }
  conn := none
  accepted := []
  disposed := []
  answered := []

end CrawlerClients

end Memcached.MemoryLru

import Memcached.Lib.Discipline
import Memcached.MemoryLru.Crawler
import Memcached.MemoryLru.Slabs

/-!
# The locks of memory_lru/crawler.c

What the crawler thread, and a worker that starts a crawl, do to mutexes, to the lists of the LRUs and to items, in the
order of the code, beside what becomes of the store.
-/

namespace Memcached.MemoryLru

open Discipline

inductive Mutex
  | lru_locks (i : UInt8)
  | lru_crawler_lock
  /-- The lock of the bucket of the item. -/
  | item_lock (it : Ptr)
  | stats_lock
  /-- The lock of `crawler_expired_data`. -/
  | data_lock
  deriving DecidableEq

/-- The guarded things are the lists of the LRUs. -/
abbrev CrawlerAction := Action Mutex UInt8 Ptr

def POWER_LARGEST : Nat := 256

/-- `crawler_mod_regs`. -/
inductive Module
  | crawler_expired_mod
  | crawler_metadump_mod
  deriving DecidableEq

inductive CrawlerRunType
  | CRAWLER_AUTOEXPIRE
  | CRAWLER_EXPIRED
  | CRAWLER_METADUMP
  deriving DecidableEq

def CrawlerRunType.mod : CrawlerRunType → Module
  | .CRAWLER_AUTOEXPIRE | .CRAWLER_EXPIRED => .crawler_expired_mod
  | .CRAWLER_METADUMP => .crawler_metadump_mod

namespace Module

def needs_lock : Module → Bool
  | crawler_expired_mod => true
  | crawler_metadump_mod => false

def needs_client : Module → Bool
  | crawler_expired_mod => false
  | crawler_metadump_mod => true

/-- `init`, where its memory can be allocated. -/
def init (calloc : Bool) : Module → List CrawlerAction
  | crawler_expired_mod => if calloc then [.lock .data_lock, .unlock .data_lock] else []
  | crawler_metadump_mod => []

def doneclass : Module → List CrawlerAction
  | crawler_expired_mod => [.lock .data_lock, .unlock .data_lock]
  | crawler_metadump_mod => []

def finalize : Module → List CrawlerAction
  | crawler_expired_mod => [.lock .data_lock, .unlock .data_lock]
  | crawler_metadump_mod => []

end Module

/-- What `lru_crawler_client_getbuf` comes to. -/
inductive Getbuf
  | ok
  /-- The client is closed, and -1 returned. -/
  | closed
  /-- `poll` failed: -1 is returned. -/
  | failed
  deriving DecidableEq

/-- What one turn of the loop of `item_crawler_thread` meets. -/
structure Turn where
  getbuf : Getbuf
  /-- `item_trylock`. -/
  lock : Bool
  /-- `extstore_check`, of a header item. -/
  is_valid : Bool
  /-- The crawler lock is given away for a moment. -/
  yields : Bool

/-- What `lru_crawler_start` meets. -/
structure Start where
  /-- `c` and `sfd` are given. -/
  client : Bool
  calloc : Bool
  /-- `bipbuf_new`. -/
  bipbuf : Bool

/-- The crawlers, with `active_crawler_mod`. -/
structure Crawling where
  store : Store
  mod : Option Module
  /-- `active_crawler_mod.c.c` is not `NULL`. -/
  client : Bool
  active_crawler_type : CrawlerRunType
  lru_crawler_running : Bool
  block_ae_until : UInt32

namespace Crawling

def put (c : Crawling) (s : Store) : Crawling := { c with store := s }

/-! ## The thread -/

def lru_crawler_class_done (c : Crawling) (mod : Module) (i : UInt8) : Option (Crawling × List CrawlerAction) :=
  (c.store.lru_crawler_class_done i).map fun s =>
    (c.put s, [.change i, .unlock (.lru_locks i)] ++ mod.doneclass)

/-- `eval` of the module, with what it does to `search`. -/
def eval (c : Crawling) (mod : Module) (search : Ptr) (is_valid : Bool) : Option (Crawling × List CrawlerAction) :=
  let it := c.store.heap search
  match mod with
  | .crawler_expired_mod =>
      (c.store.crawler_expired_eval search is_valid).map fun s =>
        (c.put s,
          [.lock .data_lock, .read search] ++
            (if c.store.crawler_expired it is_valid ∧ it.it_flags.linked then [.change it.slabs_clsid] else []) ++
            -- either way the item is looked at once more
            [.drop search, .read search, .unlock .data_lock])
  | .crawler_metadump_mod =>
      (c.store.crawler_metadump_eval search).map fun s => (c.put s, [.read search, .drop search])

/-- The turn from the item on, with the lock of its LRU held. -/
def examine (c : Crawling) (mod : Module) (i : UInt8) (search : Ptr) (turn : Turn) :
    Option (Crawling × List CrawlerAction) := do
  if !turn.lock then some (c, [.read search, .unlock (.lru_locks i)])
  else
    let s := c.store.refcount_incr search
    if (s.heap search).refcount ≠ 2 then
      some (c.put (s.refcount_decr search),
        [.read search, .lock (.item_lock search), .drop search, .unlock (.item_lock search), .unlock (.lru_locks i)])
    else
      let (c, evaluated) ← (c.put s).eval mod search turn.is_valid
      some (c, [.read search, .lock (.item_lock search)] ++ (if mod.needs_lock then [] else [.unlock (.lru_locks i)]) ++
        evaluated ++ [.unlock (.item_lock search)] ++ (if mod.needs_lock then [.unlock (.lru_locks i)] else []) ++
        if turn.yields then [.unlock .lru_crawler_lock, .lock .lru_crawler_lock] else [])

/-- The turn from the lock of the LRU on. -/
def search (c : Crawling) (mod : Module) (i : UInt8) (turn : Turn) : Option (Crawling × List CrawlerAction) := do
  let (s, search) ← c.store.do_item_crawl_q (.crawler i)
  match search with
  | none =>
      let (c, done) ← (c.put s).lru_crawler_class_done mod i
      some (c, [.lock (.lru_locks i), .change i] ++ done)
  | some search =>
      let remaining := s.remaining i
      let s := if remaining = 0 then s else s.set_remaining i (remaining - 1)
      let (c, rest) ←
        if remaining ≠ 0 ∧ remaining - 1 < 1 then (c.put s).lru_crawler_class_done mod i
        else (c.put s).examine mod i search turn
      some (c, [.lock (.lru_locks i), .change i, .find search] ++ rest)

/-- One turn of the loop of `item_crawler_thread`. -/
def turn (c : Crawling) (i : UInt8) (turn : Turn) : Option (Crawling × List CrawlerAction) := do
  if (c.store.heap (.crawler i)).it_flags ≠ .one then some (c, [])
  else
    let mod ← c.mod
    if c.client then
      match turn.getbuf with
      | .ok => c.search mod i turn
      | .closed => ({ c with client := false } : Crawling).lru_crawler_class_done mod i
      | .failed => c.lru_crawler_class_done mod i
    else if mod.needs_client then c.lru_crawler_class_done mod i
    else c.search mod i turn

/-- All crawlers are done, and the thread waits for `lru_crawler_cond`. -/
def sleep (c : Crawling) : Crawling × List CrawlerAction :=
  ({ c with mod := none, client := c.client && c.mod.isNone, lru_crawler_running := false },
    (c.mod.elim [] Module.finalize) ++ [.lock .stats_lock, .unlock .stats_lock] ++
      [.unlock .lru_crawler_lock, .lock .lru_crawler_lock])

/-! ## The start of a crawl -/

def do_lru_crawler_start (c : Crawling) (sid : UInt8) (remaining : UInt32) : Option (Crawling × List CrawlerAction) :=
  let starts : Bool := (c.store.heap (.crawler sid)).it_flags = .zero
  (c.store.do_lru_crawler_start sid remaining).map fun s =>
    ({ c with store := s, lru_crawler_running := c.lru_crawler_running || starts },
      [.lock (.lru_locks sid)] ++ (if starts then [.change sid] else []) ++ [.unlock (.lru_locks sid)] ++
        if starts then [.lock .stats_lock, .unlock .stats_lock] else [])

/-- The loop of `lru_crawler_start` over the LRUs. -/
def start_all (ids : UInt8 → Bool) (remaining : UInt32) : List UInt8 → Crawling → Option (Crawling × List CrawlerAction)
  | [], c => some (c, [])
  | sid :: sids, c => do
      let (c, started) ← if ids sid then c.do_lru_crawler_start sid remaining else some (c, [])
      let (c, rest) ← start_all ids remaining sids c
      some (c, started ++ rest)

def lru_crawler_start (c : Crawling) (ids : UInt8 → Bool) (remaining : UInt32) (type : CrawlerRunType) (start : Start) :
    Option (Crawling × List CrawlerAction) := do
  let asked := [.lock .lru_crawler_lock, .lock .stats_lock, .unlock .stats_lock]
  let sids := (List.range' POWER_SMALLEST (POWER_LARGEST - POWER_SMALLEST)).map UInt8.ofNat
  if c.lru_crawler_running ∧ ¬ (type = .CRAWLER_AUTOEXPIRE ∧ c.active_crawler_type = .CRAWLER_AUTOEXPIRE) then
    some ({ c with block_ae_until := c.store.current_time + 60 }, asked ++ [.unlock .lru_crawler_lock])
  else if type = .CRAWLER_AUTOEXPIRE ∧ c.block_ae_until > c.store.current_time then
    some (c, asked ++ [.unlock .lru_crawler_lock])
  else if c.lru_crawler_running then
    let (c, started) ← start_all ids remaining sids c
    some (c, asked ++ started ++ [.unlock .lru_crawler_lock])
  else
    let asked := asked ++ type.mod.init start.calloc
    let refused := type.mod.needs_client ∧ (!start.client ∨ c.client ∨ !start.bipbuf)
    -- `lru_crawler_set_client` takes the client before it asks for a buffer
    let c := { c with
      mod := some type.mod
      active_crawler_type := type
      client := c.client || (type.mod.needs_client && start.client) }
    if refused then some (c, asked ++ [.unlock .lru_crawler_lock])
    else
      let (c, started) ← start_all ids remaining sids c
      some (c, asked ++ started ++ [.unlock .lru_crawler_lock])

/-- What `strtok_r` gives for the separator `","`. -/
def strtok (slabs : List UInt8) : List (List UInt8) := (slabs.splitOn 44).filter (· ≠ [])

/-- The `tocrawl` of `lru_crawler_crawl`, and `none` for a bad class. -/
def tocrawl (safe_strtoul : List UInt8 → Option UInt32) (slabs : List UInt8) : Option (UInt8 → Bool) :=
  if slabs = [97, 108, 108] then some fun _ => true
  else
    (strtok slabs).foldlM (fun ids p => do
      let sid ← safe_strtoul p
      if sid.toNat < POWER_SMALLEST ∨ sid.toNat ≥ MAX_NUMBER_OF_SLAB_CLASSES then none
      else
        let lrus := [Lru.TEMP_LRU, .HOT_LRU, .WARM_LRU, .COLD_LRU].map fun lru => sid.toUInt8 ||| lru.bits
        some fun id => ids id || id ∈ lrus) fun _ => false

def lru_crawler_crawl (safe_strtoul : List UInt8 → Option UInt32) (c : Crawling) (slabs : List UInt8)
    (type : CrawlerRunType) (remaining : UInt32) (start : Start) : Option (Crawling × List CrawlerAction) :=
  match tocrawl safe_strtoul slabs with
  | none => some (c, [.unlock .lru_crawler_lock])
  | some ids => c.lru_crawler_start ids remaining type start

end Crawling

/-! ## Runs -/

/-- A turn of the thread, a call by a worker, and what all others do to the store. -/
inductive CrawlEvent
  | turn (i : UInt8) (turn : Turn)
  | sleep
  | crawl (slabs : List UInt8) (type : CrawlerRunType) (remaining : UInt32) (start : Start)
  | other (e : Event)

/-- The crawler is moved by its own thread, and started by `lru_crawler_start`. -/
def Event.is_crawlers : Event → Bool
  | .crawler .. | .crawler_start .. => true
  | _ => false

/-- A step, with what the thread that takes it does. -/
def Crawling.step (cfg : Settings) (safe_strtoul : List UInt8 → Option UInt32) (c : Crawling) :
    CrawlEvent → Option (Crawling × List CrawlerAction)
  | .turn i turn => c.turn i turn
  | .sleep => some c.sleep
  | .crawl slabs type remaining start => c.lru_crawler_crawl safe_strtoul slabs type remaining start
  | .other e => if e.is_crawlers then none else (c.store.step cfg e).map fun s => (c.put s, [])

end Memcached.MemoryLru

import Memcached.MemoryLru.Items

/-!
# The crawler of memory_lru/crawler.c, and the cache as a whole

The crawler is a false item of each LRU that walks from the tail to the head. A `step` is one call of a function of
items.c or crawler.c, the drain of one entry of a bump buffer, a clock tick or a flush.
-/

namespace Memcached.MemoryLru

def LRU_CRAWLER_CAP_REMAINING : UInt32 := -1

/-- `active_crawler_mod`, with what `extstore_check` says of an item of `ITEM_HDR`. -/
inductive CrawlerMod
  | expired (is_valid : Bool)
  | metadump
  deriving DecidableEq

namespace Store

def set_remaining (s : Store) (i : UInt8) (remaining : UInt32) : Store :=
  { s with remaining := Function.update s.remaining i remaining }

/-- The fields of a crawler that starts. -/
def crawler_init (sid : UInt8) (c : Item) : Item :=
  { c with nbytes := 0, key := [], it_flags := .one, next := none, prev := none, time := 0, slabs_clsid := sid }

def do_lru_crawler_start (s : Store) (sid : UInt8) (remaining : UInt32) : Option Store :=
  if (s.heap (.crawler sid)).it_flags = .zero then
    let s := s.modify (.crawler sid) (crawler_init sid)
    let remaining := if remaining = LRU_CRAWLER_CAP_REMAINING then s.sizes sid else remaining
    let remaining := if remaining ≠ 0 then remaining + 1 else remaining
    (s.set_remaining sid remaining).do_item_linktail_q (.crawler sid)
  else some s

def lru_crawler_class_done (s : Store) (i : UInt8) : Option Store :=
  (s.modify (.crawler i) fun c => { c with it_flags := .zero }).do_item_unlinktail_q (.crawler i)

/-- What `crawler_expired_eval` takes for expired. -/
def crawler_expired (s : Store) (it : Item) (is_valid : Bool) : Bool :=
  it.exptime ≠ 0 ∧ it.exptime < s.current_time ∨ s.item_is_flushed it ∨ it.it_flags.hdr ∧ ¬ is_valid

def crawler_expired_eval (s : Store) (search : Ptr) (is_valid : Bool) : Option Store := do
  if s.crawler_expired (s.heap search) is_valid then
    let s ← s.do_item_unlink_nolock search
    let s ← s.do_item_remove search
    if (s.heap search).slabs_clsid = 0 then some s else none
  else some (s.refcount_decr search)

/-- `crawler_metadump_eval`, without what it prints. -/
def crawler_metadump_eval (s : Store) (it : Ptr) : Option Store := some (s.refcount_decr it)

/-- The crawler came to `search`, and `lock` is what `item_trylock` gives. -/
def crawl (s : Store) (search : Ptr) (mod : CrawlerMod) (lock : Bool) : Option Store :=
  if !lock then some s
  else
    let s := s.refcount_incr search
    if (s.heap search).refcount ≠ 2 then some (s.refcount_decr search)
    else match mod with
      | .expired is_valid => s.crawler_expired_eval search is_valid
      | .metadump => s.crawler_metadump_eval search

/-- The body of the loop of `item_crawler_thread`; `client` is whether a client that is needed can be written to. -/
def item_crawler_thread (s : Store) (i : UInt8) (mod : CrawlerMod) (client lock : Bool) : Option Store := do
  if (s.heap (.crawler i)).it_flags ≠ .one then some s
  else if !client then s.lru_crawler_class_done i
  else
    let (s, search) ← s.do_item_crawl_q (.crawler i)
    match search with
    | none => s.lru_crawler_class_done i
    | some search =>
        let remaining := s.remaining i
        if remaining = 0 then s.crawl search mod lock
        else
          let s := s.set_remaining i (remaining - 1)
          if remaining - 1 < 1 then s.lru_crawler_class_done i else s.crawl search mod lock

end Store

/-! ## The cache -/

inductive Event
  | alloc (new : NewItem) (rounds : List Round)
  | link (n : Nat)
  | unlink (n : Nat)
  | unlink_nolock (n : Nat)
  | remove (n : Nat)
  | replace (n m : Nat)
  | update (n : Nat)
  | update_nolock (n : Nat)
  | get (key : Key) (do_update room : Bool)
  | touch (key : Key) (exptime : UInt32) (room : Bool)
  | pull (a : Pull) (locks : List Bool)
  | bump (n : Nat)
  | crawler_start (sid : UInt8) (remaining : UInt32)
  | crawler (i : UInt8) (mod : CrawlerMod) (client lock : Bool)
  | tick (now : UInt32)
  | flush (oldest_live : UInt32) (oldest_cas : UInt64)

/-- One event. The callers of items.c link an item under a key that is absent, or replace the item that has it. -/
def Store.step (cfg : Settings) (s : Store) : Event → Option Store
  | .alloc new rounds => (s.do_item_alloc cfg new rounds).map (·.1)
  | .link n => if s.table (s.heap (.item n)).key = none then s.do_item_link cfg (.item n) else none
  | .unlink n => s.do_item_unlink (.item n)
  | .unlink_nolock n => s.do_item_unlink_nolock (.item n)
  | .remove n => s.release (.item n)
  | .replace n m =>
      if s.table (s.heap (.item m)).key = none ∨ s.table (s.heap (.item m)).key = some (.item n) then
        s.do_item_replace cfg (.item n) (.item m)
      else none
  | .update n => s.do_item_update cfg (.item n)
  | .update_nolock n => s.do_item_update_nolock (.item n)
  | .get key do_update room => (s.do_item_get cfg key do_update room).map (·.1)
  | .touch key exptime room => (s.do_item_touch cfg key exptime room).map (·.1)
  | .pull a locks => (s.lru_pull_tail cfg a locks).map (·.1)
  | .bump n => s.lru_maintainer_bump cfg (.item n)
  | .crawler_start sid remaining => s.do_lru_crawler_start sid remaining
  | .crawler i mod client lock => s.item_crawler_thread i mod client lock
  | .tick now => if s.current_time ≤ now then some { s with current_time := now } else none
  | .flush oldest_live oldest_cas => some { s with oldest_live := oldest_live, oldest_cas := oldest_cas }

/-- The steps that happen. -/
def Step (cfg : Settings) (s : Store) (e : Event) (s' : Store) : Prop := s.step cfg e = some s'

end Memcached.MemoryLru

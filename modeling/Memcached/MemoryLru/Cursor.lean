import Memcached.Lib.Cursor
import Memcached.MemoryLru.Crawler
import Memcached.MemoryLru.Lemmas.ItemQueues

/-!
# The crawler as a cursor

The crawler of an LRU stands among its items. Between two of its steps the items may be linked and unlinked by anyone
who holds the lock of the LRU.
-/

namespace Memcached.MemoryLru.Store

open Cursor

/-- The part of the loop of `item_crawler_thread` that holds the lock of the LRU: the item that is to be examined, or
`none` where the class is done. -/
def crawler_search (s : Store) (i : UInt8) : Option (Store × Option Ptr) := do
  let (s, search) ← s.do_item_crawl_q (.crawler i)
  match search with
  | none => (s.lru_crawler_class_done i).map (·, none)
  | some search =>
      let remaining := s.remaining i
      if remaining = 0 then some (s, some search)
      else
        let s := s.set_remaining i (remaining - 1)
        if remaining - 1 < 1 then (s.lru_crawler_class_done i).map (·, none) else some (s, some search)

/-- The body of the loop is the search, and then the item is examined. -/
theorem item_crawler_thread_search {s : Store} {i : UInt8} {mod : CrawlerMod} {lock : Bool}
    (hone : (s.heap (.crawler i)).it_flags = .one) :
    s.item_crawler_thread i mod true lock =
      (s.crawler_search i).bind fun (s, search) =>
        match search with
        | none => some s
        | some search => s.crawl search mod lock := by
  simp only [item_crawler_thread, crawler_search, hone, ne_eq, not_true_eq_false, if_false, Bool.not_true,
    Bool.false_eq_true]
  cases s.do_item_crawl_q (.crawler i) with
  | none => rfl
  | some r =>
      obtain ⟨s₁, search⟩ := r
      cases search with
      | none => cases hd : s₁.lru_crawler_class_done i <;> simp [hd]
      | some search =>
          by_cases hzero : s₁.remaining i = 0
          · simp [hzero]
          · by_cases hlast : s₁.remaining i - 1 = 0
            · cases hd : (s₁.set_remaining i 0).lru_crawler_class_done i <;> simp [hzero, hlast, hd]
            · simp [hzero, hlast]

/-- What happens while the crawler of `i` is on. The functions of items.c unlink an item that is in the list, and link
one that is not. -/
inductive ListStep (i : UInt8) : Store → Edit Nat → Store → Prop
  | link {s s' : Store} {n : Nat} (hclsid : (s.heap (.item n)).slabs_clsid = i)
      (hout : ∀ l, (s.queue i).Holds l → .item n ∉ l) (h : s.do_item_link_q (.item n) = some s') :
      ListStep i s (.link n) s'
  | unlink {s s' : Store} {n : Nat} (hclsid : (s.heap (.item n)).slabs_clsid = i)
      (hin : ∀ l, (s.queue i).Holds l → .item n ∈ l) (h : s.do_item_unlink_q (.item n) = some s') :
      ListStep i s (.unlink n) s'
  | pass {s s' : Store} {n : Nat} (h : s.crawler_search i = some (s', some (.item n))) : ListStep i s (.pass n) s'
  /-- The list and the crawler stay as they are. -/
  | other {s s' : Store} (hlist : ∀ l, (s.queue i).Holds l → (s'.queue i).Holds l)
      (hcrawler : (s'.heap (.crawler i)).core = (s.heap (.crawler i)).core) (hremaining : s'.remaining i = s.remaining i) :
      ListStep i s .other s'

/-- The crawler of `i` is on, and stands where `w` says. -/
structure CrawlerAt (s : Store) (i : UInt8) (w : Position Nat) : Prop where
  holds : (s.queue i).Holds (w.ahead.map .item ++ .crawler i :: w.behind.map .item)
  it_flags : (s.heap (.crawler i)).it_flags = .one
  nbytes : (s.heap (.crawler i)).nbytes = 0
  slabs_clsid : (s.heap (.crawler i)).slabs_clsid = i

end Memcached.MemoryLru.Store

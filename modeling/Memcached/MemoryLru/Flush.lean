import Memcached.MemoryLru.Crawler

/-!
# `flush_all` of thread/memcached.c, over the items of memory_lru

There is one deadline for all items, and every flush sets it. The command has a delay, of which `realtime` makes a time, or
none. What happens after a flush are more flushes, gets, drains of bump buffers, and ticks of the clock.
-/

namespace Memcached.MemoryLru

inductive FlushEvent
  | flush_all (delayed : Option UInt32)
  | get (key : Key) (do_update room : Bool)
  | bump (n : Nat)
  | tick (now : UInt32)

namespace Store

/-- `flush_all` where it is allowed; `delayed` is the `realtime` of an `exptime` above zero. -/
def flush_all (cfg : Settings) (s : Store) (delayed : Option UInt32) : Store :=
  let new_oldest := delayed.getD s.current_time
  if cfg.use_cas then
    let s := { s with oldest_live := new_oldest - 1 }
    if s.oldest_live ≤ s.current_time then
      -- `get_cas_id` counts on
      let s := { s with cas_id := s.cas_id + 1 }
      { s with oldest_cas := s.cas_id }
    else s
  else { s with oldest_live := new_oldest }

def flush_step (cfg : Settings) (s : Store) : FlushEvent → Option Store
  | .flush_all delayed => some (s.flush_all cfg delayed)
  | .get key do_update room => (s.do_item_get cfg key do_update room).map (·.1)
  | .bump n => s.lru_maintainer_bump cfg (.item n)
  | .tick now => if s.current_time ≤ now then some { s with current_time := now } else none

/-- The steps that happen after a flush. -/
def FlushStep (cfg : Settings) (s : Store) (e : FlushEvent) (s' : Store) : Prop := s.flush_step cfg e = some s'

end Store

end Memcached.MemoryLru

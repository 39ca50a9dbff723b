import Mathlib.Algebra.Order.Ring.Int
import Mathlib.Logic.Function.Basic

/-!
# The hash table of slabs_curd/assoc.c

A chain of items linked by `h_next` is a list. While the table expands, buckets from `expand_bucket` on are still
looked up in the old table. `find`, `insert` and `_hashitem_before` make the same choice of bucket, `place`.

The system at the end runs workers and the maintenance thread step by step. A worker locks its key, reads
`expanding`, compares with `expand_bucket`, works on the bucket, and unlocks; a bucket is migrated item by item.
-/

namespace Memcached.SlabsCurd

/-! ## Tables -/

def HASHPOWER_DEFAULT : Nat := 16
def HASHPOWER_MAX : Nat := 32

def hashsize (n : Nat) : Nat := 1 <<< n
def hashmask (n : Nat) : Nat := hashsize n - 1

abbrev Key := List UInt8

/-- An item as the table sees it: where it is, and its key. -/
structure Item where
  addr : Nat
  key : Key
  deriving DecidableEq

/-- The variables of assoc.c. -/
structure Assoc where
  hashpower : Nat
  primary_hashtable : Nat → List Item
  old_hashtable : Nat → List Item
  expanding : Bool
  started_expanding : Bool
  expand_bucket : Nat

/-- A bucket of one of the two tables. -/
inductive Place
  | primary (bucket : Nat)
  | old (bucket : Nat)
  deriving DecidableEq

namespace Assoc

def assoc_init (hashtable_init : Nat) : Assoc where
  hashpower := if hashtable_init ≠ 0 then hashtable_init else HASHPOWER_DEFAULT
  primary_hashtable := fun _ => []
  old_hashtable := fun _ => []
  expanding := false
  started_expanding := false
  expand_bucket := 0

def old_bucket (a : Assoc) (hv : UInt32) : Nat := hv.toNat &&& hashmask (a.hashpower - 1)
def new_bucket (a : Assoc) (hv : UInt32) : Nat := hv.toNat &&& hashmask a.hashpower

/-- The bucket of a hash value, given what was read from `expanding`. -/
def place (a : Assoc) (expanding : Bool) (hv : UInt32) : Place :=
  if expanding ∧ a.old_bucket hv ≥ a.expand_bucket then .old (a.old_bucket hv) else .primary (a.new_bucket hv)

def chain (a : Assoc) : Place → List Item
  | .primary b => a.primary_hashtable b
  | .old b => a.old_hashtable b

def setChain (a : Assoc) : Place → List Item → Assoc
  | .primary b, l => { a with primary_hashtable := Function.update a.primary_hashtable b l }
  | .old b, l => { a with old_hashtable := Function.update a.old_hashtable b l }

/-- The walk of `assoc_find` along a chain. -/
def assoc_find (a : Assoc) (p : Place) (key : Key) : Option Item := (a.chain p).find? fun it => it.key == key

def assoc_insert (a : Assoc) (p : Place) (it : Item) : Assoc := a.setChain p (it :: a.chain p)

/-- `assoc_delete`: `none` when `assert(*before != 0)` fails. -/
def assoc_delete (a : Assoc) (p : Place) (key : Key) : Option Assoc :=
  if (a.chain p).any fun it => it.key == key then some (a.setChain p ((a.chain p).eraseP fun it => it.key == key))
  else none

def assoc_expand (a : Assoc) (calloc_ok : Bool) : Assoc :=
  if calloc_ok then { a with
    old_hashtable := a.primary_hashtable
    primary_hashtable := fun _ => []
    hashpower := a.hashpower + 1
    expanding := true
    expand_bucket := 0 }
  else { a with old_hashtable := a.primary_hashtable }

def assoc_start_expand (a : Assoc) (curr_items : Nat) : Assoc :=
  if a.started_expanding then a
  else if curr_items > (hashsize a.hashpower * 3) / 2 ∧ a.hashpower < HASHPOWER_MAX then
    { a with started_expanding := true }
  else a

/-- One round of the migration loop: `it` goes to the front of its new bucket. -/
def relink (a : Assoc) (hash : Key → UInt32) (it : Item) : Assoc :=
  a.setChain (.primary (a.new_bucket (hash it.key))) (it :: a.primary_hashtable (a.new_bucket (hash it.key)))

end Assoc

/-! ## The system -/

inductive Call
  | find (key : Key)
  | insert (it : Item)
  | delete (key : Key)

def Call.key : Call → Key
  | .find key => key
  | .insert it => it.key
  | .delete key => key

/-- Where a worker is in a call. -/
inductive Worker
  | idle
  | locked (c : Call)
  | read_expanding (c : Call) (expanding : Bool)
  | at_bucket (c : Call) (p : Place)
  | done (c : Call) (result : Option Item)
  | aborted

/-- Where the maintenance thread is; `lock` is the item lock it holds. -/
inductive Maintenance
  | running
  | relinking (lock : Nat) (it : List Item)
  | cleared (lock : Nat)
  | advanced (lock : Nat)
  | unlocking (lock : Nat)
  | waiting

inductive Owner
  | worker (t : Nat)
  | maintenance

structure System where
  assoc : Assoc
  item_lock_hashpower : Nat
  item_locks : Nat → Option Owner
  workers : Nat → Worker
  maintenance : Maintenance
  /-- What was inserted and not deleted since. The code has no such variable. -/
  items : Key → Option Item

namespace System

/-- The index of the lock `item_lock(hv)` and `item_trylock(hv)` take. -/
def item_lock_of (s : System) (hv : Nat) : Nat := hv &&& hashmask s.item_lock_hashpower

def setWorker (s : System) (t : Nat) (w : Worker) : System := { s with workers := Function.update s.workers t w }

def setLock (s : System) (l : Nat) (o : Option Owner) : System :=
  { s with item_locks := Function.update s.item_locks l o }

def lock_power (nthreads : Nat) : Nat :=
  if nthreads < 3 then 10 else if nthreads < 4 then 11 else if nthreads < 5 then 12
  else if nthreads ≤ 10 then 13 else if nthreads ≤ 20 then 14 else 15

/-- `memcached_thread_init`: `none` is its `exit(1)`. -/
def memcached_thread_init (a : Assoc) (nthreads : Nat) : Option System :=
  if lock_power nthreads ≥ a.hashpower then none
  else some {
    assoc := a
    item_lock_hashpower := lock_power nthreads
    item_locks := fun _ => none
    workers := fun _ => .idle
    maintenance := .running
    items := fun _ => none }

inductive Event
  | worker (t : Nat)
  | maintenance
  | assoc_start_expand (curr_items : Nat)

variable (hash : Key → UInt32)

/-- One step of one thread. Keys are inserted when absent and deleted when present. The maintenance thread may leave its
wait at any time, for it tests nothing behind `pthread_cond_wait`; it expands while no worker is in a call. -/
inductive Step : System → Event → System → Prop
  | item_lock {s : System} {t : Nat} {c : Call} (hidle : s.workers t = .idle)
      (hfree : s.item_locks (s.item_lock_of (hash c.key).toNat) = none) :
      Step s (.worker t)
        ((s.setLock (s.item_lock_of (hash c.key).toNat) (some (.worker t))).setWorker t (.locked c))
  | read_expanding {s : System} {t : Nat} {c : Call} (hw : s.workers t = .locked c) :
      Step s (.worker t) (s.setWorker t (.read_expanding c s.assoc.expanding))
  | choose {s : System} {t : Nat} {c : Call} {e : Bool} (hw : s.workers t = .read_expanding c e) :
      Step s (.worker t) (s.setWorker t (.at_bucket c (s.assoc.place e (hash c.key))))
  | assoc_find {s : System} {t : Nat} {key : Key} {p : Place} (hw : s.workers t = .at_bucket (.find key) p) :
      Step s (.worker t) (s.setWorker t (.done (.find key) (s.assoc.assoc_find p key)))
  | assoc_insert {s : System} {t : Nat} {it : Item} {p : Place} (hw : s.workers t = .at_bucket (.insert it) p)
      (habsent : s.items it.key = none) :
      Step s (.worker t) { s.setWorker t (.done (.insert it) none) with
        assoc := s.assoc.assoc_insert p it, items := Function.update s.items it.key (some it) }
  | assoc_delete {s : System} {t : Nat} {key : Key} {p : Place} {a : Assoc}
      (hw : s.workers t = .at_bucket (.delete key) p) (hpresent : s.items key ≠ none)
      (hd : s.assoc.assoc_delete p key = some a) :
      Step s (.worker t) { s.setWorker t (.done (.delete key) none) with
        assoc := a, items := Function.update s.items key none }
  | assert_failed {s : System} {t : Nat} {key : Key} {p : Place} (hw : s.workers t = .at_bucket (.delete key) p)
      (hpresent : s.items key ≠ none) (hd : s.assoc.assoc_delete p key = none) :
      Step s (.worker t) (s.setWorker t .aborted)
  | item_unlock {s : System} {t : Nat} {c : Call} {r : Option Item} (hw : s.workers t = .done c r) :
      Step s (.worker t) ((s.setLock (s.item_lock_of (hash c.key).toNat) none).setWorker t .idle)
  | item_trylock {s : System} (hm : s.maintenance = .running) (he : s.assoc.expanding = true)
      (hfree : s.item_locks (s.item_lock_of s.assoc.expand_bucket) = none) :
      Step s .maintenance { s.setLock (s.item_lock_of s.assoc.expand_bucket) (some .maintenance) with
        maintenance := .relinking (s.item_lock_of s.assoc.expand_bucket)
          (s.assoc.old_hashtable s.assoc.expand_bucket) }
  | item_trylock_failed {s : System} (hm : s.maintenance = .running) (he : s.assoc.expanding = true)
      (hheld : s.item_locks (s.item_lock_of s.assoc.expand_bucket) ≠ none) : Step s .maintenance s
  | relink {s : System} {l : Nat} {it : Item} {next : List Item} (hm : s.maintenance = .relinking l (it :: next)) :
      Step s .maintenance { s with assoc := s.assoc.relink hash it, maintenance := .relinking l next }
  | clear {s : System} {l : Nat} (hm : s.maintenance = .relinking l []) :
      Step s .maintenance { s with
        assoc := s.assoc.setChain (.old s.assoc.expand_bucket) [], maintenance := .cleared l }
  | advance {s : System} {l : Nat} (hm : s.maintenance = .cleared l) :
      Step s .maintenance { s with
        assoc := { s.assoc with expand_bucket := (s.assoc.expand_bucket + 1) % 2 ^ 32 }, maintenance := .advanced l }
  | finish {s : System} {l : Nat} (hm : s.maintenance = .advanced l) :
      Step s .maintenance { s with
        assoc := { s.assoc with expanding :=
          if s.assoc.expand_bucket = hashsize (s.assoc.hashpower - 1) then false else s.assoc.expanding }
        maintenance := .unlocking l }
  | item_trylock_unlock {s : System} {l : Nat} (hm : s.maintenance = .unlocking l) :
      Step s .maintenance { s.setLock l none with maintenance := .running }
  | wait {s : System} (hm : s.maintenance = .running) (he : s.assoc.expanding = false) :
      Step s .maintenance { s with assoc := { s.assoc with started_expanding := false }, maintenance := .waiting }
  | assoc_expand {s : System} {calloc_ok : Bool} (hm : s.maintenance = .waiting) (hpaused : ∀ t, s.workers t = .idle) :
      Step s .maintenance { s with assoc := s.assoc.assoc_expand calloc_ok, maintenance := .running }
  | assoc_start_expand {s : System} {n : Nat} :
      Step s (.assoc_start_expand n) { s with assoc := s.assoc.assoc_start_expand n }

end System

end Memcached.SlabsCurd

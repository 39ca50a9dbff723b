import Mathlib.Logic.Function.Basic

/-!
# The chains of memory_hash/assoc.c

Items live in a heap of addresses, with the links of their LRU and the link of their hash chain. A `Slot` is where an
`item **` can point to. The walk along a chain has fuel; the chains of a table end, so there is enough of it.
-/

namespace Memcached.MemoryHash

def hashsize (n : Nat) : Nat := 1 <<< n
def hashmask (n : Nat) : Nat := hashsize n - 1

abbrev Key := List UInt8

structure Item where
  next : Option Nat
  prev : Option Nat
  h_next : Option Nat
  /-- `ITEM_key`, with its `nkey`. -/
  key : Key
  deriving DecidableEq

structure Assoc where
  heap : Nat → Item
  hashpower : Nat
  primary_hashtable : Nat → Option Nat
  old_hashtable : Nat → Option Nat
  expanding : Bool
  expand_bucket : Nat

inductive Slot
  | primary (bucket : Nat)
  | old (bucket : Nat)
  | h_next (it : Nat)
  deriving DecidableEq

namespace Assoc

variable (a : Assoc)

/-- `*pos` -/
def read : Slot → Option Nat
  | .primary b => a.primary_hashtable b
  | .old b => a.old_hashtable b
  | .h_next it => (a.heap it).h_next

def modify (it : Nat) (f : Item → Item) : Assoc := { a with heap := Function.update a.heap it (f (a.heap it)) }

def write : Slot → Option Nat → Assoc
  | .primary b, p => { a with primary_hashtable := Function.update a.primary_hashtable b p }
  | .old b, p => { a with old_hashtable := Function.update a.old_hashtable b p }
  | .h_next it, p => a.modify it fun i => { i with h_next := p }

/-- Where the chain of a hash value begins. -/
def bucket (hv : UInt32) : Slot :=
  let oldbucket := hv.toNat &&& hashmask (a.hashpower - 1)
  if a.expanding ∧ oldbucket ≥ a.expand_bucket then .old oldbucket
  else .primary (hv.toNat &&& hashmask a.hashpower)

/-- The loop of `_hashitem_before`. -/
def hashitem_walk (key : Key) : Nat → Slot → Option Slot
  | 0, _ => none
  | fuel + 1, pos =>
      match a.read pos with
      | none => some pos
      | some it => if (a.heap it).key = key then some pos else hashitem_walk key fuel (.h_next it)

def _hashitem_before (fuel : Nat) (key : Key) (hv : UInt32) : Option Slot := a.hashitem_walk key fuel (a.bucket hv)

def assoc_insert (it : Nat) (hv : UInt32) : Assoc :=
  let a' := a.modify it fun i => { i with h_next := a.read (a.bucket hv) }
  a'.write (a.bucket hv) (some it)

/-- `none` where `assert(*before != 0)` fails. -/
def assoc_delete (fuel : Nat) (key : Key) (hv : UInt32) : Option Assoc := do
  let before ← a._hashitem_before fuel key hv
  let it ← a.read before
  let nxt := (a.heap it).h_next
  some ((a.modify it fun i => { i with next := none }).write before nxt)

end Assoc

end Memcached.MemoryHash

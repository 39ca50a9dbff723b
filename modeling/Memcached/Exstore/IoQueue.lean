import Mathlib.Algebra.Order.Ring.Int
import Memcached.Lib.Linked

/-!
# The io queues of exstore/extstore.c

An `obj_io` is its address, and `next` what stands in it. What an io does to its page is in `Engine`.
-/

namespace Memcached.Exstore

open Function (update)

abbrev IoPtr := UInt64

/-- No walk over different objects is longer. -/
def ADDRESSES : Nat := 2 ^ 64

/-- Where an io thread is when it does not hold its lock: before the lock, at the head of its loop, or at work on
`cur_io` with `next` noted. -/
inductive IoWork
  | idle
  | loop (cur_io : Option IoPtr)
  | op (cur_io : IoPtr) (next : Option IoPtr)
  deriving DecidableEq

structure StoreIoThread where
  queue : Option IoPtr
  depth : UInt32
  work : IoWork

structure IoEngine where
  next : IoPtr → Option IoPtr
  io_threads : Nat → StoreIoThread
  io_threadcount : Nat
  io_depth : UInt32

/-- What `_get_io_thread` reads of a thread's depth, without its lock. -/
structure SeenDepth where
  empty : UInt32
  compared : UInt32
  kept : UInt32

/-- The loop of `_get_io_thread`, from thread `x` on. -/
def find_smallest (seen : Nat → SeenDepth) : Nat → Nat → Option Nat → Int → Option Nat
  | 0, _, tid, _ => tid
  | n + 1, x, tid, low =>
      if (seen x).empty = 0 then some x
      else if ((seen x).compared.toNat : Int) < low then find_smallest seen n (x + 1) (some x) (seen x).kept.toNat
      else find_smallest seen n (x + 1) tid low

/-- Without a thread `tid` is -1. -/
def get_io_thread (seen : Nat → SeenDepth) (io_threadcount : Nat) : Option Nat :=
  find_smallest seen io_threadcount 0 none (2 ^ 63 - 1)

/-- The loop to the end of the queue, with its assertion. -/
def last_io (next : IoPtr → Option IoPtr) (queue : IoPtr) : Nat → IoPtr → Option IoPtr
  | 0, _ => none
  | n + 1, tmp =>
      match next tmp with
      | none => some tmp
      | some tmp => if tmp = queue then none else last_io next queue n tmp

/-- The links, with `io` at the end of the queue. -/
def put_last (next : IoPtr → Option IoPtr) (queue : Option IoPtr) (io : IoPtr) : Option (IoPtr → Option IoPtr) :=
  match queue with
  | none => some next
  | some queue => (last_io next queue ADDRESSES queue).map fun tmp => update next tmp (some io)

/-- The loop that adds the chain to `depth`. -/
def count_ios (next : IoPtr → Option IoPtr) : Nat → Option IoPtr → UInt32 → Option UInt32
  | _, none, depth => some depth
  | 0, some _, _ => none
  | n + 1, some tio, depth => count_ios next n (next tio) (depth + 1)

/-- The loop to the end of a batch. `i` is the `int` as the unsigned value it is compared and subtracted as. -/
def batch_end (next : IoPtr → Option IoPtr) (io_depth : UInt32) : Nat → UInt32 → IoPtr → UInt32 × IoPtr
  | 0, i, last => (i, last)
  | n + 1, i, last =>
      if i < io_depth then
        match next last with
        | some last => batch_end next io_depth n (i + 1) last
        | none => (i, last)
      else (i, last)

/-- The chain that starts at an io. -/
def ios (next : IoPtr → Option IoPtr) : Nat → Option IoPtr → List IoPtr
  | n + 1, some io => io :: ios next n (next io)
  | _, _ => []

/-- What is left of the batch. -/
def IoWork.batch (next : IoPtr → Option IoPtr) : IoWork → List IoPtr
  | .idle => []
  | .loop cur_io => ios next ADDRESSES cur_io
  | .op cur_io rest => cur_io :: ios next ADDRESSES rest

namespace IoEngine

variable (e : IoEngine)

/-- `extstore_submit`. -/
def extstore_submit (seen : Nat → SeenDepth) (io : IoPtr) : Option IoEngine := do
  let x ← get_io_thread seen e.io_threadcount
  let t := e.io_threads x
  let next ← put_last e.next t.queue io
  let depth ← count_ios next ADDRESSES (some io) t.depth
  let queue := if t.queue = none then some io else t.queue
  some { e with next := next, io_threads := update e.io_threads x { t with queue := queue, depth := depth } }

/-- The section of `extstore_io_thread` with the lock. With an empty queue it waits, and starts over. -/
def pull (x : Nat) : Option IoEngine :=
  let t := e.io_threads x
  match t.work, t.queue with
  | .idle, none => some e
  | .idle, some io_stack =>
      let (i, last) := batch_end e.next e.io_depth e.io_depth.toNat 1 io_stack
      let t := { t with depth := t.depth - i, queue := e.next last, work := .loop (some io_stack) }
      some { e with next := update e.next last none, io_threads := update e.io_threads x t }
  | _, _ => none

def set_work (x : Nat) (work : IoWork) : IoEngine :=
  { e with io_threads := update e.io_threads x { e.io_threads x with work := work } }

/-- The head of the loop: the next io is noted. -/
def note_next (x : Nat) : Option IoEngine :=
  match (e.io_threads x).work with
  | .loop none => some (e.set_work x .idle)
  | .loop (some cur_io) => some (e.set_work x (.op cur_io (e.next cur_io)))
  | _ => none

/-- The io is performed, and its callback called. -/
def callback (x : Nat) (io : IoPtr) : Option IoEngine :=
  match (e.io_threads x).work with
  | .op cur_io next => if cur_io = io then some (e.set_work x (.loop next)) else none
  | _ => none

/-- The ios in a queue or in a batch. -/
def pending : List IoPtr :=
  (List.range e.io_threadcount).flatMap fun x =>
    (e.io_threads x).work.batch e.next ++ ios e.next ADDRESSES (e.io_threads x).queue

end IoEngine

/-- `chain` is the ios that are submitted, by `next` from the first on. -/
inductive IoEvent
  | extstore_submit (seen : Nat → SeenDepth) (chain : List IoPtr)
  | pull (x : Nat)
  | note_next (x : Nat)
  | callback (x : Nat) (io : IoPtr)
  | set_next (io : IoPtr) (next : Option IoPtr)

/-- The contract of an `obj_io`: from its submission until its callback nobody else uses it. -/
def IoEngine.Legal (e : IoEngine) : IoEvent → Prop
  | .extstore_submit _ chain => Linked.Walk e.next chain.head? chain ∧ chain ≠ [] ∧ ∀ io ∈ chain, io ∉ e.pending
  | .pull x | .note_next x | .callback x _ => x < e.io_threadcount
  | .set_next io _ => io ∉ e.pending

instance (e : IoEngine) : (ev : IoEvent) → Decidable (e.Legal ev)
  | .extstore_submit _ chain =>
      have : Decidable (∀ io ∈ chain, io ∉ e.pending) := List.decidableBAll _ chain
      inferInstanceAs (Decidable (Linked.Walk e.next chain.head? chain ∧ chain ≠ [] ∧ ∀ io ∈ chain, io ∉ e.pending))
  | .pull x | .note_next x | .callback x _ => inferInstanceAs (Decidable (x < e.io_threadcount))
  | .set_next io _ => inferInstanceAs (Decidable (io ∉ e.pending))

def IoEngine.step (e : IoEngine) : IoEvent → Option IoEngine
  | .extstore_submit seen chain => chain.head?.bind (e.extstore_submit seen)
  | .pull x => e.pull x
  | .note_next x => e.note_next x
  | .callback x io => e.callback x io
  | .set_next io next => some { e with next := update e.next io next }

def IoStep (e : IoEngine) (ev : IoEvent) (e' : IoEngine) : Prop := e.Legal ev ∧ e.step ev = some e'

/-- The ios that an event puts into the queue of thread `x`, with `io_threadcount` threads. -/
def IoEvent.submits (io_threadcount x : Nat) : IoEvent → List IoPtr
  | .extstore_submit seen chain => if get_io_thread seen io_threadcount = some x then chain else []
  | _ => []

/-- The ios that thread `x` performs. -/
def IoEvent.performs (x : Nat) : IoEvent → List IoPtr
  | .callback y io => if y = x then [io] else []
  | _ => []

/-- No io was submitted. -/
def IoEngine.start (io_threadcount : Nat) (io_depth : UInt32) : IoEngine where
  next := fun _ => none
  io_threads := fun _ => ⟨none, 0, .idle⟩
  io_threadcount := io_threadcount
  io_depth := io_depth

end Memcached.Exstore

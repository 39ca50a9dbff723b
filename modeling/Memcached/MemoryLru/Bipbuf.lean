import Mathlib.Data.UInt
import Memcached.Lib.Memory

/-!
# The bip buffer of memory_lru/bipbuffer.c

Region A is written and read at its two ends; when the room behind it is less than the room before it, region B is
started at the front. A pointer into the buffer is counted from `data`. `int` and `unsigned int` have 32 bits, and
`unsigned long int` has 64.
-/

namespace Memcached.MemoryLru

/-- The value of an `int`. -/
def int32 (n : Int) : Int := n.bmod (2 ^ 32)

def uint32 (n : Int) : Nat := (n % 2 ^ 32).toNat

def ulong (n : Int) : Nat := (n % 2 ^ 64).toNat

/-- `bipbuf_t`. -/
structure Bipbuf where
  size : Nat
  a_start : Nat
  a_end : Nat
  b_end : Nat
  b_inuse : Bool
  data : Nat → UInt8

variable (me : Bipbuf)

def bipbuf_unused : Int :=
  if me.b_inuse then
    -- distance between region B and region A
    int32 (uint32 (me.a_start - me.b_end))
  else int32 (ulong (me.size - me.a_end))

def bipbuf_init (size : Nat) : Bipbuf :=
  { me with a_start := 0, a_end := 0, b_end := 0, size := size, b_inuse := false }

/-- The memory of a new buffer holds anything. -/
def bipbuf_new (size : Nat) (data : Nat → UInt8) : Bipbuf :=
  bipbuf_init { size := 0, a_start := 0, a_end := 0, b_end := 0, b_inuse := false, data := data } size

def bipbuf_is_empty : Bool := me.a_start = me.a_end

/-- `__check_for_switch_to_b`. -/
def check_for_switch_to_b : Bipbuf :=
  if ulong (me.size - me.a_end) < uint32 (me.a_start - me.b_end) then { me with b_inuse := true } else me

def bipbuf_request (size : Nat) : Option Nat :=
  if bipbuf_unused me < size then none
  else if me.b_inuse then some me.b_end
  else some me.a_end

/-- The cursor of the region that is written is moved on. -/
def advance (size : Nat) : Bipbuf :=
  if me.b_inuse then { me with b_end := uint32 (me.b_end + size) } else { me with a_end := uint32 (me.a_end + size) }

def bipbuf_push (size : Nat) : Nat × Bipbuf :=
  if bipbuf_unused me < size then (0, me) else (size, check_for_switch_to_b (advance me size))

/-- `memcpy` to a place in the buffer. -/
def copy_in (at_ : Nat) (data : List UInt8) : Bipbuf := { me with data := Memory.write me.data at_ data }

/-- Both branches copy to `b_end`. -/
def bipbuf_offer (data : List UInt8) : Nat × Bipbuf :=
  let size := data.length
  if bipbuf_unused me < size then (0, me)
  else
    let me :=
      if me.b_inuse then advance (copy_in me me.b_end data) size
      else advance (copy_in me me.b_end data) size
    (size, check_for_switch_to_b me)

/-- What is shown: where it starts, and how long it is. -/
def bipbuf_peek_all : Option (Nat × Nat) :=
  if bipbuf_is_empty me then none else some (me.a_start, uint32 (me.a_end - me.a_start))

/-- Region A, when it is used up, is replaced by region B, or starts again at the front. -/
def refill : Bipbuf :=
  if me.a_start = me.a_end then
    if me.b_inuse then { me with a_start := 0, a_end := me.b_end, b_end := 0, b_inuse := false }
    else { me with a_start := 0, a_end := 0 }
  else me

def bipbuf_poll (size : Nat) : Option Nat × Bipbuf :=
  if bipbuf_is_empty me then (none, me)
  else if me.size < uint32 (me.a_start + size) then (none, me)
  else
    let moved := refill { me with a_start := uint32 (me.a_start + size) }
    (some me.a_start, check_for_switch_to_b moved)

/-! ## The two ways to write -/

/-- `bipbuf_request`, a copy to the place it gives, and `bipbuf_push`. -/
def request_copy_push (data : List UInt8) : Nat × Bipbuf :=
  match bipbuf_request me data.length with
  | none => (0, me)
  | some at_ => bipbuf_push (copy_in me at_ data) data.length

/-- The bytes that wait to be read, region A before region B. -/
def Bipbuf.queue : List UInt8 :=
  Memory.read me.data me.a_start (me.a_end - me.a_start) ++ if me.b_inuse then Memory.read me.data 0 me.b_end else []

/-- What can be done to a buffer, by callers that keep no rule. -/
inductive BipOp
  | push (size : Nat)
  | offer (data : List UInt8)
  | poll (size : Nat)
  /-- Through a pointer into the buffer. -/
  | write (at_ : Nat) (bytes : List UInt8)
  deriving DecidableEq

def Bipbuf.apply (me : Bipbuf) : BipOp → Bipbuf
  | .push size => (bipbuf_push me size).2
  | .offer data => (bipbuf_offer me data).2
  | .poll size => (bipbuf_poll me size).2
  | .write at_ bytes => copy_in me at_ bytes

/-! ## Runs -/

/-- A buffer in use. `written` has the bytes of each push, `polled` those that polls gave; `peeked` is the size that the
last peek gave and `taken` what was polled since. -/
structure Usage where
  buf : Bipbuf
  written : List (List UInt8)
  polled : List UInt8
  peeked : Nat
  taken : Nat

inductive BipEvent
  /-- A request of as many bytes as `bytes` has; they are written, if the request is granted, and the first `size` of
  them are pushed, if any. -/
  | push (bytes : List UInt8) (size : Option Nat)
  | peek
  | poll (size : Nat)
  deriving DecidableEq

def Usage.step (u : Usage) : BipEvent → Usage
  | .push bytes size =>
      match bipbuf_request u.buf bytes.length with
      | none => u
      | some at_ =>
          let buf := copy_in u.buf at_ bytes
          match size with
          | none => { u with buf := buf }
          | some size =>
              let (pushed, buf) := bipbuf_push buf size
              { u with buf := buf, written := u.written ++ [bytes.take pushed] }
  | .peek => { u with peeked := (bipbuf_peek_all u.buf).elim 0 Prod.snd, taken := 0 }
  | .poll size =>
      match bipbuf_poll u.buf size with
      | (none, _) => u
      | (some at_, buf) =>
          { u with buf := buf, polled := u.polled ++ Memory.read u.buf.data at_ size, taken := u.taken + size }

def Usage.start (size : Nat) (data : Nat → UInt8) : Usage :=
  { buf := bipbuf_new size data, written := [], polled := [], peeked := 0, taken := 0 }

end Memcached.MemoryLru

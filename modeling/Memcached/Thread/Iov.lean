import Mathlib.Algebra.Order.Ring.Int
import Mathlib.Data.List.Basic
import Memcached.Thread.Conn

/-!
# The output vectors of thread/memcached.c

A response is a list of messages, each with a window into one array of iovecs; both arrays grow on demand. A pointer
into an array of iovecs is the array and an index. `add_iov` and `add_msghdr` call each other and have fuel; they are
`none` without it, and where an `int` overflows.
-/

namespace Memcached.Thread

/-- The constants that the headers of the system and of memcached define. -/
structure Limits where
  IOV_MAX : Nat
  UDP_HEADER_SIZE : Nat
  UDP_MAX_PAYLOAD_SIZE : Nat
  two_le_iov_max : 2 ≤ IOV_MAX
  header_lt_max : UDP_HEADER_SIZE < UDP_MAX_PAYLOAD_SIZE
  max_le_int : (UDP_MAX_PAYLOAD_SIZE : Int) ≤ INT_MAX

/-- `iov_base` is null for the place of a UDP frame header. -/
structure Iovec where
  iov_base : Option Nat
  iov_len : Nat
  deriving DecidableEq

structure IovPtr where
  array : Nat
  index : Nat
  deriving DecidableEq

structure Msghdr where
  msg_iov : IovPtr
  msg_iovlen : Nat
  msg_namelen : Nat
  deriving DecidableEq

/-- What `realloc` answers: the new array of iovecs, and whether the list of messages could grow. -/
structure Allocator where
  iov : Nat → Nat → Option Nat
  msglist : Nat → Bool

structure OutConn where
  udp : Bool
  request_addr_size : Nat
  /-- The arrays of iovecs in memory. -/
  iovecs : Nat → Nat → Iovec
  iov : Nat
  iovsize : Nat
  iovused : Nat
  msglist : Nat → Msghdr
  msgsize : Nat
  msgused : Nat
  msgcurr : Nat
  msgbytes : Nat

namespace OutConn

variable (L : Limits) (A : Allocator) (c : OutConn)

/-! ## The arrays -/

/-- Where the iovecs of message `i` begin: the loop that points the messages at a new array. -/
def iovnum (i : Nat) : Nat := ((List.range i).map fun j => (c.msglist j).msg_iovlen).sum

/-- The old array is freed, the new one begins with what it held, and every message points into the new one. -/
def move_iov (new_iov : Nat) : OutConn :=
  { c with
    iovecs := fun a k =>
      if a = new_iov then if k < c.iovsize then c.iovecs c.iov k else c.iovecs new_iov k
      else if a = c.iov then ⟨none, 0⟩ else c.iovecs a k
    iov := new_iov
    iovsize := c.iovsize * 2
    msglist := fun i => if i < c.msgused then { c.msglist i with msg_iov := ⟨new_iov, c.iovnum i⟩ } else c.msglist i }

/-- `ensure_iov_space`, with false for -1. -/
def ensure_iov_space : OutConn × Bool :=
  if c.iovused ≥ c.iovsize then
    match A.iov c.iov (c.iovsize * 2) with
    | none => (c, false)
    | some new_iov => (c.move_iov new_iov, true)
  else (c, true)

/-- The last message. -/
def last : Msghdr := c.msglist (c.msgused - 1)

/-- `m->msg_iov[m->msg_iovlen]` is set, for the last message. -/
def push (v : Iovec) : OutConn :=
  { c with
    iovecs := Function.update c.iovecs c.last.msg_iov.array
      (Function.update (c.iovecs c.last.msg_iov.array) (c.last.msg_iov.index + c.last.msg_iovlen) v)
    msglist := Function.update c.msglist (c.msgused - 1) { c.last with msg_iovlen := c.last.msg_iovlen + 1 }
    msgbytes := c.msgbytes + v.iov_len
    iovused := c.iovused + 1 }

/-- The list of messages has room for one more, or could not grow. -/
def grow_msglist : Option OutConn :=
  if c.msgsize = c.msgused then
    if A.msglist (c.msgsize * 2) then some { c with msgsize := c.msgsize * 2 } else none
  else some c

/-- The new message of `add_msghdr`. -/
def new_msghdr : OutConn :=
  let namelen := if c.udp ∧ c.request_addr_size > 0 then c.request_addr_size else 0
  { c with
    msglist := Function.update c.msglist c.msgused ⟨⟨c.iov, c.iovused⟩, 0, namelen⟩
    msgbytes := 0
    msgused := c.msgused + 1 }

/-! ## Messages -/

/-- "We may need to start a new msghdr if this one is full." -/
def is_full : Bool := c.last.msg_iovlen = L.IOV_MAX ∨ c.udp ∧ c.msgbytes ≥ L.UDP_MAX_PAYLOAD_SIZE

mutual

/-- `add_msghdr`, with false for -1. -/
def add_msghdr : Nat → OutConn → Option (OutConn × Bool)
  | 0, _ => none
  | fuel + 1, c =>
      match c.grow_msglist A with
      | none => some (c, false)
      | some c =>
          let c := c.new_msghdr
          if c.udp then add_iov fuel c none L.UDP_HEADER_SIZE else some (c, true)

/-- `add_iov`, with false for -1. The loop for UDP goes on with what did not fit. -/
def add_iov : Nat → OutConn → Option Nat → Nat → Option (OutConn × Bool)
  | 0, _, _, _ => none
  | fuel + 1, c, buf, len => do
      let (c, _) ← if c.is_full L then add_msghdr fuel c else some (c, true)
      let (c, ok) := c.ensure_iov_space A
      if !ok then some (c, false)
      else if !c.udp then some (c.push ⟨buf, len⟩, true)
      else if (len + c.msgbytes : Int) > INT_MAX then none
      else
        let leftover := len + c.msgbytes - L.UDP_MAX_PAYLOAD_SIZE
        let len := len - leftover
        let c := c.push ⟨buf, len⟩
        if leftover > 0 then add_iov fuel c (buf.map (· + len)) leftover else some (c, true)

end

end OutConn

end Memcached.Thread

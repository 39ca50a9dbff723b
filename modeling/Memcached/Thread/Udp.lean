import Mathlib.Data.List.Basic

/-!
# Datagrams of thread/memcached.c

The memory from `rbuf` on is a function of the offset; the receive buffer is its first `rsize` bytes. What lies after
them belongs to others. A datagram is its bytes, frame header first.
-/

namespace Memcached.Thread

inductive TryReadResult
  | READ_DATA_RECEIVED
  | READ_NO_DATA_RECEIVED
  | READ_ERROR
  | READ_MEMORY_ERROR
  deriving DecidableEq

structure UdpConn where
  rbuf : Nat → UInt8
  rsize : Nat
  rcurr : Nat
  rbytes : Nat
  request_id : Nat
  /-- What `out_string` was last given. -/
  response : Option String

namespace UdpConn

variable (c : UdpConn)

/-- What `recvfrom` takes of a datagram. -/
def received (d : List UInt8) : List UInt8 := d.take c.rsize

/-- `recvfrom` into `rbuf`. -/
def recvfrom (d : List UInt8) : UdpConn := { c with rbuf := fun i => (c.received d).getD i (c.rbuf i) }

/-- `memmove(rbuf, rbuf + from, n)` -/
def memmove (src n : Nat) : UdpConn := { c with rbuf := fun i => if i < n then c.rbuf (src + i) else c.rbuf i }

/-- The length `res` stays as it was: the header is stripped by `res -= 0`. -/
def try_read_udp (d : List UInt8) : UdpConn × TryReadResult :=
  let res := (c.received d).length
  let c := c.recvfrom d
  if res > 0 then
    let c := { c with request_id := (c.rbuf 0).toNat * 256 + (c.rbuf 1).toNat }
    if c.rbuf 4 ≠ 0 ∨ c.rbuf 5 ≠ 1 then
      ({ c with response := some "SERVER_ERROR multi-packet request not supported" }, .READ_NO_DATA_RECEIVED)
    else
      let res := res - 0
      ({ c.memmove 8 res with rbytes := res, rcurr := 0 }, .READ_DATA_RECEIVED)
  else (c, .READ_NO_DATA_RECEIVED)

/-- The bytes that are parsed next. -/
def unread : List UInt8 := (List.range c.rbytes).map fun i => c.rbuf (c.rcurr + i)

end UdpConn

end Memcached.Thread

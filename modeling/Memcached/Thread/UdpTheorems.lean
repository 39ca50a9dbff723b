import Memcached.Thread.Udp

/-!
# What is parsed after a datagram
-/

namespace Memcached.Thread.UdpConn

variable {c : UdpConn} {d : List UInt8}

/-- What comes after the frame header of a datagram. -/
def payload (c : UdpConn) (d : List UInt8) : List UInt8 := (c.received d).drop 8

/-- Of what was received, the bytes from the eighth on are parsed, and then eight more. -/
theorem unread_eq (h : (c.try_read_udp d).2 = .READ_DATA_RECEIVED) :
    (c.try_read_udp d).1.unread =
      (List.range (c.received d).length).map fun i => (c.received d).getD (8 + i) (c.rbuf (8 + i)) := by
  simp only [try_read_udp] at h ⊢
  split at h
  case isFalse => cases h
  next hres =>
  split at h
  · cases h
  · next haccept =>
    rw [if_pos hres, if_neg haccept]
    refine List.map_congr_left fun i hi => ?_
    have hlt : i < (c.received d).length := by simpa using hi
    simp [memmove, recvfrom, hlt]

/-- After a datagram is accepted, what is parsed is never its payload: there is always something to parse, and where
there is a payload, the eight bytes after it in memory are parsed with it. -/
theorem unread_ne_payload (c : UdpConn) (d : List UInt8) (h : (c.try_read_udp d).2 = .READ_DATA_RECEIVED) :
    (c.try_read_udp d).1.unread ≠ c.payload d := by
  have hpos : 0 < (c.received d).length := by
    simp only [try_read_udp] at h
    split at h
    · next hres => exact hres
    · cases h
  intro heq
  have hlen := congrArg List.length heq
  rw [unread_eq h, payload, List.length_map, List.length_range, List.length_drop] at hlen
  omega

/-- The buffer of a new connection. -/
def udp_conn : UdpConn where
  rbuf _ := 0
  rsize := 65536
  rcurr := 0
  rbytes := 0
  request_id := 0
  response := none

def frame : List UInt8 := [0, 7, 0, 0, 0, 1, 0, 0]

/-- Its payload is `get aaaaaaaaa` and `quit`, with their line ends. -/
def first_datagram : List UInt8 :=
  frame ++ [103, 101, 116, 32, 97, 97, 97, 97, 97, 97, 97, 97, 97, 13, 10, 113, 117, 105, 116, 13, 10]

/-- Its payload is `get b` and a line end. -/
def second_datagram : List UInt8 := frame ++ [103, 101, 116, 32, 98, 13, 10]

theorem unread_ne_payload_witness : (udp_conn.try_read_udp second_datagram).1.unread ≠ udp_conn.payload second_datagram :=
  unread_ne_payload udp_conn second_datagram (by decide)

/-- The `quit` of the first datagram is parsed again, after the second. -/
theorem stale_bytes_parsed :
    let c := (udp_conn.try_read_udp first_datagram).1
    (c.try_read_udp second_datagram).2 = .READ_DATA_RECEIVED ∧
      (c.try_read_udp second_datagram).1.unread = c.payload second_datagram ++ [113, 117, 105, 116, 13, 10, 0, 0] ∧
      (c.try_read_udp second_datagram).1.unread ≠ c.payload second_datagram := by
  decide +kernel

end Memcached.Thread.UdpConn

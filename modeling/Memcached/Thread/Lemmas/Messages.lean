import Memcached.Thread.Iov

/-!
# The messages that a connection holds

The two arrays hold a list of messages, each a list of iovecs (`Holds`); each function on the arrays is one on the list.
-/

namespace Memcached.Thread.OutConn

/-! ## Lists of messages -/

theorem getElem?_flatten {α : Type} {ms : List (List α)} {i j : Nat} {m : List α} {v : α} (hm : ms[i]? = some m)
    (hv : m[j]? = some v) : ms.flatten[(ms.take i).flatten.length + j]? = some v := by
  induction ms generalizing i with
  | nil => cases hm
  | cons x ms ih =>
      cases i with
      | zero =>
          obtain rfl : x = m := by simpa using hm
          obtain ⟨hlt, -⟩ := List.getElem?_eq_some_iff.mp hv
          simpa [List.getElem?_append_left hlt] using hv
      | succ i =>
          have hrest := ih (i := i) (by simpa using hm)
          rw [List.take_succ_cons, List.flatten_cons, List.flatten_cons, List.length_append, Nat.add_assoc,
            List.getElem?_append_right (Nat.le_add_right ..), Nat.add_sub_cancel_left]
          exact hrest

/-- The arrays of `c` hold the messages `ms`, with room to grow. -/
structure Holds (c : OutConn) (ms : List (List Iovec)) : Prop where
  msgused : c.msgused = ms.length
  msg_iov : ∀ i m, ms[i]? = some m → (c.msglist i).msg_iov = ⟨c.iov, (ms.take i).flatten.length⟩
  msg_iovlen : ∀ i m, ms[i]? = some m → (c.msglist i).msg_iovlen = m.length
  iovused : c.iovused = ms.flatten.length
  iovecs : ∀ k v, ms.flatten[k]? = some v → c.iovecs c.iov k = v
  iov_room : c.iovused ≤ c.iovsize
  iov_pos : 0 < c.iovsize
  msg_room : c.msgused ≤ c.msgsize
  msg_pos : 0 < c.msgsize

variable {L : Limits} {A : Allocator} {c c' : OutConn} {ms : List (List Iovec)} {m : List Iovec} {v : Iovec}

theorem Holds.iovnum (h : Holds c ms) {i : Nat} (hi : i ≤ ms.length) : c.iovnum i = (ms.take i).flatten.length := by
  induction i with
  | zero => rfl
  | succ i ih =>
      have hlt : i < ms.length := hi
      have hget : ms[i]? = some ms[i] := List.getElem?_eq_getElem hlt
      have hsum := ih (Nat.le_of_lt hlt)
      rw [OutConn.iovnum] at hsum ⊢
      rw [List.range_succ, List.map_append, List.sum_append, hsum, List.take_add_one, hget,
        List.flatten_append, List.length_append]
      simp only [List.map_cons, List.map_nil, List.sum_cons, List.sum_nil, h.msg_iovlen i _ hget]
      simp only [Option.toList_some, List.flatten_cons, List.flatten_nil, List.append_nil, Nat.add_zero]

/-! ## Room -/

/-- The old array of iovecs is copied, and every message points to its place in the new one. -/
theorem Holds.move_iov (h : Holds c ms) (new_iov : Nat) : Holds (c.move_iov new_iov) ms where
  msgused := h.msgused
  msg_iov i m hm := by
    obtain ⟨hlt, -⟩ := List.getElem?_eq_some_iff.mp hm
    have hused : i < c.msgused := by rw [h.msgused]; exact hlt
    simp [OutConn.move_iov, hused, h.iovnum (Nat.le_of_lt hlt)]
  msg_iovlen i m hm := by
    rw [← h.msg_iovlen i m hm]
    simp only [OutConn.move_iov]
    split <;> rfl
  iovused := h.iovused
  iovecs k v hv := by
    obtain ⟨hlt, -⟩ := List.getElem?_eq_some_iff.mp hv
    have hroom : k < c.iovsize := by have := h.iov_room; have := h.iovused; omega
    simp [OutConn.move_iov, hroom, h.iovecs k v hv]
  iov_room := by
    have := h.iov_room
    simp only [OutConn.move_iov]
    omega
  iov_pos := by
    have := h.iov_pos
    simp only [OutConn.move_iov]
    omega
  msg_room := h.msg_room
  msg_pos := h.msg_pos

theorem Holds.ensure_iov_space (h : Holds c ms) (hA : ∀ a n, (A.iov a n).isSome) :
    ∃ c', c.ensure_iov_space A = (c', true) ∧ Holds c' ms ∧ c'.iovused < c'.iovsize ∧ c'.udp = c.udp ∧
      c'.msgbytes = c.msgbytes := by
  simp only [OutConn.ensure_iov_space]
  split
  · obtain ⟨new_iov, hnew⟩ := Option.isSome_iff_exists.mp (hA c.iov (c.iovsize * 2))
    refine ⟨c.move_iov new_iov, by rw [hnew], h.move_iov new_iov, ?_, rfl, rfl⟩
    have hroom := h.iov_room
    have hpos := h.iov_pos
    simp only [OutConn.move_iov]
    omega
  · next hroom => exact ⟨c, rfl, h, Nat.lt_of_not_le hroom, rfl, rfl⟩

theorem Holds.grow_msglist (h : Holds c ms) (hA : ∀ n, A.msglist n) :
    ∃ c', c.grow_msglist A = some c' ∧ Holds c' ms ∧ c'.msgused < c'.msgsize ∧ c'.udp = c.udp := by
  have hroom := h.msg_room
  have hpos := h.msg_pos
  simp only [OutConn.grow_msglist, hA, ↓reduceIte]
  split
  · exact ⟨_, rfl, ⟨h.msgused, h.msg_iov, h.msg_iovlen, h.iovused, h.iovecs, h.iov_room, h.iov_pos,
      by dsimp only; omega, by dsimp only; omega⟩, by dsimp only; omega, rfl⟩
  · exact ⟨c, rfl, h, by omega, rfl⟩

/-! ## Messages and iovecs -/

theorem Holds.new_msghdr (h : Holds c ms) (hroom : c.msgused < c.msgsize) : Holds c.new_msghdr (ms ++ [[]]) where
  msgused := by simp [OutConn.new_msghdr, h.msgused]
  msg_iov i m hm := by
    simp only [OutConn.new_msghdr, h.msgused]
    by_cases hi : i = ms.length
    · subst hi
      simp [h.iovused]
    · have hlt : i < ms.length := by
        obtain ⟨hlt, -⟩ := List.getElem?_eq_some_iff.mp hm
        simp at hlt
        omega
      rw [Function.update_of_ne hi, h.msg_iov i m (by rwa [List.getElem?_append_left hlt] at hm),
        List.take_append_of_le_length (Nat.le_of_lt hlt)]
  msg_iovlen i m hm := by
    simp only [OutConn.new_msghdr, h.msgused]
    by_cases hi : i = ms.length
    · subst hi
      obtain rfl : [] = m := by simpa using hm
      simp
    · have hlt : i < ms.length := by
        obtain ⟨hlt, -⟩ := List.getElem?_eq_some_iff.mp hm
        simp at hlt
        omega
      rw [Function.update_of_ne hi, h.msg_iovlen i m (by rwa [List.getElem?_append_left hlt] at hm)]
  iovused := by simp [OutConn.new_msghdr, h.iovused]
  iovecs k v hv := h.iovecs k v (by simpa using hv)
  iov_room := h.iov_room
  iov_pos := h.iov_pos
  msg_room := hroom
  msg_pos := h.msg_pos

theorem Holds.last (h : Holds c (ms ++ [m])) :
    c.msgused - 1 = ms.length ∧ c.last.msg_iov = ⟨c.iov, ms.flatten.length⟩ ∧ c.last.msg_iovlen = m.length := by
  have hused : c.msgused - 1 = ms.length := by rw [h.msgused]; simp
  have hget : (ms ++ [m])[ms.length]? = some m := by simp
  refine ⟨hused, ?_, ?_⟩
  · rw [OutConn.last, hused, h.msg_iov _ m hget]
    simp
  · rw [OutConn.last, hused, h.msg_iovlen _ m hget]

theorem Holds.push (h : Holds c (ms ++ [m])) (hroom : c.iovused < c.iovsize) : Holds (c.push v) (ms ++ [m ++ [v]]) := by
  obtain ⟨hlast, hiov, hlen⟩ := h.last
  have hused := h.iovused
  have hmsg (i : Nat) (hi : i ≠ ms.length) {m' : List Iovec} (hm' : (ms ++ [m ++ [v]])[i]? = some m') :
      i < ms.length ∧ (ms ++ [m])[i]? = some m' := by
    obtain ⟨hlt, -⟩ := List.getElem?_eq_some_iff.mp hm'
    have hlt' : i < ms.length := by simp at hlt; omega
    rw [List.getElem?_append_left hlt'] at hm' ⊢
    exact ⟨hlt', hm'⟩
  refine ⟨?_, fun i m' hm' => ?_, fun i m' hm' => ?_, ?_, fun k w hw => ?_, hroom, h.iov_pos, h.msg_room, h.msg_pos⟩
  · have := h.msgused
    simpa [OutConn.push] using this
  · simp only [OutConn.push, hlast]
    by_cases hi : i = ms.length
    · subst hi
      rw [Function.update_self, hiov]
      simp
    · obtain ⟨hlt, hm⟩ := hmsg i hi hm'
      rw [Function.update_of_ne hi, h.msg_iov i m' hm, List.take_append_of_le_length (Nat.le_of_lt hlt),
        List.take_append_of_le_length (Nat.le_of_lt hlt)]
  · simp only [OutConn.push, hlast]
    by_cases hi : i = ms.length
    · subst hi
      obtain rfl : m ++ [v] = m' := by simpa using hm'
      simp [hlen]
    · obtain ⟨-, hm⟩ := hmsg i hi hm'
      rw [Function.update_of_ne hi, h.msg_iovlen i m' hm]
  · simp only [OutConn.push, hused]
    simp [Nat.add_assoc]
  · have hplace : c.last.msg_iov.index + c.last.msg_iovlen = (ms ++ [m]).flatten.length := by
      rw [hiov, hlen]
      simp
    have hflat : (ms ++ [m ++ [v]]).flatten = (ms ++ [m]).flatten ++ [v] := by simp
    rw [hflat] at hw
    have harray : c.last.msg_iov.array = c.iov := by rw [hiov]
    simp only [OutConn.push, hplace, harray, Function.update_self]
    by_cases hk : k = (ms ++ [m]).flatten.length
    · subst hk
      rw [Function.update_self]
      simpa using hw
    · have hlt : k < (ms ++ [m]).flatten.length := by
        obtain ⟨hlt, -⟩ := List.getElem?_eq_some_iff.mp hw
        rw [List.length_append, List.length_singleton] at hlt
        omega
      rw [Function.update_of_ne hk]
      exact h.iovecs k w (by rwa [List.getElem?_append_left hlt] at hw)

/-! ## What the messages carry -/

/-- The addresses of the bytes of an iovec. -/
def Iovec.span (v : Iovec) : List Nat :=
  match v.iov_base with
  | some base => List.range' base v.iov_len
  | none => []

@[simp] theorem span_some (base len : Nat) : Iovec.span ⟨some base, len⟩ = List.range' base len := rfl

def size (m : List Iovec) : Nat := (m.map Iovec.iov_len).sum

/-- A message without the place of its frame header. -/
def content (udp : Bool) (m : List Iovec) : List Iovec := if udp then m.tail else m

/-- The bytes of all messages, without frame headers. -/
def bytes (udp : Bool) (ms : List (List Iovec)) : List Nat := ms.flatMap fun m => (content udp m).flatMap Iovec.span

/-- The messages have the right shape: not too many iovecs, and for UDP the frame header first and not too many bytes. -/
structure Shaped (L : Limits) (udp : Bool) (m : List Iovec) : Prop where
  length : m.length ≤ L.IOV_MAX
  header : udp → m.head? = some ⟨none, L.UDP_HEADER_SIZE⟩
  size : udp → size m ≤ L.UDP_MAX_PAYLOAD_SIZE

/-- The arrays hold the messages `ms`, each of the right shape, and `msgbytes` counts the last. -/
structure Built (L : Limits) (c : OutConn) (ms : List (List Iovec)) : Prop where
  holds : Holds c ms
  ne_nil : ms ≠ []
  shaped : ∀ m ∈ ms, Shaped L c.udp m
  msgbytes : c.udp → ∀ m, ms.getLast? = some m → c.msgbytes = size m

@[simp] theorem push_udp : (c.push v).udp = c.udp := rfl

@[simp] theorem new_msghdr_udp : c.new_msghdr.udp = c.udp := rfl

/-- A new message begins with the place of its frame header, if it is a datagram. -/
def opening (L : Limits) (udp : Bool) : List Iovec := if udp then [⟨none, L.UDP_HEADER_SIZE⟩] else []

theorem opening_shaped (L : Limits) (udp : Bool) : Shaped L udp (opening L udp) ∧ (opening L udp).length < L.IOV_MAX ∧
    (udp → size (opening L udp) < L.UDP_MAX_PAYLOAD_SIZE) := by
  have hmax := L.two_le_iov_max
  have hheader := L.header_lt_max
  cases udp with
  | false => exact ⟨⟨Nat.zero_le _, by simp, by simp⟩, Nat.lt_of_lt_of_le (Nat.zero_lt_two) hmax, by simp⟩
  | true =>
      have hsize : size (opening L true) = L.UDP_HEADER_SIZE := by simp [size, opening]
      exact ⟨⟨Nat.le_of_lt hmax, fun _ => rfl, fun _ => by rw [hsize]; exact Nat.le_of_lt hheader⟩, hmax,
        fun _ => by rw [hsize]; exact hheader⟩

theorem bytes_opening (udp : Bool) : bytes udp (ms ++ [opening L udp]) = bytes udp ms := by
  cases udp <;> simp [bytes, opening, content]

theorem Built.bytes_push (h : Built L c (ms ++ [m])) :
    bytes c.udp (ms ++ [m ++ [v]]) = bytes c.udp (ms ++ [m]) ++ Iovec.span v := by
  cases hudp : c.udp with
  | false => simp [bytes, content]
  | true =>
      have hhead := (h.shaped m (by simp)).header hudp
      cases m with
      | nil => cases hhead
      | cons w m => simp [bytes, content]

theorem Built.push (h : Built L c (ms ++ [m])) (hroom : c.iovused < c.iovsize) (hlen : m.length < L.IOV_MAX)
    (hsize : c.udp → size m + v.iov_len ≤ L.UDP_MAX_PAYLOAD_SIZE) : Built L (c.push v) (ms ++ [m ++ [v]]) where
  holds := h.holds.push hroom
  ne_nil := by simp
  shaped m' hm' := by
    rcases List.mem_append.mp hm' with hm | hm
    · exact h.shaped m' (List.mem_append_left _ hm)
    · obtain rfl := List.mem_singleton.mp hm
      have hshaped := h.shaped m (by simp)
      refine ⟨by rw [List.length_append]; exact hlen, fun hudp => ?_, fun hudp => ?_⟩
      · have hhead := hshaped.header hudp
        cases m with
        | nil => cases hhead
        | cons w m => exact hhead
      · simpa [size] using hsize hudp
  msgbytes hudp m' hm' := by
    obtain rfl : m ++ [v] = m' := by simpa using hm'
    have hbytes := h.msgbytes hudp m (by simp)
    simp [OutConn.push, size, hbytes]

/-! ## The functions -/

theorem Built.ensure_iov_space (h : Built L c ms) (hA : ∀ a n, (A.iov a n).isSome) :
    ∃ c', c.ensure_iov_space A = (c', true) ∧ Built L c' ms ∧ c'.iovused < c'.iovsize ∧ c'.udp = c.udp := by
  obtain ⟨c', he, hholds, hroom, hudp, hbytes⟩ := h.holds.ensure_iov_space hA
  refine ⟨c', he, ⟨hholds, h.ne_nil, by rw [hudp]; exact h.shaped, ?_⟩, hroom, hudp⟩
  rw [hudp, hbytes]
  exact h.msgbytes

theorem Holds.add_msghdr (h : Holds c ms) (hshaped : ∀ m ∈ ms, Shaped L c.udp m) (hiov : ∀ a n, (A.iov a n).isSome)
    (hmsg : ∀ n, A.msglist n) (fuel : Nat) :
    ∃ c', add_msghdr L A (fuel + 2) c = some (c', true) ∧ Built L c' (ms ++ [opening L c.udp]) ∧ c'.udp = c.udp := by
  obtain ⟨c₁, hgrow, h₁, hroom, hudp⟩ := h.grow_msglist hmsg
  have hnew := h₁.new_msghdr hroom
  rw [OutConn.add_msghdr, hgrow]
  simp only [new_msghdr_udp, hudp]
  cases hc : c.udp with
  | false =>
      refine ⟨c₁.new_msghdr, rfl, ⟨hnew, by simp, fun m hm => ?_, fun ht => ?_⟩, by rw [new_msghdr_udp, hudp, hc]⟩
      · rw [new_msghdr_udp, hudp]
        rcases List.mem_append.mp hm with hm | hm
        · exact hshaped m hm
        · obtain rfl := List.mem_singleton.mp hm
          rw [hc]
          exact (opening_shaped L false).1
      · rw [new_msghdr_udp, hudp, hc] at ht
        cases ht
  | true =>
      obtain ⟨c₂, hensure, h₂, hroom₂, hudp₂, hbytes₂⟩ := hnew.ensure_iov_space hiov
      have hlen : c₁.new_msghdr.last.msg_iovlen = 0 := hnew.last.2.2
      have hzero : c₁.new_msghdr.msgbytes = 0 := rfl
      have hmax := L.two_le_iov_max
      have hheader := L.header_lt_max
      have hint := L.max_le_int
      have hudp' : c₂.udp = true := by rw [hudp₂, new_msghdr_udp, hudp, hc]
      have hiovs : (0 : Nat) ≠ L.IOV_MAX := by omega
      have hbytes : L.UDP_MAX_PAYLOAD_SIZE ≠ 0 := by omega
      have hfits : ¬ ((L.UDP_HEADER_SIZE + c₂.msgbytes : Nat) : Int) > INT_MAX := by rw [hbytes₂, hzero]; omega
      have hleft : L.UDP_HEADER_SIZE + c₂.msgbytes - L.UDP_MAX_PAYLOAD_SIZE = 0 := by rw [hbytes₂, hzero]; omega
      have hroom₁ : c₁.new_msghdr.is_full L = false := by simp [is_full, hlen, hzero, hiovs, hbytes]
      refine ⟨c₂.push ⟨none, L.UDP_HEADER_SIZE⟩, ?_, ⟨h₂.push hroom₂, by simp, fun m hm => ?_, fun _ m hm => ?_⟩,
        by rw [push_udp, hudp']⟩
      · rw [OutConn.add_iov]
        push_cast at hfits
        have hlt : ¬ L.UDP_MAX_PAYLOAD_SIZE < L.UDP_HEADER_SIZE + c₂.msgbytes := by omega
        simp [hroom₁, hensure, hudp', hfits, hlt, hleft]
      · rw [push_udp, hudp']
        rcases List.mem_append.mp hm with hm | hm
        · exact hc ▸ hshaped m hm
        · obtain rfl := List.mem_singleton.mp hm
          exact (opening_shaped L true).1
      · obtain rfl : opening L true = m := by simpa using hm
        simp [OutConn.push, opening, size, hbytes₂, hzero]

/-- What one call of `add_iov` does first: the last message has room, and so has the array of iovecs. -/
theorem Built.add_iov_eq (h : Built L c ms) (hiov : ∀ a n, (A.iov a n).isSome) (hmsg : ∀ n, A.msglist n)
    (buf : Option Nat) (len fuel : Nat) :
    ∃ c₁ ms₁ m, Built L c₁ (ms₁ ++ [m]) ∧ c₁.udp = c.udp ∧ bytes c.udp (ms₁ ++ [m]) = bytes c.udp ms ∧
      m.length < L.IOV_MAX ∧ (c.udp → size m < L.UDP_MAX_PAYLOAD_SIZE) ∧ c₁.iovused < c₁.iovsize ∧
      add_iov L A (fuel + 3) c buf len =
        if !c₁.udp then some (c₁.push ⟨buf, len⟩, true)
        else if (len + c₁.msgbytes : Int) > INT_MAX then none
        else
          let leftover := len + c₁.msgbytes - L.UDP_MAX_PAYLOAD_SIZE
          let len := len - leftover
          if leftover > 0 then add_iov L A (fuel + 2) (c₁.push ⟨buf, len⟩) (buf.map (· + len)) leftover
          else some (c₁.push ⟨buf, len⟩, true) := by
  obtain ⟨ms₀, m₀, rfl⟩ : ∃ ms₀ m₀, ms = ms₀ ++ [m₀] := ⟨_, _, (List.dropLast_append_getLast h.ne_nil).symm⟩
  obtain ⟨-, -, hlast⟩ := h.holds.last
  rw [add_iov]
  cases hf : c.is_full L with
  | true =>
      obtain ⟨c₀, hadd, h₀, hudp₀⟩ := h.holds.add_msghdr h.shaped hiov hmsg fuel
      obtain ⟨c₁, hensure, h₁, hroom, hudp₁⟩ := h₀.ensure_iov_space hiov
      obtain ⟨-, hlen, hsize⟩ := opening_shaped L c.udp
      refine ⟨c₁, ms₀ ++ [m₀], opening L c.udp, h₁, by rw [hudp₁, hudp₀], bytes_opening _, hlen, hsize, hroom, ?_⟩
      simp [hadd, hensure]
  | false =>
      obtain ⟨c₁, hensure, h₁, hroom, hudp₁⟩ := h.ensure_iov_space hiov
      have hshaped := h.shaped m₀ (by simp)
      simp only [is_full, hlast, decide_eq_false_iff_not, not_or, not_and, not_le] at hf
      refine ⟨c₁, ms₀, m₀, h₁, hudp₁, rfl, Nat.lt_of_le_of_ne hshaped.length hf.1, fun hudp => ?_, hroom, ?_⟩
      · rw [← h.msgbytes hudp m₀ (by simp)]
        exact hf.2 hudp
      · simp [hensure]

theorem Built.add_iov (hiov : ∀ a n, (A.iov a n).isSome) (hmsg : ∀ n, A.msglist n) {len : Nat} :
    ∀ {c : OutConn} {ms : List (List Iovec)} {base fuel : Nat}, Built L c ms → len < fuel →
      (∃ c' ms', add_iov L A (fuel + 2) c (some base) len = some (c', true) ∧ Built L c' ms' ∧ c'.udp = c.udp ∧
        bytes c.udp ms' = bytes c.udp ms ++ List.range' base len) ∨
      add_iov L A (fuel + 2) c (some base) len = none ∧ c.udp = true ∧
        (len + L.UDP_MAX_PAYLOAD_SIZE : Int) > INT_MAX := by
  induction len using Nat.strongRecOn with
  | ind len ih =>
      intro c ms base fuel h hfuel
      obtain ⟨fuel, rfl⟩ := Nat.exists_eq_add_of_lt hfuel
      obtain ⟨c₁, ms₁, m, h₁, hudp₁, hbytes, hlen, hsize, hroom, he⟩ :=
        h.add_iov_eq hiov hmsg (some base) len (len + fuel)
      rw [show len + fuel + 1 + 2 = len + fuel + 3 from rfl, he]
      cases hc : c.udp with
      | false =>
          rw [hudp₁, hc]
          refine .inl ⟨_, _, rfl, h₁.push hroom hlen fun hudp => ?_, by rw [push_udp, hudp₁, hc], ?_⟩
          · rw [hudp₁, hc] at hudp
            cases hudp
          · have hpush := h₁.bytes_push (v := ⟨some base, len⟩)
            rw [hudp₁, hc] at hpush
            rw [hpush, ← hc, hbytes, span_some]
      | true =>
          have hcount := h₁.msgbytes (by rw [hudp₁, hc]) m (by simp)
          have hroom' := hsize hc
          have hbytes' {v : Iovec} : bytes true (ms₁ ++ [m ++ [v]]) = bytes true ms ++ Iovec.span v := by
            have hpush := h₁.bytes_push (v := v)
            rw [hudp₁, hc] at hpush
            rw [hpush, ← hc, hbytes]
          simp only [hudp₁, hc, Bool.not_true, Bool.false_eq_true, ↓reduceIte]
          split
          · next hover => exact .inr ⟨rfl, trivial, by omega⟩
          split
          · next hleft =>
            have hpush := h₁.push (v := ⟨some base, len - (len + c₁.msgbytes - L.UDP_MAX_PAYLOAD_SIZE)⟩) hroom hlen
              fun _ => by dsimp only; omega
            have hrest := @ih (len + c₁.msgbytes - L.UDP_MAX_PAYLOAD_SIZE) (by omega) _ _
              (base + (len - (len + c₁.msgbytes - L.UDP_MAX_PAYLOAD_SIZE))) (len + fuel) hpush (by omega)
            obtain ⟨c', ms', hadd, h', hudp', hb⟩ | ⟨hadd, -, hover⟩ := hrest
            · rw [push_udp, hudp₁, hc] at hudp' hb
              refine .inl ⟨c', ms', hadd, h', hudp', ?_⟩
              have hlen' : len - (len + c₁.msgbytes - L.UDP_MAX_PAYLOAD_SIZE) +
                  (len + c₁.msgbytes - L.UDP_MAX_PAYLOAD_SIZE) = len := by omega
              rw [hb, hbytes', List.append_assoc, span_some, List.range'_append_1, hlen']
            · exact .inr ⟨hadd, trivial, by omega⟩
          · next hleft =>
            have hzero : len + c₁.msgbytes - L.UDP_MAX_PAYLOAD_SIZE = 0 := by omega
            rw [hzero, Nat.sub_zero]
            refine .inl ⟨_, _, rfl, h₁.push hroom hlen fun _ => by dsimp only; omega, by rw [push_udp, hudp₁, hc], ?_⟩
            rw [hbytes', span_some]

end Memcached.Thread.OutConn

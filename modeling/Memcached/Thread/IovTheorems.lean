import Memcached.Thread.Lemmas.Messages

/-!
# The output vectors carry the buffers
-/

namespace Memcached.Thread

structure Buffer where
  base : Nat
  len : Nat

/-- The addresses of the bytes of a buffer. -/
def Buffer.bytes (b : Buffer) : List Nat := List.range' b.base b.len

namespace OutConn

/-- A response: what was there is dropped, a first message is begun, and the buffers are added. -/
def respond (L : Limits) (A : Allocator) (c : OutConn) (bufs : List Buffer) : Option OutConn := do
  let (c, _) ← add_msghdr L A 2 { c with msgcurr := 0, msgused := 0, iovused := 0 }
  bufs.foldlM (fun c b => (add_iov L A (b.len + 3) c (some b.base) b.len).map (·.1)) c

/-- The iovecs of message `i`, as `sendmsg` finds them. -/
def message (c : OutConn) (i : Nat) : List Iovec :=
  (List.range (c.msglist i).msg_iovlen).map fun k =>
    c.iovecs (c.msglist i).msg_iov.array ((c.msglist i).msg_iov.index + k)

/-- The messages of `c` carry `data`, and the arrays and counters agree. -/
structure Carries (L : Limits) (c : OutConn) (data : List Nat) : Prop where
  data : bytes c.udp ((List.range c.msgused).map c.message) = data
  msg_iov : ∀ i < c.msgused, (c.msglist i).msg_iov = ⟨c.iov, c.iovnum i⟩
  iovused : c.iovused = c.iovnum c.msgused
  iov_max : ∀ i < c.msgused, (c.msglist i).msg_iovlen ≤ L.IOV_MAX
  udp_header : c.udp → ∀ i < c.msgused, (c.message i).head? = some ⟨none, L.UDP_HEADER_SIZE⟩
  udp_size : c.udp → ∀ i < c.msgused, size (c.message i) ≤ L.UDP_MAX_PAYLOAD_SIZE
  in_bounds : c.iovused ≤ c.iovsize ∧ c.msgused ≤ c.msgsize

variable {L : Limits} {A : Allocator} {c : OutConn} {ms : List (List Iovec)}

theorem Holds.message (h : Holds c ms) {i : Nat} {m : List Iovec} (hm : ms[i]? = some m) : c.message i = m := by
  rw [OutConn.message, h.msg_iovlen i m hm, h.msg_iov i m hm]
  refine List.ext_getElem? fun j => ?_
  rw [List.getElem?_map]
  by_cases hj : j < m.length
  · rw [List.getElem?_range hj, List.getElem?_eq_getElem hj, Option.map_some]
    exact congrArg some (h.iovecs _ _ (getElem?_flatten hm (List.getElem?_eq_getElem hj)))
  · rw [List.getElem?_eq_none (by simpa using hj), List.getElem?_eq_none (by simpa using hj), Option.map_none]

theorem Holds.messages (h : Holds c ms) : (List.range c.msgused).map c.message = ms := by
  refine List.ext_getElem? fun i => ?_
  rw [List.getElem?_map, h.msgused]
  by_cases hi : i < ms.length
  · have hget := List.getElem?_eq_getElem hi
    rw [List.getElem?_range hi, Option.map_some, h.message hget, hget]
  · rw [List.getElem?_eq_none (by simpa using hi), List.getElem?_eq_none (by simpa using hi), Option.map_none]

theorem Built.carries (h : Built L c ms) : Carries L c (bytes c.udp ms) := by
  have hholds := h.holds
  have hget {i : Nat} (hi : i < c.msgused) : ∃ m, ms[i]? = some m ∧ m ∈ ms := by
    rw [hholds.msgused] at hi
    exact ⟨ms[i], List.getElem?_eq_getElem hi, List.getElem_mem hi⟩
  refine ⟨by rw [hholds.messages], fun i hi => ?_, ?_, fun i hi => ?_, fun hudp i hi => ?_, fun hudp i hi => ?_,
    hholds.iov_room, hholds.msg_room⟩
  · obtain ⟨m, hm, -⟩ := hget hi
    rw [hholds.msg_iov i m hm, hholds.iovnum (by rw [← hholds.msgused]; exact Nat.le_of_lt hi)]
  · rw [hholds.iovused, hholds.iovnum (Nat.le_of_eq hholds.msgused), hholds.msgused, List.take_length]
  · obtain ⟨m, hm, hmem⟩ := hget hi
    rw [hholds.msg_iovlen i m hm]
    exact (h.shaped m hmem).length
  · obtain ⟨m, hm, hmem⟩ := hget hi
    rw [hholds.message hm]
    exact (h.shaped m hmem).header hudp
  · obtain ⟨m, hm, hmem⟩ := hget hi
    rw [hholds.message hm]
    exact (h.shaped m hmem).size hudp

/-- From a state whose arrays hold messages on, the buffers follow what was there. -/
theorem Built.add_buffers (hiov : ∀ a n, (A.iov a n).isSome) (hmsg : ∀ n, A.msglist n) {bufs : List Buffer} :
    ∀ {c : OutConn} {ms : List (List Iovec)}, Built L c ms →
      (∀ c', bufs.foldlM (fun c b => (OutConn.add_iov L A (b.len + 3) c (some b.base) b.len).map (·.1)) c = some c' →
        Carries L c' (bytes c.udp ms ++ bufs.flatMap Buffer.bytes)) ∧
      ((c.udp → ∀ b ∈ bufs, (b.len + L.UDP_MAX_PAYLOAD_SIZE : Int) ≤ INT_MAX) →
        (bufs.foldlM (fun c b => (OutConn.add_iov L A (b.len + 3) c (some b.base) b.len).map (·.1)) c).isSome) := by
  induction bufs with
  | nil =>
      intro c ms h
      refine ⟨fun c' he => ?_, fun _ => rfl⟩
      obtain rfl := Option.some.inj he
      simpa using h.carries
  | cons b bufs ih =>
      intro c ms h
      rw [List.foldlM_cons]
      obtain ⟨c₁, ms₁, hadd, h₁, hudp, hbytes⟩ | ⟨hadd, hudp, hover⟩ :=
        @Built.add_iov L A hiov hmsg b.len c ms b.base _ h (Nat.lt_succ_self b.len)
      · rw [hadd]
        obtain ⟨hrest, hsome⟩ := ih h₁
        rw [hudp, hbytes, List.append_assoc] at hrest
        exact ⟨hrest, fun hfit => hsome fun hu b' hb' => hfit (hudp ▸ hu) b' (List.mem_cons_of_mem b hb')⟩
      · rw [hadd]
        refine ⟨fun c' he => (nomatch he), fun hfit => ?_⟩
        have hb := hfit hudp b List.mem_cons_self
        omega

/-- Whatever is added to a response, and however the arrays move, the messages carry it all, in order; and every list
of buffers can be added, but for datagrams of 2 GB and more. -/
theorem respond_carries (L : Limits) (A : Allocator) (c : OutConn) (bufs : List Buffer) (hiovsize : 0 < c.iovsize)
    (hmsgsize : 0 < c.msgsize) (hiov : ∀ a n, (A.iov a n).isSome) (hmsg : ∀ n, A.msglist n) :
    (∀ c', respond L A c bufs = some c' → Carries L c' (bufs.flatMap Buffer.bytes)) ∧
      ((c.udp → ∀ b ∈ bufs, (b.len + L.UDP_MAX_PAYLOAD_SIZE : Int) ≤ INT_MAX) → (respond L A c bufs).isSome) := by
  have hempty : Holds { c with msgcurr := 0, msgused := 0, iovused := 0 } [] :=
    ⟨rfl, fun i m hm => by simp at hm, fun i m hm => by simp at hm, rfl, fun k v hv => by simp at hv, Nat.zero_le _,
      hiovsize, Nat.zero_le _, hmsgsize⟩
  obtain ⟨c₁, hadd, h₁, hudp⟩ := hempty.add_msghdr (L := L) (by simp) hiov hmsg 0
  have hbuffers := @Built.add_buffers L A hiov hmsg bufs _ _ h₁
  have hnil : bytes c.udp ([] ++ [opening L c.udp]) = [] := by rw [bytes_opening]; rfl
  rw [hudp] at hbuffers
  simp only [respond, hadd]
  rw [hnil, List.nil_append] at hbuffers
  exact hbuffers

/-- The limits of Linux. -/
def linux : Limits where
  IOV_MAX := 1024
  UDP_HEADER_SIZE := 8
  UDP_MAX_PAYLOAD_SIZE := 1400
  two_le_iov_max := by decide
  header_lt_max := by decide
  max_le_int := by decide

/-- A UDP connection with room for one iovec and one message. -/
def small_conn : OutConn where
  udp := true
  request_addr_size := 16
  iovecs _ _ := ⟨none, 0⟩
  iov := 0
  iovsize := 1
  iovused := 0
  msglist _ := ⟨⟨0, 0⟩, 0, 0⟩
  msgsize := 1
  msgused := 0
  msgcurr := 0
  msgbytes := 0

/-- Every `realloc` moves the array of iovecs. -/
def moving : Allocator where
  iov a _ := some (a + 1)
  msglist _ := true

theorem respond_carries_witness :
    (∀ c', respond linux moving small_conn [⟨5000, 1000⟩, ⟨9000, 2000⟩] = some c' →
        Carries linux c' ([⟨5000, 1000⟩, ⟨9000, 2000⟩].flatMap Buffer.bytes)) ∧
      ((small_conn.udp → ∀ b ∈ [⟨5000, 1000⟩, ⟨9000, 2000⟩], (Buffer.len b + 1400 : Int) ≤ INT_MAX) →
        (respond linux moving small_conn [⟨5000, 1000⟩, ⟨9000, 2000⟩]).isSome) :=
  respond_carries linux moving small_conn [⟨5000, 1000⟩, ⟨9000, 2000⟩] (by decide) (by decide) (fun _ _ => rfl)
    fun _ => rfl

end OutConn

end Memcached.Thread

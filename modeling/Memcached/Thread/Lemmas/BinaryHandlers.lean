import Memcached.Thread.DriveMachine

/-!
# What the binary handlers leave behind

A handler ends a request in one of three ways: it replies, it replies and has the rest of the request swallowed, or
it has the value read into an item. Each way says how many bytes of the request are still to come.
-/

namespace Memcached.Thread.Conn

/-! ## Ways to end -/

/-- Nothing of the request is left, and the reply may be written already. -/
structure Replied (c c' : Conn) : Prop where
  protocol : c'.protocol = c.protocol
  pos : c'.pos = c.pos
  value_allocs : c'.value_allocs = c.value_allocs
  sbytes : c'.sbytes = c.sbytes
  ends : c'.state = .conn_new_cmd ∨ (c'.state = .conn_write ∨ c'.state = .conn_mwrite) ∧ c'.write_and_go = .conn_new_cmd

/-- A reply is written, and then `n` bytes are swallowed. -/
structure Swallows (c : Conn) (n : Int) (c' : Conn) : Prop where
  protocol : c'.protocol = c.protocol
  pos : c'.pos = c.pos
  value_allocs : c'.value_allocs = c.value_allocs
  state : c'.state = .conn_mwrite
  goes : c'.write_and_go = .conn_swallow ∧ c'.sbytes.toNat = n.toNat ∨
    c'.write_and_go = .conn_new_cmd ∧ c'.sbytes ≤ 0 ∧ n ≤ 0

theorem write_bin_error_replied (c : Conn) : Replied c (c.write_bin_error 0) := by
  constructor <;> simp [write_bin_error]

theorem write_bin_response_replied (c : Conn) : Replied c c.write_bin_response := by
  unfold write_bin_response
  split <;> constructor <;> simp

/-- `init_sasl_conn` changes nothing that the bytes of a request depend on. -/
theorem init_sasl_conn_eq (settings : Settings) (c : Conn) (a : Answers) :
    ∃ b k, c.init_sasl_conn settings a = { c with authenticated := b, sasl_conn := k } := by
  unfold init_sasl_conn
  split
  · exact ⟨c.authenticated, c.sasl_conn, rfl⟩
  · exact ⟨_, _, rfl⟩

theorem out_of_memory_replied {c : Conn} (hp : c.protocol = .binary_prot) : Replied c c.out_of_memory := by
  simp only [out_of_memory, hp]
  exact c.write_bin_error_replied

theorem write_bin_error_swallows {c : Conn} (hs : c.sbytes ≤ 0) (n : Int) : Swallows c n (c.write_bin_error n) := by
  unfold write_bin_error
  split
  · constructor <;> simp
  · next hn => constructor <;> simp [hs]; omega

theorem Swallows.conn_swallow {c c' : Conn} {n : Int} (h : Swallows c n c') :
    Swallows c n { c' with write_and_go := .conn_swallow } where
  protocol := h.protocol
  pos := h.pos
  value_allocs := h.value_allocs
  state := h.state
  goes := .inl ⟨rfl, by rcases h.goes with ⟨-, h⟩ | ⟨-, h, h'⟩ <;> simp <;> omega⟩

theorem out_of_memory_swallows {c : Conn} (hp : c.protocol = .binary_prot) (n : Int) :
    Swallows c n { c.out_of_memory with sbytes := n, write_and_go := .conn_swallow } := by
  constructor <;> simp [out_of_memory, hp, write_bin_error]

/-! ## Replies -/

section
variable {c : Conn} (a : Answers)

theorem complete_update_bin_replied : Replied c (c.complete_update_bin a) := by
  unfold complete_update_bin
  split
  · have h := c.write_bin_response_replied
    exact ⟨h.protocol, h.pos, h.value_allocs, h.sbytes, h.ends⟩
  · have h := c.write_bin_error_replied
    exact ⟨h.protocol, h.pos, h.value_allocs, h.sbytes, h.ends⟩

theorem process_bin_get_or_touch_replied : Replied c (c.process_bin_get_or_touch a) := by
  unfold process_bin_get_or_touch
  repeat' split
  · constructor <;> simp
  · constructor <;> simp
  · constructor <;> simp
  · exact c.write_bin_error_replied

theorem process_bin_stat_replied : Replied c (c.process_bin_stat a) := by
  unfold process_bin_stat
  split
  · constructor <;> simp [write_and_free]
  · exact c.write_bin_error_replied

theorem process_bin_delete_replied : Replied c (c.process_bin_delete a) := by
  unfold process_bin_delete
  split
  · exact c.write_bin_response_replied
  · exact c.write_bin_error_replied

theorem complete_incr_bin_replied (hp : c.protocol = .binary_prot) : Replied c (c.complete_incr_bin a) := by
  unfold complete_incr_bin
  repeat' split
  all_goals first
    | exact c.write_bin_response_replied
    | exact c.write_bin_error_replied
    | exact out_of_memory_replied hp

theorem process_bin_flush_replied (settings : Settings) : Replied c (c.process_bin_flush settings) := by
  unfold process_bin_flush
  split
  · exact c.write_bin_error_replied
  · exact c.write_bin_response_replied

end

end Memcached.Thread.Conn

import Memcached.Lib.Run
import Memcached.Thread.Binary
import Memcached.Thread.Ascii

/-!
# The state machine of thread/memcached.c

`drive_machine` takes one step in the state the connection is in. The stream may be read in any pieces; what the
socket and the other modules answer is in the event.
-/

namespace Memcached.Thread

/-- What the steps of one connection share. -/
structure World where
  stream : Nat → UInt8
  settings : Settings
  numbers : Numbers

/-- The result of a read, its size or why there is none. -/
inductive ReadResult
  | data (res : Nat)
  | eof
  | eagain
  | no_memory
  | error
  deriving DecidableEq

inductive Event
  | update_event (ok : Bool)
  | try_read_network (res : ReadResult)
  | try_read_command (a : Answers)
  | reset_cmd_handler
  | complete_nread (a : Answers)
  | invalid_rlbytes
  /-- Bytes in the input buffer are copied or dropped. -/
  | leftovers
  | read (res : ReadResult)
  /-- What `read_into_chunked_item` took, and its result. -/
  | read_into_chunked_item (consumed : Nat) (res : ReadResult)
  | swallowed
  /-- `transmit` completed, or failed for good. -/
  | transmit (complete : Bool)
  deriving DecidableEq

namespace Conn

/-! ## Requests -/

/-- The line in the input buffer, without its end, and the place after the newline. -/
def command_line (stream : Nat → UInt8) (c : Conn) : Option (List UInt8 × Nat) :=
  ((List.range c.rbytes).find? fun i => stream (c.pos + i) = '\n'.toUInt8).map fun i =>
    let el := if i > 1 ∧ stream (c.pos + i - 1) = '\r'.toUInt8 then i - 1 else i
    ((List.range el).map fun j => stream (c.pos + j), c.pos + i + 1)

/-- `try_read_command` of a whole request; the bytes of the header or line are used up. -/
def try_read_command (w : World) (c : Conn) (a : Answers) : Option Conn :=
  match c.protocol with
  | .binary_prot =>
      if c.rbytes < 24 then some { c with state := .conn_waiting }
      else
        let h := Header.at_pos w.stream c.pos
        let c := { c with binary_header := h }
        if h.magic ≠ PROTOCOL_BINARY_REQ then some { c with state := .conn_closing }
        else
          let c := { c with cmd := .of_opcode h.opcode }.dispatch_bin_command w.settings a
          some { c with rbytes := c.rbytes - 24, pos := c.pos + 24 }
  | .ascii_prot =>
      match c.command_line w.stream with
      | none => some { c with state := if c.rbytes > 1024 ∧ !a.multiget then .conn_closing else .conn_waiting }
      | some (command, cont) =>
          (c.process_command w.numbers command a).map fun c =>
            { c with rbytes := c.rbytes - (cont - c.pos), pos := cont }

def reset_cmd_handler (c : Conn) : Conn :=
  { c with
    cmd := .none
    substate := .bin_no_state
    item := none
    value_allocs := []
    state := if c.rbytes > 0 then .conn_parse_cmd else .conn_waiting }

def complete_nread (w : World) (c : Conn) (a : Answers) : Option Conn :=
  match c.protocol with
  | .ascii_prot => c.complete_nread_ascii a
  | .binary_prot => c.complete_nread_binary w.settings a

/-! ## Reading -/

/-- `n` bytes of the stream go into the item, or into the extras and the key. -/
def fill (c : Conn) (n : Nat) : Conn :=
  { c with pos := c.pos + n, rbytes := c.rbytes - n, rlbytes := c.rlbytes - n }

/-- `n` bytes of the stream are thrown away. -/
def swallow (c : Conn) (n : Nat) : Conn := { c with pos := c.pos + n, rbytes := c.rbytes - n, sbytes := c.sbytes - n }

def is_chunked (c : Conn) : Bool := c.item.any (·.chunked)

/-- The end of `conn_nread`, when the last read gave no data. -/
def nread_failed (c : Conn) : ReadResult → Conn
  | .data _ | .eagain => c
  | .no_memory => { c.out_of_memory with sbytes := c.rlbytes, write_and_go := .conn_swallow }
  | .eof | .error => { c with state := .conn_closing }

/-- `conn_read`, after `try_read_network`. -/
def network_read (c : Conn) : ReadResult → Conn
  | .data res => { c with rbytes := c.rbytes + res, state := .conn_parse_cmd }
  | .eagain => { c with state := .conn_waiting }
  | .no_memory => { { c with rbytes := 0 }.out_of_memory with write_and_go := .conn_closing }
  | .eof | .error => { c with state := .conn_closing }

/-! ## Steps -/

/-- One step of `drive_machine`: `none` if `e` cannot happen here. -/
def drive_machine (w : World) (c : Conn) (e : Event) : Option Conn :=
  match c.state, e with
  | .conn_waiting, .update_event ok => some { c with state := if ok then .conn_read else .conn_closing }
  | .conn_read, .try_read_network (.data res) => if 0 < res then some (c.network_read (.data res)) else none
  | .conn_read, .try_read_network res => some (c.network_read res)
  | .conn_parse_cmd, .try_read_command a => c.try_read_command w a
  | .conn_new_cmd, .reset_cmd_handler => some c.reset_cmd_handler
  | .conn_nread, .complete_nread a => if c.rlbytes = 0 then c.complete_nread w a else none
  | .conn_nread, .invalid_rlbytes => if c.rlbytes < 0 then some { c with state := .conn_closing } else none
  | .conn_nread, .leftovers =>
      if 0 < c.rlbytes ∧ !c.is_chunked ∧ 0 < c.rbytes then some (c.fill (min c.rbytes c.rlbytes.toNat)) else none
  | .conn_nread, .read (.data res) =>
      if 0 < c.rlbytes ∧ !c.is_chunked ∧ c.rbytes = 0 ∧ 0 < res ∧ (res : Int) ≤ c.rlbytes then some (c.fill res)
      else none
  | .conn_nread, .read .no_memory => none
  | .conn_nread, .read res =>
      if 0 < c.rlbytes ∧ !c.is_chunked ∧ c.rbytes = 0 then some (c.nread_failed res) else none
  | .conn_nread, .read_into_chunked_item consumed res =>
      -- an allocation only fails while bytes are missing
      if 0 < c.rlbytes ∧ c.is_chunked ∧ (consumed : Int) ≤ c.rlbytes ∧ (res = .no_memory → (consumed : Int) < c.rlbytes)
      then some ((c.fill consumed).nread_failed res)
      else none
  | .conn_swallow, .swallowed => if c.sbytes ≤ 0 then some { c with state := .conn_new_cmd } else none
  | .conn_swallow, .leftovers =>
      if 0 < c.sbytes ∧ 0 < c.rbytes then some (c.swallow (min c.rbytes c.sbytes.toNat)) else none
  | .conn_swallow, .read (.data res) =>
      if 0 < c.sbytes ∧ c.rbytes = 0 ∧ 0 < res ∧ (res : Int) ≤ c.sbytes then some (c.swallow res) else none
  | .conn_swallow, .read .eagain => if 0 < c.sbytes ∧ c.rbytes = 0 then some c else none
  | .conn_swallow, .read _ => if 0 < c.sbytes ∧ c.rbytes = 0 then some { c with state := .conn_closing } else none
  | .conn_write, .transmit true => some { c with state := c.write_and_go }
  | .conn_mwrite, .transmit true =>
      some { c with state := if c.protocol = .binary_prot then c.write_and_go else .conn_new_cmd }
  | .conn_write, .transmit false | .conn_mwrite, .transmit false => some { c with state := .conn_closing }
  | _, _ => none

/-- A new connection that speaks the binary protocol. -/
def binary_conn : Conn where
  protocol := .binary_prot
  state := .conn_new_cmd
  write_and_go := .conn_new_cmd
  substate := .bin_no_state
  cmd := .none
  noreply := false
  authenticated := false
  sasl_conn := false
  binary_header := ⟨0, 0, 0, 0, 0⟩
  pos := 0
  rbytes := 0
  rlbytes := 0
  sbytes := 0
  item := none
  value_allocs := []

end Conn

/-- The connection takes the step `e`. -/
def Step (w : World) (c : Conn) (e : Event) (c' : Conn) : Prop := c.drive_machine w e = some c'

/-- The state after the steps `es`, if they can all be taken. -/
def Conn.after (w : World) (c : Conn) (es : List Event) : Conn := (es.foldlM (Conn.drive_machine w) c).getD c

theorem Conn.after_run {w : World} {c : Conn} {es : List Event}
    (h : (es.foldlM (Conn.drive_machine w) c).isSome) : Transition.Run (Step w) c es (c.after w es) :=
  .of_foldlM (Option.some_get h ▸ by simp [Conn.after, Option.getD_of_ne_none, Option.isSome_iff_ne_none.mp h])

end Memcached.Thread

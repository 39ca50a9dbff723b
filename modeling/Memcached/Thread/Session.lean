import Memcached.Thread.Input
import Memcached.Thread.Sasl

/-!
# One connection after the other on a descriptor

A `conn` with what `conn_new` does not set: the header of the last request and what an answer repeats of it, and the
reads from external storage. `_get_extstore`, `recache_or_free` and the callback of a read are not in the source: what
they leave is in the event. The buffers, which are empty when a connection begins, and the lists of what is to be sent,
which `conn_new` empties, are left out.
-/

namespace Memcached.Thread

structure Session where
  conn : Conn
  /-- `c->protocol` is `negotiating_prot`; the connection answers as an ASCII one till then. -/
  negotiating : Bool
  /-- `conn_watch` -/
  watched : Bool
  opaque_id : List UInt8
  cas : UInt64
  io_wraplist : List Nat
  io_wrapleft : Int
  io_queued : Bool
  deriving DecidableEq

/-- What a step leaves of the reads from external storage, and of the CAS to answer, if it sets one. -/
structure Extern where
  cas : Option UInt64
  io_wraplist : List Nat
  io_wrapleft : Int
  deriving DecidableEq

inductive SessionEvent
  | drive (e : Event) (x : Extern)
  /-- A line that is no storage command. -/
  | process_command (reply : Reply) (x : Extern)
  /-- `conn_mwrite`, or `conn_write` before it, hands the reads over. -/
  | extstore_submit
  | conn_worker_readd (io_wrapleft : Int) (io_queued : Bool)
  | conn_close_idle
  | conn_yield (ok : Bool)
  /-- `update_event` fails where more is to be read. -/
  | update_event_failed

namespace Session

variable (w : World) (s : Session)

/-- The protocol is chosen by the first byte. -/
def choose_protocol : Session :=
  if s.negotiating then
    { s with
      negotiating := false
      conn := { s.conn with
        protocol := if w.stream s.conn.pos = PROTOCOL_BINARY_REQ then .binary_prot else .ascii_prot } }
  else s

/-- What `try_read_command` copies from a whole header. -/
def copy_header : Session :=
  if s.conn.protocol = .binary_prot ∧ 24 ≤ s.conn.rbytes ∧ w.stream s.conn.pos = PROTOCOL_BINARY_REQ then
    { s with opaque_id := (List.range 4).map fun i => w.stream (s.conn.pos + 12 + i), cas := 0 }
  else s

/-- The handler of a command may read from external storage and set the CAS. -/
def external (x : Extern) : Session :=
  { s with cas := x.cas.getD s.cas, io_wraplist := x.io_wraplist, io_wrapleft := x.io_wrapleft }

/-- `conn_release_items`; `io_wrapleft` is what `recache_or_free` leaves. -/
def conn_release_items (io_wrapleft : Int) : Session :=
  { s with
    conn := { s.conn with item := none }
    io_wraplist := []
    io_wrapleft := if s.io_wraplist = [] then s.io_wrapleft else io_wrapleft }

/-- A step of `drive_machine`. -/
def drive (e : Event) (x : Extern) : Option Session :=
  if s.watched then none
  else match e with
    | .try_read_command a =>
        let s := s.choose_protocol w
        (s.conn.drive_machine w (.try_read_command a)).map fun c => { s.copy_header w with conn := c }
    | .complete_nread a => (s.conn.drive_machine w (.complete_nread a)).map fun c => { s.external x with conn := c }
    | .transmit complete =>
        -- in `conn_write` too: it falls through to `conn_mwrite`
        if s.io_wrapleft ≠ 0 then none
        else
          let s' := if s.conn.state = .conn_mwrite ∧ complete then s.conn_release_items x.io_wrapleft else s
          (s'.conn.drive_machine w (.transmit complete)).map fun c => { s' with conn := c }
    | e => (s.conn.drive_machine w e).map fun c => { s with conn := c }

/-- `try_read_command` of a line that is no storage command. -/
def process_command (reply : Reply) (x : Extern) : Option Session :=
  let s := s.choose_protocol w
  if s.watched ∨ s.conn.state ≠ .conn_parse_cmd ∨ s.conn.protocol ≠ .ascii_prot then none
  else match s.conn.command_line w.stream with
    | none => none
    | some (command, cont) =>
        if (update_command (tokenize_command command)).isSome then none
        else
          let c := Input.process_reply s.conn reply
          some { s.external x with
            conn := { c with rbytes := c.rbytes - (cont - c.pos), pos := cont }
            watched := match reply with | .conn_watch => true | _ => false }

/-- `conn_write` or `conn_mwrite` with reads that must come first; `none` where an assertion fails. -/
def extstore_submit : Option Session :=
  if s.watched = false ∧ (s.conn.state = .conn_write ∨ s.conn.state = .conn_mwrite) ∧ s.io_wrapleft ≠ 0 ∧
      s.io_queued = false ∧ s.io_wraplist ≠ [] then
    some { s with watched := true, io_queued := true }
  else none

/-- The connection comes back, from the callback of its reads with what that leaves. -/
def conn_worker_readd (io_wrapleft : Int) (io_queued : Bool) : Option Session :=
  if s.watched then
    some { s with
      watched := false
      io_wrapleft := io_wrapleft
      io_queued := io_queued
      conn := { s.conn with state := if s.io_wraplist = [] then .conn_new_cmd else .conn_mwrite } }
  else none

def step : SessionEvent → Option Session
  | .drive e x => s.drive w e x
  | .process_command reply x => s.process_command w reply x
  | .extstore_submit => s.extstore_submit
  | .conn_worker_readd io_wrapleft io_queued => s.conn_worker_readd io_wrapleft io_queued
  | .conn_close_idle =>
      if s.watched = false ∧ (s.conn.state = .conn_new_cmd ∨ s.conn.state = .conn_read) then
        some { s with conn := { s.conn with state := .conn_closing } }
      else none
  -- `nreqs` is used up
  | .conn_yield ok =>
      if s.watched = false ∧ s.conn.state = .conn_new_cmd then
        some (if s.conn.rbytes > 0 ∧ !ok then { s with conn := { s.conn with state := .conn_closing } } else s)
      else none
  | .update_event_failed =>
      if s.watched = false ∧ (s.conn.state = .conn_nread ∨ s.conn.state = .conn_swallow) then
        some { s with conn := { s.conn with state := .conn_closing } }
      else none

/-! ## The life of a connection -/

/-- What `calloc` returns. -/
def calloc : Session where
  conn := Conn.calloc
  negotiating := false
  watched := false
  opaque_id := [0, 0, 0, 0]
  cas := 0
  io_wraplist := []
  io_wrapleft := 0
  io_queued := false

/-- `conn_new` of an accepted connection. `binding_protocol` is `none` for `negotiating_prot`. -/
def conn_new (binding_protocol : Option Protocol) : Session :=
  { s with
    conn := { s.conn.conn_new with protocol := binding_protocol.getD .ascii_prot }
    negotiating := binding_protocol.isNone
    watched := false
    io_wraplist := [] }

/-- `conn_close` -/
def conn_close (io_wrapleft : Int) : Session :=
  let s := s.conn_release_items io_wrapleft
  { s with conn := { s.conn.conn_cleanup with state := .conn_closing } }

/-! ## What a client sees -/

/-- What a response is made of besides the answers of others: in the binary protocol what `add_bin_header` copies, and, for
the handler of a request, its header. -/
inductive Response
  | text
  | binary (opcode : UInt8) (opaque_id : List UInt8) (cas : UInt64) (request : Option Header)
  deriving DecidableEq

/-- A step as it is seen: the response that is made in it, and how the connection stands then. -/
structure Observation where
  response : Option Response
  state : ConnState
  watched : Bool
  authenticated : Bool
  pos : Nat
  deriving DecidableEq

def writing : Bool := s.conn.state = .conn_write ∨ s.conn.state = .conn_mwrite

/-- The response after the step `e`. -/
def response (e : SessionEvent) : Response :=
  match s.conn.protocol with
  | .ascii_prot => .text
  | .binary_prot =>
      .binary s.conn.binary_header.opcode s.opaque_id s.cas
        (match e with | .drive (.try_read_network _) _ => none | _ => some s.conn.binary_header)

/-- The step `e` from `s` to `s'`. -/
def seen (e : SessionEvent) (s' : Session) : Observation :=
  ⟨if s'.writing ∧ ¬ s.writing then some (s'.response e) else none, s'.conn.state, s'.watched, s'.conn.authenticated, s'.conn.pos⟩

/-- What is seen of the steps, up to the first that cannot be taken. -/
def observe (s : Session) : List SessionEvent → List (Option Observation)
  | [] => []
  | e :: es =>
      match s.step w e with
      | none => [none]
      | some s' => some (s.seen e s') :: observe s' es

end Session

end Memcached.Thread

import Mathlib.Data.Finset.Card
import Memcached.Network.Dispatch

/-!
# The connections of network/memcached.c

The sockets of the server: what is open, what `conns` and `curr_conns` say of it, and how connections are made, handed
to their workers, lent to side threads and closed. A `conn` is named by its descriptor; `conns[sfd]` may be null while a
worker still has the `conn`. How long an item of a queue, or a byte on a pipe, is under way is left open.
-/

namespace Memcached.Network

/-- What is on the queue of a worker. -/
inductive Queued
  | new_conn (sfd : Nat) (init_state : conn_states) (transport : network_transport)
  | redispatch (c : Nat)
  deriving DecidableEq

structure ConnSettings where
  maxconns : Nat
  maxconns_fast : Bool
  reserved_fds : Nat
  idle_timeout : Nat

structure Sockets where
  /-- `conns[sfd]` is not null. -/
  conns : Nat → Bool
  conn : Nat → Conn
  /-- The thread of the connection may run `drive_machine` on it. -/
  events : Nat → Bool
  /-- The sockets that are open. -/
  opened : Finset Nat
  queued : List Queued
  /-- The connections that side threads have. -/
  lent : List Nat
  /-- The descriptors sent to workers by `conn_timeout_thread`. -/
  timeouts : List Nat
  curr_conns : Int
  current_time : Nat

inductive SocketEvent
  /-- `server_socket`, for TCP. -/
  | listen (sfd : Nat) (transport : network_transport)
  /-- `server_socket`, for UDP: a descriptor for a worker. -/
  | bind_udp (sfd : Nat) (item : Bool)
  | accept (c sfd : Nat) (item : Bool)
  /-- A worker takes an item from its queue. -/
  | process (w : Nat) (q : Queued) (r : Made)
  | drive (c : Nat) (state : conn_states) (last_cmd_time : Nat) (io_wraplist : Bool)
  | closing (c : Nat)
  | lend (c : Nat)
  | redispatch_conn (c : Nat) (item : Bool)
  | conn_timeout (c : Nat)
  | conn_close_idle (c : Nat)
  | tick (now : Nat)

namespace Sockets

open Function (update)

variable (settings : ConnSettings) (s : Sockets)

def set_state (c : Nat) (state : conn_states) : Sockets :=
  { s with conn := update s.conn c { s.conn c with state := state } }

/-- `close` -/
def close (sfd : Nat) : Sockets := { s with opened := s.opened.erase sfd }

/-- `conn_new`: `false` where it returns null, none where it cannot end so. -/
def conn_new (sfd : Nat) (init_state : conn_states) (transport : network_transport) (r : Made) : Option (Sockets × Bool) :=
  if s.conns sfd = false ∧ r = .no_conn then some (s, false)
  -- `conn_free` of a `conn` whose `sfd` is still 0
  else if s.conns sfd = false ∧ r = .no_buffers then some ({ s with conns := update s.conns 0 false }, false)
  else
    let c : Conn := ⟨transport, init_state, s.current_time, if s.conns sfd then (s.conn sfd).thread else none, false⟩
    let s := { s with conns := update s.conns sfd true, conn := update s.conn sfd c }
    match r with
    | .ok => some ({ s with events := update s.events sfd true, curr_conns := s.curr_conns + 1 }, true)
    | .event_add_failed => some (s, false)
    | .no_conn | .no_buffers => none

def conn_close (c : Nat) : Sockets :=
  let s := { s with events := update s.events c false }
  let s := (s.set_state c .conn_closed).close c
  { s with curr_conns := s.curr_conns - 1 }

/-- `drive_machine` of a connection in `conn_closing`. -/
def drive_closing (c : Nat) : Sockets :=
  if (s.conn c).transport = .udp_transport then s.set_state c .conn_read else s.conn_close c

/-- Where `settings.maxconns_fast` is on, a connection beyond the limit is closed at once. -/
def full : Bool :=
  settings.maxconns_fast && decide (s.curr_conns + settings.reserved_fds ≥ (settings.maxconns : Int) - 1)

def dispatch_conn_new (sfd : Nat) (init_state : conn_states) (transport : network_transport) (item : Bool) : Sockets :=
  if item then { s with queued := s.queued ++ [.new_conn sfd init_state transport] } else s.close sfd

/-- `drive_machine` of a listening connection. -/
def accept (c sfd : Nat) (item : Bool) : Sockets :=
  let s := { s with opened := insert sfd s.opened }
  if s.full settings then s.close sfd else s.dispatch_conn_new sfd .conn_new_cmd (s.conn c).transport item

/-- `conn_worker_readd`, up to the `drive_machine` for the reads of `io_wraplist`. -/
def conn_worker_readd (c : Nat) : Sockets :=
  let state := if (s.conn c).io_wraplist then .conn_mwrite else .conn_new_cmd
  { s.set_state c state with events := update s.events c true }

/-- `thread_libevent_process` of a new item. A UDP socket without its `conn` ends the server. -/
def process (w : Nat) (r : Made) : Queued → Option Sockets
  | .new_conn sfd init_state transport =>
      match s.conn_new sfd init_state transport r with
      | none => none
      | some (s, true) => some { s with conn := update s.conn sfd { s.conn sfd with thread := some w } }
      | some (s, false) => if transport = .udp_transport then none else some (s.close sfd)
  | .redispatch c => some (s.conn_worker_readd c)

/-- Out of memory, the connection is closed here. -/
def redispatch_conn (c : Nat) (item : Bool) : Sockets :=
  let s := { s with lent := s.lent.erase c }
  if item then { s with queued := s.queued ++ [.redispatch c] } else (s.set_state c .conn_closed).close c

def idle (c : Nat) : Bool := decide (s.current_time - (s.conn c).last_cmd_time > settings.idle_timeout)

/-- The connection waits for a command. -/
def at_rest (c : Nat) : Bool := (s.conn c).state == .conn_new_cmd || (s.conn c).state == .conn_read

/-- `conn_timeout_thread` looks at one connection. -/
def conn_timeout (c : Nat) : Option Sockets :=
  if s.conns c && (s.conn c).transport == .tcp_transport && s.at_rest c && s.idle settings c then
    if (s.conn c).thread.isSome then some { s with timeouts := s.timeouts ++ [c] } else none
  else some s

/-- What `conn_close_idle` tests. -/
def kicks (c : Nat) : Bool := decide (settings.idle_timeout > 0) && s.idle settings c && s.at_rest c

def conn_close_idle (c : Nat) : Sockets := if s.kicks settings c then s.drive_closing c else s

def step : SocketEvent → Option Sockets
  | .listen sfd transport =>
      if sfd ∉ s.opened ∧ transport ≠ .udp_transport then
        ({ s with opened := insert sfd s.opened }.conn_new sfd .conn_listening transport .ok).map Prod.fst
      else none
  | .bind_udp sfd item =>
      if sfd ∉ s.opened then
        some ({ s with opened := insert sfd s.opened }.dispatch_conn_new sfd .conn_read .udp_transport item)
      else none
  | .accept c sfd item =>
      if s.events c ∧ (s.conn c).state = .conn_listening ∧ sfd ∉ s.opened then some (s.accept settings c sfd item)
      else none
  | .process w q r => if q ∈ s.queued then { s with queued := s.queued.erase q }.process w r q else none
  | .drive c state last_cmd_time io_wraplist =>
      if s.events c ∧ (s.conn c).state ≠ .conn_listening ∧ state ≠ .conn_listening ∧ state ≠ .conn_closed then
        let k := { s.conn c with state := state, last_cmd_time := last_cmd_time, io_wraplist := io_wraplist }
        some { s with conn := update s.conn c k }
      else none
  | .closing c => if s.events c ∧ (s.conn c).state ≠ .conn_listening then some (s.drive_closing c) else none
  | .lend c =>
      if s.events c ∧ (s.conn c).state ≠ .conn_listening then
        some { s.set_state c .conn_watch with events := update s.events c false, lent := s.lent ++ [c] }
      else none
  | .redispatch_conn c item => if c ∈ s.lent then some (s.redispatch_conn c item) else none
  | .conn_timeout c => s.conn_timeout settings c
  | .conn_close_idle c =>
      if c ∈ s.timeouts ∧ s.conns c then some ({ s with timeouts := s.timeouts.erase c }.conn_close_idle settings c)
      else none
  | .tick now => some { s with current_time := now }

/-- The server before it has a socket. -/
def init : Sockets where
  conns _ := false
  conn _ := ⟨.tcp_transport, .conn_closed, 0, none, false⟩
  events _ := false
  opened := ∅
  queued := []
  lent := []
  timeouts := []
  curr_conns := 0
  current_time := 0

/-- The sockets that wait on a queue for their `conn_new`. -/
def waiting : List Nat :=
  s.queued.filterMap fun
    | .new_conn sfd .. => some sfd
    | .redispatch _ => none

/-- The open client and listening connections. -/
def connections : Finset Nat := s.opened.filter fun sfd => sfd ∉ s.waiting

end Sockets

end Memcached.Network

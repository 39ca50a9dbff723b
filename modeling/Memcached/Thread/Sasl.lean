import Mathlib.Logic.Function.Basic
import Memcached.Thread.DriveMachine

/-!
# Connections that come and go

The table `conns` of network/memcached.c: a `conn` is made for a descriptor once and used again for every later
connection that gets the same descriptor. Each connection runs the state machine on its own stream. What a step
runs, and what the SASL library answered in it, are read off the state before the step.
-/

namespace Memcached.Thread

open Function (update)

/-- A command that `dispatch_bin_command` lets through, or the handler of what was read for one. -/
inductive Executed
  | dispatched (cmd : Cmd)
  | completed (substate : BinSubstate)
  deriving DecidableEq

/-- The SASL commands and VERSION. -/
def Executed.needs_no_auth : Executed → Bool
  | .dispatched .SASL_LIST_MECHS | .dispatched .SASL_AUTH | .dispatched .SASL_STEP | .dispatched .VERSION => true
  | .completed .bin_reading_sasl_auth | .completed .bin_reading_sasl_auth_data => true
  | _ => false

namespace Conn

/-- The command that gets past the checks of `dispatch_bin_command`. -/
def dispatched (settings : Settings) (c : Conn) : Option Cmd :=
  let extlen := c.binary_header.extlen.toNat
  let keylen := c.binary_header.keylen.toNat
  let bodylen := c.binary_header.bodylen.toNat
  if keylen > bodylen ∨ keylen + extlen > bodylen then none
  else if settings.sasl ∧ !c.is_authenticated then none
  else if keylen > KEY_MAX_LENGTH then none
  else some c.cmd

/-- What runs in the step `e`. -/
def executed (w : World) (c : Conn) : Event → Option Executed
  | .try_read_command _ =>
      let h := Header.at_pos w.stream c.pos
      if c.rbytes < 24 ∨ h.magic ≠ PROTOCOL_BINARY_REQ then none
      else ({ c with binary_header := h, cmd := .of_opcode h.opcode }.dispatched w.settings).map .dispatched
  | .complete_nread _ => some (.completed c.substate)
  | _ => none

/-- What `sasl_server_start` or `sasl_server_step` returns in the step `e`, if one of them is called. -/
def exchange (c : Conn) : Event → Option SaslResult
  | .complete_nread a =>
      if c.substate = .bin_reading_sasl_auth_data then
        c.item.bind fun it =>
          if c.binary_header.keylen.toNat > it.nkey ∨ c.body_after_key > it.nbytes then none else some a.sasl
      else none
  | _ => none

/-! ## The life of a connection -/

/-- What `calloc` returns, with the buffers. -/
def calloc : Conn := { binary_conn with write_and_go := .conn_waiting, state := .conn_waiting }

/-- `conn_new` of an accepted connection. -/
def conn_new (c : Conn) : Conn :=
  { c with
    protocol := .binary_prot
    state := .conn_new_cmd
    rlbytes := 0
    cmd := .none
    rbytes := 0
    authenticated := false
    write_and_go := .conn_new_cmd
    item := none
    noreply := false
    pos := 0
    value_allocs := [] }

def conn_cleanup (c : Conn) : Conn := { c with item := none, sasl_conn := false }

end Conn

/-- A `conn` and its client. `last_exchange` records how the last SASL exchange that was completed on this connection
ended. -/
structure Slot where
  conn : Conn
  closed : Bool
  stream : Nat → UInt8
  last_exchange : Option SaslResult

def Slot.complete (last : Option SaslResult) : Option SaslResult → Option SaslResult
  | some .SASL_OK => some .SASL_OK
  | some .error => some .error
  | some .SASL_CONTINUE | none => last

inductive ServerEvent
  | accept (sfd : Nat) (stream : Nat → UInt8)
  | drive (sfd : Nat) (e : Event)
  | conn_close_idle (sfd : Nat)
  | conn_close (sfd : Nat)

/-- What all connections share. -/
structure ServerWorld where
  settings : Settings
  numbers : Numbers

namespace ServerWorld

variable (w : ServerWorld)

def world (k : Slot) : World := ⟨k.stream, w.settings, w.numbers⟩

/-- A step of the connection that is open on `k`. -/
def drive (k : Slot) (e : Event) : Option Slot :=
  if k.closed then none
  else (k.conn.drive_machine (w.world k) e).map fun c =>
    { k with conn := c, last_exchange := Slot.complete k.last_exchange (k.conn.exchange e) }

/-- `conn_close_idle` of network/memcached.c, when the time is up. -/
def conn_close_idle (k : Slot) : Option Slot :=
  if k.closed = false ∧ (k.conn.state = .conn_new_cmd ∨ k.conn.state = .conn_read) then
    some { k with conn := { k.conn with state := .conn_closing } }
  else none

/-- `conn_close`, which leaves the `conn` in the table. -/
def conn_close (k : Slot) : Option Slot :=
  if k.closed = false ∧ k.conn.state = .conn_closing then some { k with conn := k.conn.conn_cleanup, closed := true }
  else none

/-- The kernel gives out a descriptor that is not open. -/
def accept (stream : Nat → UInt8) : Option Slot → Option Slot
  | none => some ⟨Conn.calloc.conn_new, false, stream, none⟩
  | some k => if k.closed then some ⟨k.conn.conn_new, false, stream, none⟩ else none

def step (conns : Nat → Option Slot) : ServerEvent → Option (Nat → Option Slot)
  | .accept sfd stream => (accept stream (conns sfd)).map fun k => update conns sfd (some k)
  | .drive sfd e => ((conns sfd).bind (w.drive · e)).map fun k => update conns sfd (some k)
  | .conn_close_idle sfd => ((conns sfd).bind ServerWorld.conn_close_idle).map fun k => update conns sfd (some k)
  | .conn_close sfd => ((conns sfd).bind ServerWorld.conn_close).map fun k => update conns sfd (some k)

end ServerWorld

/-- The server takes the step `e`. -/
def ServerStep (w : ServerWorld) (conns : Nat → Option Slot) (e : ServerEvent) (conns' : Nat → Option Slot) : Prop :=
  w.step conns e = some conns'

end Memcached.Thread

import Mathlib.Data.UInt
import Mathlib.Logic.Function.Basic
import Memcached.Lib.Run

/-!
# Handing connections to the workers of network/thread.c

The listening thread and the side threads hand connections to the workers, each through a queue of `CQ_ITEM`s and one
byte on the worker's pipe; the timeout thread writes five bytes to the same pipe. A step of a thread is one section
under one lock, one read or write of a pipe, or what the thread does alone between two of these. A write to a pipe is
atomic and complete. A `CQ_ITEM` is named by a number, `&item[i]` by `item + i`, and a `conn` by its descriptor, as `conns` has it.
Output, statistics and libevent are left out.
-/

namespace Memcached.Network

/-! ## Data -/

inductive conn_states
  | conn_listening
  | conn_new_cmd
  | conn_waiting
  | conn_read
  | conn_parse_cmd
  | conn_write
  | conn_nread
  | conn_swallow
  | conn_closing
  | conn_mwrite
  | conn_closed
  | conn_watch
  deriving DecidableEq

inductive network_transport
  | local_transport
  | tcp_transport
  | udp_transport
  deriving DecidableEq

inductive conn_queue_item_modes
  | queue_new_conn
  | queue_redispatch
  deriving DecidableEq

structure CQ_ITEM where
  sfd : Nat
  init_state : conn_states
  event_flags : Nat
  read_buffer_size : Nat
  transport : network_transport
  mode : conn_queue_item_modes
  c : Nat
  next : Option Nat

structure CQ where
  head : Option Nat
  tail : Option Nat

/-- A `conn`, as far as it is looked at when it is handed over. -/
structure Conn where
  transport : network_transport
  state : conn_states
  last_cmd_time : Nat
  thread : Option Nat
  /-- `io_wraplist` is not null. -/
  io_wraplist : Bool

/-- A connection on its way to a worker. -/
inductive Handoff
  | new_conn (sfd : Nat) (init_state : conn_states) (event_flags read_buffer_size : Nat)
      (transport : network_transport)
  | redispatch (c : Nat)
  deriving DecidableEq

def CQ_ITEM.handoff (i : CQ_ITEM) : Handoff :=
  match i.mode with
  | .queue_new_conn => .new_conn i.sfd i.init_state i.event_flags i.read_buffer_size i.transport
  | .queue_redispatch => .redispatch i.c

/-- What the writers of a pipe mean by its bytes. -/
inductive Message
  | conn
  | pause
  | timeout (fd : UInt32)
  deriving DecidableEq

/-- `memcpy(&buf[1], &i, sizeof(int))`, on a little-endian machine. -/
def fd_bytes (i : UInt32) : List UInt8 :=
  [i.toUInt8, (i >>> 8).toUInt8, (i >>> 16).toUInt8, (i >>> 24).toUInt8]

def Message.bytes : Message → List UInt8
  | .conn => [99]
  | .pause => [112]
  | .timeout fd => 116 :: fd_bytes fd

/-- Where a thread is that hands over `h`. -/
inductive Dispatcher
  | idle
  | allocating (h : Handoff)
  | linking (h : Handoff) (item : Nat)
  | holding (h : Handoff) (item : Nat)
  | pushing (h : Handoff) (w : Nat) (item : Nat)
  | notifying (w : Nat)
  deriving DecidableEq

/-- Where a worker is in `thread_libevent_process`. -/
inductive Worker
  | waiting
  | popping
  | handling (item : Nat)
  | freeing (item : Nat)
  | timing_out
  deriving DecidableEq

/-- How `conn_new` ends. -/
inductive Made
  | ok
  /-- `calloc` failed. -/
  | no_conn
  /-- One of the buffers was not allocated. -/
  | no_buffers
  | event_add_failed
  deriving DecidableEq

/-- `dispatchers` bounds the threads that hand over connections. -/
structure Settings where
  num_threads : Nat
  dispatchers : Nat
  ITEMS_PER_ALLOC : Nat
  idle_timeout : Nat

/-- `queued`, `handled`, `sent` and `received` record, per worker, what went by; nothing reads them. -/
structure System where
  items : Nat → CQ_ITEM
  cqi_freelist : Option Nat
  blocks : List Nat
  new_conn_queue : Nat → CQ
  pipe : Nat → List UInt8
  last_thread : Int
  conns : Nat → Option Conn
  current_time : Nat
  init_count : Nat
  dispatcher : Nat → Dispatcher
  worker : Nat → Worker
  queued : Nat → List Handoff
  handled : Nat → List Handoff
  sent : Nat → List Message
  received : Nat → List Message

inductive Event
  | dispatch_conn_new (d sfd : Nat) (init_state : conn_states) (event_flags read_buffer_size : Nat)
      (transport : network_transport)
  | redispatch_conn (d c : Nat)
  | malloc (d : Nat) (r : Option Nat)
  | dispatch (d : Nat)
  | timeout (i : Nat)
  | pause (w : Nat)
  | wake (w : Nat) (r : Made)
  | drive (i : Nat) (state : conn_states) (last_cmd_time : Nat) (io_wraplist : Bool)
  | tick (now : Nat)

open Function (update)

variable (settings : Settings) (s : System)

namespace System

/-! ## The queue and the free list -/

def set_next (p : Nat) (n : Option Nat) : System :=
  { s with items := update s.items p { s.items p with next := n } }

/-- The locked part of `cq_pop`. -/
def cq_pop (w : Nat) : Option Nat × System :=
  match (s.new_conn_queue w).head with
  | none => (none, s)
  | some item =>
      let n := (s.items item).next
      let q : CQ := ⟨n, if n = none then none else (s.new_conn_queue w).tail⟩
      (some item, { s with new_conn_queue := update s.new_conn_queue w q })

def cq_push (w : Nat) (item : Nat) : System :=
  let s := s.set_next item none
  let q := s.new_conn_queue w
  match q.tail with
  | none => { s with new_conn_queue := update s.new_conn_queue w ⟨some item, some item⟩ }
  | some t =>
      let s := s.set_next t (some item)
      { s with new_conn_queue := update s.new_conn_queue w ⟨q.head, some item⟩ }

/-- The first locked part of `cqi_new`. -/
def cqi_pop : Option Nat × System :=
  match s.cqi_freelist with
  | none => (none, s)
  | some item => (some item, { s with cqi_freelist := (s.items item).next })

/-- The items of a new block, each linked to the one after it. -/
def link_block (item : Nat) : System :=
  { s with
    blocks := item :: s.blocks
    items := fun p =>
      if item < p ∧ p + 1 < item + settings.ITEMS_PER_ALLOC then { s.items p with next := some (p + 1) }
      else s.items p }

/-- The second locked part of `cqi_new`. -/
def cqi_refill (item : Nat) : System :=
  { s.set_next (item + (settings.ITEMS_PER_ALLOC - 1)) s.cqi_freelist with cqi_freelist := some (item + 1) }

def cqi_free (item : Nat) : System :=
  { s.set_next item s.cqi_freelist with cqi_freelist := some item }

/-! ## The writers -/

def set_dispatcher (d : Nat) (k : Dispatcher) : System := { s with dispatcher := update s.dispatcher d k }

def write (w : Nat) (m : Message) : System :=
  { s with
    pipe := update s.pipe w (s.pipe w ++ m.bytes)
    sent := update s.sent w (s.sent w ++ [m]) }

/-- `dispatch_conn_new` and `redispatch_conn` begin with `cqi_new`. -/
def start (d : Nat) (h : Handoff) : System :=
  match s.cqi_pop with
  | (none, s) => s.set_dispatcher d (.allocating h)
  | (some item, s) => s.set_dispatcher d (.holding h item)

/-- Where `redispatch_conn` gives up it closes the connection itself. -/
def give_up : Handoff → System
  | .new_conn .. => s
  | .redispatch c =>
      match s.conns c with
      | none => s
      | some k => { s with conns := update s.conns c (some { k with state := .conn_closed }) }

/-- The fields of the item are filled in and its worker is chosen. -/
def fill (d : Nat) (item : Nat) : Handoff → Option System
  | .new_conn sfd init_state event_flags read_buffer_size transport =>
      let tid := (s.last_thread + 1).tmod settings.num_threads
      let i : CQ_ITEM := { s.items item with
        sfd := sfd, init_state := init_state, event_flags := event_flags, read_buffer_size := read_buffer_size
        transport := transport, mode := .queue_new_conn }
      some ({ s with last_thread := tid, items := update s.items item i }.set_dispatcher d
        (.pushing (.new_conn sfd init_state event_flags read_buffer_size transport) tid.toNat item))
  | .redispatch c => do
      let k ← s.conns c
      let w ← k.thread
      let i : CQ_ITEM := { s.items item with
        sfd := c, init_state := .conn_new_cmd, c := c, mode := .queue_redispatch }
      some ({ s with items := update s.items item i }.set_dispatcher d (.pushing (.redispatch c) w item))

/-- The next section of a thread that hands over a connection. -/
def dispatch (d : Nat) : Option System :=
  match s.dispatcher d with
  | .idle | .allocating _ => none
  | .linking h item => some ((s.cqi_refill settings item).set_dispatcher d (.holding h item))
  | .holding h item => s.fill settings d item h
  | .pushing h w item =>
      let s := s.cq_push w item
      some ({ s with queued := update s.queued w (s.queued w ++ [h]) }.set_dispatcher d (.notifying w))
  | .notifying w => some ((s.write w .conn).set_dispatcher d .idle)

/-- `malloc` answers inside `cqi_new`; the block it returns overlaps none that it returned before. -/
def malloc (d : Nat) (r : Option Nat) : Option System :=
  match s.dispatcher d with
  | .allocating h =>
      match r with
      | none => some ((s.give_up h).set_dispatcher d .idle)
      | some item =>
          if ∀ b ∈ s.blocks, b + settings.ITEMS_PER_ALLOC ≤ item ∨ item + settings.ITEMS_PER_ALLOC ≤ b then
            some ((s.link_block settings item).set_dispatcher d (.linking h item))
          else none
  | _ => none

/-- One round of the loop of `conn_timeout_thread`. -/
def conn_timeout (i : Nat) : Option System :=
  match s.conns i with
  | none => some s
  | some c =>
      if c.transport ≠ .tcp_transport then some s
      else if c.state ≠ .conn_new_cmd ∧ c.state ≠ .conn_read then some s
      else if s.current_time - c.last_cmd_time > settings.idle_timeout then do
        let w ← c.thread
        some (s.write w (.timeout (UInt32.ofNat i)))
      else some s

/-! ## The workers -/

def set_worker (w : Nat) (k : Worker) : System := { s with worker := update s.worker w k }

def receive (w : Nat) (m : Message) (rest : List UInt8) : System :=
  { s with
    pipe := update s.pipe w rest
    received := update s.received w (s.received w ++ [m]) }

/-- `conn_new`; `thread` is set when it has returned. A UDP socket without its `conn` ends the server. -/
def conn_new (w sfd : Nat) (init_state : conn_states) (transport : network_transport) : Made → Option System
  | .ok => some { s with conns := update s.conns sfd (some ⟨transport, init_state, s.current_time, some w, false⟩) }
  | .no_conn => if transport = .udp_transport ∨ (s.conns sfd).isSome then none else some s
  -- `conn_free` of a `conn` whose `sfd` is still 0
  | .no_buffers =>
      if transport = .udp_transport ∨ (s.conns sfd).isSome then none else some { s with conns := update s.conns 0 none }
  | .event_add_failed =>
      if transport = .udp_transport then none
      else
        let c : Conn := ⟨transport, init_state, s.current_time, (s.conns sfd).bind Conn.thread, false⟩
        some { s with conns := update s.conns sfd (some c) }

/-- `conn_worker_readd`; what `drive_machine` then does for the reads of `io_wraplist` is a step of its own. -/
def conn_worker_readd (c : Nat) : System :=
  match s.conns c with
  | none => s
  | some k =>
      let state := if k.io_wraplist then .conn_mwrite else .conn_new_cmd
      { s with conns := update s.conns c (some { k with state := state }) }

def conn_close_idle (i : Nat) : System :=
  match s.conns i with
  | none => s
  | some c =>
      if settings.idle_timeout > 0 ∧ s.current_time - c.last_cmd_time > settings.idle_timeout then
        if c.state ≠ .conn_new_cmd ∧ c.state ≠ .conn_read then s
        else { s with conns := update s.conns i (some { c with state := .conn_closed }) }
      else s

def handle (w : Nat) (r : Made) : Handoff → Option System
  | .new_conn sfd init_state _ _ transport => s.conn_new w sfd init_state transport r
  | .redispatch c => some (s.conn_worker_readd c)

/-- The first byte of a wake-up decides what the worker does. -/
def read_command (w : Nat) (b : UInt8) (rest : List UInt8) : System :=
  if b = 99 then (s.receive w .conn rest).set_worker w .popping
  else if b = 112 then { s.receive w .pause rest with init_count := s.init_count + 1 }.set_worker w .waiting
  else if b = 116 then { s with pipe := update s.pipe w rest }.set_worker w .timing_out
  else { s with pipe := update s.pipe w rest }.set_worker w .waiting

/-- The next section of `thread_libevent_process` of `w`. -/
def wake (w : Nat) (r : Made) : Option System :=
  match s.worker w with
  | .waiting =>
      match s.pipe w with
      | [] => none
      | b :: rest => some (s.read_command w b rest)
  | .popping =>
      match s.cq_pop w with
      | (none, s) => some (s.set_worker w .waiting)
      | (some item, s) => some (s.set_worker w (.handling item))
  | .handling item => do
      let h := (s.items item).handoff
      let s ← s.handle w r h
      some ({ s with handled := update s.handled w (s.handled w ++ [h]) }.set_worker w (.freeing item))
  | .freeing item => some ((s.cqi_free item).set_worker w .waiting)
  | .timing_out =>
      match s.pipe w with
      | b₀ :: b₁ :: b₂ :: b₃ :: rest =>
          let fd := UInt32.ofNat (b₀.toNat + 2 ^ 8 * b₁.toNat + 2 ^ 16 * b₂.toNat + 2 ^ 24 * b₃.toNat)
          some (((s.receive w (.timeout fd) rest).conn_close_idle settings fd.toNat).set_worker w .waiting)
      | _ => some ({ s with pipe := update s.pipe w [] }.set_worker w .waiting)

/-! ## Steps -/

def step : Event → Option System
  | .dispatch_conn_new d sfd init_state event_flags read_buffer_size transport =>
      if d < settings.dispatchers ∧ s.dispatcher d = .idle then
        some (s.start d (.new_conn sfd init_state event_flags read_buffer_size transport))
      else none
  | .redispatch_conn d c =>
      if d < settings.dispatchers ∧ s.dispatcher d = .idle then some (s.start d (.redispatch c)) else none
  | .malloc d r => if d < settings.dispatchers then s.malloc settings d r else none
  | .dispatch d => if d < settings.dispatchers then s.dispatch settings d else none
  | .timeout i => s.conn_timeout settings i
  | .pause w => some (s.write w .pause)
  | .wake w r => s.wake settings w r
  | .drive i state last_cmd_time io_wraplist =>
      match s.conns i with
      | none => none
      | some c =>
          let c := { c with state := state, last_cmd_time := last_cmd_time, io_wraplist := io_wraplist }
          some { s with conns := update s.conns i (some c) }
  | .tick now => some { s with current_time := now }

end System

/-- After `memcached_thread_init`. -/
def System.init : System where
  items _ := ⟨0, .conn_new_cmd, 0, 0, .tcp_transport, .queue_new_conn, 0, none⟩
  cqi_freelist := none
  blocks := []
  new_conn_queue _ := ⟨none, none⟩
  pipe _ := []
  last_thread := -1
  conns _ := none
  current_time := 0
  init_count := 0
  dispatcher _ := .idle
  worker _ := .waiting
  queued _ := []
  handled _ := []
  sent _ := []
  received _ := []

def Step (s : System) (e : Event) (s' : System) : Prop := s.step settings e = some s'

end Memcached.Network

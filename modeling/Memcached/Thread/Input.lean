import Memcached.Lib.Memory
import Memcached.Thread.DriveMachine
import Memcached.Thread.Udp

/-!
# The input buffer of thread/memcached.c

`rbuf`, `rcurr` and `ritem` are addresses of one memory. The buffer is moved, grown and shrunk where the code does it,
and a pointer that the code does not set stays as it was. What the socket, the allocators and the functions missing from
the source answer is in the event. Numbers are brought into host order as on a little-endian machine.
-/

namespace Memcached.Thread

structure Input where
  conn : Conn
  is_udp : Bool
  /-- `c->protocol` is `negotiating_prot`; the connection answers as an ASCII one till then. -/
  negotiating : Bool
  mem : Nat → UInt8
  rbuf : Nat
  rsize : Nat
  rcurr : Nat
  ritem : Nat

/-- The build and the settings. `binary_get_request` is not in the source. -/
structure Host where
  DATA_BUFFER_SIZE : Nat
  READ_BUFFER_HIGHWAT : Nat
  NEED_ALIGN : Bool
  binary_get_request : Input → Nat
  settings : Settings
  numbers : Numbers

/-- The result of a read or of `recvfrom`. -/
inductive Received
  | data (bytes : List UInt8)
  | eof
  | eagain
  | error

/-- The calls that `try_read_network` makes. -/
inductive NetworkCall
  | realloc (newm : Option Nat)
  | read (res : Received)

/-- How a command ends that is no storage command. -/
inductive Reply
  /-- `out_string` or `out_of_memory`, after a `noreply` in the line or not. -/
  | out_string (noreply : Bool)
  /-- `process_get_command` has queued what it found. -/
  | conn_mwrite
  | write_and_free
  | conn_closing
  /-- The connection has come back from `conn_watch`, where nothing is read. -/
  | conn_watch

/-- What `try_read_command` asks others for. -/
structure Parse where
  answers : Answers
  add_msghdr : Bool
  /-- `realloc` in `bin_read_key`. -/
  realloc : Option Nat
  /-- What the handler of a command leaves of its line. -/
  line : List UInt8
  reply : Reply
  /-- `ITEM_data` of the item that is allocated. -/
  ITEM_data : Nat

/-- What `transmit` and the calls before it come to. -/
inductive Transmit
  | COMPLETE
  | INCOMPLETE
  /-- A datagram is given up. -/
  | HARD_ERROR
  | failed

inductive InputEvent
  | update_event (ok : Bool)
  | try_read_network (calls : List NetworkCall)
  | try_read_udp (res : Received)
  | try_read_command (p : Parse)
  | reset_cmd_handler (realloc : Option Nat)
  /-- `nreqs` is used up. -/
  | conn_yield (ok : Bool)
  | complete_nread (a : Answers) (ITEM_data : Nat)
  | invalid_rlbytes
  | leftovers
  | read (res : Received)
  /-- `read_into_chunked_item` takes `leftover` bytes of the buffer, then `direct` from the socket. -/
  | read_into_chunked_item (leftover : Nat) (direct : List UInt8) (res : ReadResult)
  | swallowed
  | transmit (res : Transmit)
  | conn_cleanup
  /-- The connection is closed, and its structure taken for a new one. -/
  | conn_new (negotiating : Bool) (protocol : Protocol)

namespace Input

variable (b : Input)

/-- The bytes in the buffer that have not been looked at. -/
def unread : List UInt8 := Memory.read b.mem b.rcurr b.conn.rbytes

/-! ## The buffer -/

def conn_set_state (state : ConnState) : Input := { b with conn := { b.conn with state := state } }

/-- `memmove(c->rbuf, c->rcurr, c->rbytes)`, if the two differ. -/
def pack : Input :=
  if b.rcurr = b.rbuf then b else { b with mem := Memory.move b.mem b.rbuf b.rcurr b.conn.rbytes, rcurr := b.rbuf }

/-- `c->rbuf = realloc(c->rbuf, nsize)`; `rcurr` is the caller's. -/
def realloc (newm nsize : Nat) : Input :=
  { b with mem := Memory.move b.mem newm b.rbuf (min b.rsize nsize), rbuf := newm, rsize := nsize }

/-- `n` bytes of the buffer are done with. -/
def skip (n : Nat) : Input :=
  { b with rcurr := b.rcurr + n, conn := { b.conn with rbytes := b.conn.rbytes - n, pos := b.conn.pos + n } }

/-- `c->ritem = ITEM_data(it)`, if an item was allocated. Its header lies before its data, and neither in the buffer. -/
def fill_item (ITEM_data : Nat) : Option Input :=
  if b.conn.state = .conn_nread ∧ b.conn.item.isSome then
    if b.conn.is_chunked ∨ b.rbuf + b.rsize < ITEM_data ∨ ITEM_data + b.conn.rlbytes.toNat ≤ b.rbuf then
      some { b with ritem := ITEM_data }
    else none
  else some b

/-- `conn_shrink`, of which only the input buffer is kept. -/
def conn_shrink (host : Host) (realloc : Option Nat) : Input :=
  if b.is_udp then b
  else if b.rsize > host.READ_BUFFER_HIGHWAT ∧ b.conn.rbytes < host.DATA_BUFFER_SIZE then
    match realloc with
    | some newbuf => { b.pack.realloc newbuf host.DATA_BUFFER_SIZE with rcurr := newbuf }
    | none => { b.pack with rcurr := b.rbuf }
  else b

/-! ## Reading -/

/-- The bytes of a read come after those that are there. -/
def append (bytes : List UInt8) : Input :=
  { b with
    mem := Memory.write b.mem (b.rbuf + b.conn.rbytes) bytes
    conn := { b.conn with rbytes := b.conn.rbytes + bytes.length } }

/-- The loop of `try_read_network`, which makes the calls one after the other and no others. -/
def try_read_loop (b : Input) (num_allocs : Nat) (gotdata : TryReadResult) : List NetworkCall → Option (Input × TryReadResult)
  | [] => if b.conn.rbytes ≥ b.rsize ∧ num_allocs = 4 then some (b, gotdata) else none
  | .realloc newm :: calls =>
      if b.conn.rbytes ≥ b.rsize ∧ num_allocs ≠ 4 then
        match newm with
        | some new_rbuf =>
            -- `rsize * 2` is an `int`: from 2^31 on it is negative, and no memory has that size
            if b.rsize * 2 < 2 ^ 31 then
              { b.realloc new_rbuf (b.rsize * 2) with rcurr := new_rbuf }.try_read_loop (num_allocs + 1) gotdata calls
            else none
        | none =>
            if calls.isEmpty then some ({ b with conn := b.conn.network_read .no_memory }, .READ_MEMORY_ERROR) else none
      else none
  | .read (.data bytes) :: calls =>
      let avail := b.rsize - b.conn.rbytes
      if 0 < bytes.length ∧ bytes.length ≤ avail then
        if bytes.length = avail then (b.append bytes).try_read_loop num_allocs .READ_DATA_RECEIVED calls
        else if calls.isEmpty then some (b.append bytes, .READ_DATA_RECEIVED) else none
      else none
  | .read .eagain :: calls => if b.conn.rbytes < b.rsize ∧ calls.isEmpty then some (b, gotdata) else none
  | .read _ :: calls => if b.conn.rbytes < b.rsize ∧ calls.isEmpty then some (b, .READ_ERROR) else none

def try_read_network (calls : List NetworkCall) : Option (Input × TryReadResult) :=
  b.pack.try_read_loop 0 .READ_NO_DATA_RECEIVED calls

def try_read_udp : Received → Input × TryReadResult
  | .data datagram =>
      let received := datagram.take b.rsize
      let res := received.length
      let b := { b with mem := Memory.write b.mem b.rbuf received }
      if res = 0 then (b, .READ_NO_DATA_RECEIVED)
      else if b.mem (b.rbuf + 4) ≠ 0 ∨ b.mem (b.rbuf + 5) ≠ 1 then
        ({ b with conn := b.conn.out_string }, .READ_NO_DATA_RECEIVED)
      else
        ({ b with
            mem := Memory.move b.mem b.rbuf (b.rbuf + 8) res
            rcurr := b.rbuf
            conn := { b.conn with rbytes := res } }, .READ_DATA_RECEIVED)
  | _ => (b, .READ_NO_DATA_RECEIVED)

/-- `conn_read`, after either. -/
def conn_read : Input × TryReadResult → Input
  | (b, .READ_NO_DATA_RECEIVED) => b.conn_set_state .conn_waiting
  | (b, .READ_DATA_RECEIVED) => b.conn_set_state .conn_parse_cmd
  | (b, .READ_ERROR) => b.conn_set_state .conn_closing
  | (b, .READ_MEMORY_ERROR) => b

/-! ## Requests -/

/-- The loop `while (size > nsize) nsize *= 2`. -/
def double_until (size : Nat) : Nat → Nat → Nat
  | 0, nsize => nsize
  | fuel + 1, nsize => if size > nsize then double_until size fuel (nsize * 2) else nsize

/-- `bin_read_key`, after `substate` and `rlbytes` are set. -/
def bin_read_key (newm : Option Nat) : Input :=
  let offset := b.rcurr + 24 - b.rbuf
  if b.conn.rlbytes > (b.rsize : Int) - offset then
    let size := b.conn.rlbytes.toNat + 24
    let nsize := double_until size size b.rsize
    let grown := if nsize = b.rsize then some b else newm.map fun newm =>
      { b.realloc newm nsize with rcurr := newm + offset - 24 }
    match grown with
    | none => b.conn_set_state .conn_closing
    | some b =>
        let b := b.pack
        { b with ritem := b.rcurr + 24 }
  else { b with ritem := b.rcurr + 24 }

/-- `try_read_command` of a binary request. -/
def try_read_header (host : Host) (p : Parse) : Input :=
  if b.conn.rbytes < 24 then b.conn_set_state .conn_waiting
  else
    let b := if host.NEED_ALIGN ∧ b.rcurr % 8 ≠ 0 then b.pack else b
    let h := Header.at_pos b.mem b.rcurr
    let b := { b with conn := { b.conn with binary_header := h } }
    if h.magic ≠ PROTOCOL_BINARY_REQ then b.conn_set_state .conn_closing
    else if !p.add_msghdr then { b with conn := b.conn.out_of_memory }.conn_set_state .conn_waiting
    else
      -- whether the key finds room is decided in `bin_read_key`
      let c := { b.conn with cmd := .of_opcode h.opcode }.dispatch_bin_command host.settings
        { p.answers with realloc_ok := true }
      let b := { b with conn := c }
      let b := if c.state = .conn_nread then b.bin_read_key p.realloc else b
      b.skip 24

/-- What `process_command` does with the other commands. -/
def process_reply (c : Conn) : Reply → Conn
  | .out_string noreply => { c with noreply := c.noreply || noreply }.out_string
  | .conn_mwrite => { c with state := .conn_mwrite }
  | .write_and_free => c.write_and_free
  | .conn_closing => { c with state := .conn_closing }
  | .conn_watch => { c with state := .conn_new_cmd }

def process_command (host : Host) (c : Conn) (command : List UInt8) (p : Parse) : Conn :=
  if !p.add_msghdr then c.out_of_memory
  else (c.process_command host.numbers command p.answers).getD (process_reply c p.reply)

/-- `try_read_command` of a line. -/
def try_read_line (host : Host) (p : Parse) : Option Input :=
  match { b.conn with pos := b.rcurr }.command_line b.mem with
  | none => some (b.conn_set_state (if b.conn.rbytes > 1024 ∧ !p.answers.multiget then .conn_closing else .conn_waiting))
  | some (command, cont) =>
      if p.line.length = cont - b.rcurr then
        ({ b with
            mem := Memory.write b.mem b.rcurr p.line
            conn := process_command host b.conn command p } : Input).fill_item p.ITEM_data |>.map
          fun b' => b'.skip (cont - b.rcurr)
      else none

def choose_protocol : Input :=
  if b.negotiating ∨ b.is_udp then
    { b with
      negotiating := false
      conn := { b.conn with protocol := if b.mem b.rbuf = PROTOCOL_BINARY_REQ then .binary_prot else .ascii_prot } }
  else b

def try_read_command (host : Host) (p : Parse) : Option Input :=
  match b.choose_protocol.conn.protocol with
  | .binary_prot => some (b.choose_protocol.try_read_header host p)
  | .ascii_prot => b.choose_protocol.try_read_line host p

/-! ## Bodies -/

/-- The offsets and widths of the numbers in the body of a request that a handler brings into host order in place. -/
def body_fields (c : Conn) : List (Nat × Nat) :=
  match c.protocol, c.substate with
  | .binary_prot, .bin_reading_set_header =>
      -- `process_bin_update`: flags and expiration
      if c.cmd = .APPEND ∨ c.cmd = .PREPEND then [] else [(0, 4), (4, 4)]
  -- `complete_incr_bin`: delta, initial and expiration
  | .binary_prot, .bin_reading_incr_header => [(0, 8), (8, 8), (16, 4)]
  | _, _ => []

/-- The conversions in place at the beginning of a handler. -/
def fix_byteorder (host : Host) : Input :=
  { b with
    mem := (body_fields b.conn).foldl
      (fun mem field => Memory.reverse mem (host.binary_get_request b + 24 + field.1) field.2) b.mem }

def complete_nread (host : Host) (a : Answers) (ITEM_data : Nat) : Option Input :=
  (match b.conn.protocol with
  | .ascii_prot => b.conn.complete_nread_ascii a
  | .binary_prot => b.conn.complete_nread_binary host.settings a).bind
    fun c => { b.fix_byteorder host with conn := c }.fill_item ITEM_data

/-- `conn_nread`: `n` bytes from the buffer. -/
def nread_leftovers (n : Nat) : Input :=
  { b with
    mem := if b.ritem ≠ b.rcurr then Memory.move b.mem b.ritem b.rcurr n else b.mem
    ritem := b.ritem + n
    rcurr := b.rcurr + n
    conn := b.conn.fill n }

/-- `conn_nread`: bytes from the socket. -/
def nread_socket (bytes : List UInt8) : Input :=
  { b with
    mem := Memory.write b.mem b.ritem bytes
    rcurr := if b.rcurr = b.ritem then b.rcurr + bytes.length else b.rcurr
    ritem := b.ritem + bytes.length
    conn := b.conn.fill bytes.length }

def reset_cmd_handler (host : Host) (realloc : Option Nat) : Input :=
  let b := b.conn_shrink host realloc
  { b with conn := b.conn.reset_cmd_handler }

/-- `conn_cleanup` of a UDP connection. -/
def conn_cleanup : Input := { b with conn := { b.conn with item := none, sasl_conn := false, state := .conn_read } }

/-- `conn_new`, with the buffer of the connection that was closed. -/
def conn_new (negotiating : Bool) (protocol : Protocol) : Input :=
  { b with
    negotiating := negotiating
    rcurr := b.rbuf
    ritem := 0
    conn := { b.conn with
      protocol := if negotiating then .ascii_prot else protocol
      state := .conn_new_cmd
      write_and_go := .conn_new_cmd
      cmd := .none
      rbytes := 0
      rlbytes := 0
      authenticated := false
      item := none
      sasl_conn := false
      noreply := false } }

/-! ## Steps -/

/-- One step of `drive_machine`: `none` if `e` cannot happen here. -/
def drive_machine (host : Host) (b : Input) (e : InputEvent) : Option Input :=
  let c := b.conn
  match c.state, e with
  | .conn_waiting, .update_event ok => some (b.conn_set_state (if ok then .conn_read else .conn_closing))
  | .conn_read, .try_read_network calls => if b.is_udp then none else (b.try_read_network calls).map conn_read
  | .conn_read, .try_read_udp res => if b.is_udp then some (conn_read (b.try_read_udp res)) else none
  | .conn_parse_cmd, .try_read_command p => b.try_read_command host p
  | .conn_new_cmd, .reset_cmd_handler realloc => some (b.reset_cmd_handler host realloc)
  | .conn_new_cmd, .conn_yield ok => some (if c.rbytes > 0 ∧ !ok then b.conn_set_state .conn_closing else b)
  | .conn_nread, .complete_nread a ITEM_data => if c.rlbytes = 0 then b.complete_nread host a ITEM_data else none
  | .conn_nread, .invalid_rlbytes => if c.rlbytes < 0 then some (b.conn_set_state .conn_closing) else none
  | .conn_nread, .leftovers =>
      if 0 < c.rlbytes ∧ !c.is_chunked ∧ 0 < c.rbytes then some (b.nread_leftovers (min c.rbytes c.rlbytes.toNat))
      else none
  | .conn_nread, .read (.data bytes) =>
      if 0 < c.rlbytes ∧ !c.is_chunked ∧ c.rbytes = 0 ∧ 0 < bytes.length ∧ (bytes.length : Int) ≤ c.rlbytes then
        some (b.nread_socket bytes)
      else none
  | .conn_nread, .read res =>
      if 0 < c.rlbytes ∧ !c.is_chunked ∧ c.rbytes = 0 then
        some { b with conn := c.nread_failed (match res with | .eagain => .eagain | _ => .eof) }
      else none
  | .conn_nread, .update_event false => some (b.conn_set_state .conn_closing)
  | .conn_nread, .read_into_chunked_item leftover direct res =>
      -- the function asserts that `ritem` is not `rcurr`, and turns to the socket when the buffer is empty
      if 0 < c.rlbytes ∧ c.is_chunked ∧ b.ritem ≠ b.rcurr ∧ leftover ≤ c.rbytes ∧ (direct ≠ [] → leftover = c.rbytes) ∧
          ((leftover + direct.length : Nat) : Int) ≤ c.rlbytes then
        some { b with rcurr := b.rcurr + leftover, conn := (c.fill (leftover + direct.length)).nread_failed res }
      else none
  | .conn_swallow, .swallowed => if c.sbytes ≤ 0 then some (b.conn_set_state .conn_new_cmd) else none
  | .conn_swallow, .leftovers =>
      let tocopy := min c.rbytes c.sbytes.toNat
      if 0 < c.sbytes ∧ 0 < c.rbytes then some { b with rcurr := b.rcurr + tocopy, conn := c.swallow tocopy } else none
  | .conn_swallow, .read (.data bytes) =>
      if 0 < c.sbytes ∧ c.rbytes = 0 ∧ 0 < bytes.length ∧ bytes.length ≤ min b.rsize c.sbytes.toNat then
        some { b with mem := Memory.write b.mem b.rbuf bytes, conn := c.swallow bytes.length }
      else none
  | .conn_swallow, .read .eagain => if 0 < c.sbytes ∧ c.rbytes = 0 then some b else none
  | .conn_swallow, .read _ => if 0 < c.sbytes ∧ c.rbytes = 0 then some (b.conn_set_state .conn_closing) else none
  | .conn_swallow, .update_event false => some (b.conn_set_state .conn_closing)
  | .conn_write, .transmit .COMPLETE => some (b.conn_set_state c.write_and_go)
  | .conn_mwrite, .transmit .COMPLETE =>
      some (b.conn_set_state (if c.protocol = .binary_prot then c.write_and_go else .conn_new_cmd))
  | .conn_write, .transmit .INCOMPLETE | .conn_mwrite, .transmit .INCOMPLETE => some b
  | .conn_write, .transmit .HARD_ERROR | .conn_mwrite, .transmit .HARD_ERROR =>
      some (b.conn_set_state (if b.is_udp then .conn_read else .conn_closing))
  | .conn_write, .transmit .failed | .conn_mwrite, .transmit .failed => some (b.conn_set_state .conn_closing)
  | .conn_closing, .conn_cleanup => if b.is_udp then some b.conn_cleanup else none
  | .conn_closing, .conn_new negotiating protocol => if b.is_udp then none else some (b.conn_new negotiating protocol)
  | _, _ => none

def Step (host : Host) (b : Input) (e : InputEvent) (b' : Input) : Prop := b.drive_machine host e = some b'

end Input

end Memcached.Thread

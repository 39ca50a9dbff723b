import Mathlib.Algebra.Order.Ring.Int

/-!
# Connections of thread/memcached.c

A connection reads one byte stream. `pos` is the place in the stream of the next byte the connection will look at
(`rcurr`), and `rbytes` of the bytes from there on are in the input buffer already. Output, statistics and logging
are left out; what other modules answer is an argument.
-/

namespace Memcached.Thread

/-- Conversion to `int`. -/
def c_int (x : Int) : Int := x.bmod (2 ^ 32)

theorem c_int_of_lt {k : Int} (h0 : 0 ≤ k) (h : k < 2 ^ 31) : c_int k = k := by simp only [c_int, Int.bmod]; omega

def KEY_MAX_LENGTH : Nat := 250
def MAX_SASL_MECH_LEN : Nat := 32
def INT_MAX : Int := 2 ^ 31 - 1

/-! ## Data -/

inductive Protocol
  | ascii_prot
  | binary_prot
  deriving DecidableEq

inductive ConnState
  | conn_new_cmd
  | conn_waiting
  | conn_read
  | conn_parse_cmd
  | conn_nread
  | conn_swallow
  | conn_write
  | conn_mwrite
  | conn_closing
  deriving DecidableEq

inductive BinSubstate
  | bin_no_state
  | bin_reading_set_header
  | bin_read_set_value
  | bin_reading_get_key
  | bin_reading_stat
  | bin_reading_del_header
  | bin_reading_incr_header
  | bin_read_flush_exptime
  | bin_reading_sasl_auth
  | bin_reading_sasl_auth_data
  | bin_reading_touch_key
  deriving DecidableEq

/-- The `NREAD_` commands. -/
inductive Comm
  | NREAD_ADD
  | NREAD_SET
  | NREAD_REPLACE
  | NREAD_APPEND
  | NREAD_PREPEND
  | NREAD_CAS
  deriving DecidableEq

/-- `c->cmd`: an opcode, and once the item is there, an `NREAD_` command; `none` is the `-1` between requests. -/
inductive Cmd
  | none
  | GET | SET | ADD | REPLACE | DELETE | INCREMENT | DECREMENT | QUIT | FLUSH | GETQ | NOOP | VERSION | GETK | GETKQ
  | APPEND | PREPEND | STAT | SETQ | ADDQ | REPLACEQ | DELETEQ | INCREMENTQ | DECREMENTQ | QUITQ | FLUSHQ | APPENDQ
  | PREPENDQ | TOUCH | GAT | GATQ | SASL_LIST_MECHS | SASL_AUTH | SASL_STEP | GATK | GATKQ
  | unknown (opcode : UInt8)
  | nread (comm : Comm)
  deriving DecidableEq

/-- `enum protocol_binary_command`. -/
def Cmd.of_opcode (opcode : UInt8) : Cmd :=
  match opcode.toNat with
  | 0x00 => .GET | 0x01 => .SET | 0x02 => .ADD | 0x03 => .REPLACE | 0x04 => .DELETE | 0x05 => .INCREMENT
  | 0x06 => .DECREMENT | 0x07 => .QUIT | 0x08 => .FLUSH | 0x09 => .GETQ | 0x0a => .NOOP | 0x0b => .VERSION
  | 0x0c => .GETK | 0x0d => .GETKQ | 0x0e => .APPEND | 0x0f => .PREPEND | 0x10 => .STAT | 0x11 => .SETQ
  | 0x12 => .ADDQ | 0x13 => .REPLACEQ | 0x14 => .DELETEQ | 0x15 => .INCREMENTQ | 0x16 => .DECREMENTQ
  | 0x17 => .QUITQ | 0x18 => .FLUSHQ | 0x19 => .APPENDQ | 0x1a => .PREPENDQ | 0x1c => .TOUCH | 0x1d => .GAT
  | 0x1e => .GATQ | 0x20 => .SASL_LIST_MECHS | 0x21 => .SASL_AUTH | 0x22 => .SASL_STEP | 0x23 => .GATK
  | 0x24 => .GATKQ | _ => .unknown opcode

/-- `protocol_binary_request_header`, in host order, without the fields no one reads here. -/
structure Header where
  magic : UInt8
  opcode : UInt8
  keylen : UInt16
  extlen : UInt8
  bodylen : UInt32
  deriving DecidableEq

def PROTOCOL_BINARY_REQ : UInt8 := 0x80

/-- The 24 bytes of a header start at `p`. -/
def Header.at_pos (stream : Nat → UInt8) (p : Nat) : Header where
  magic := stream p
  opcode := stream (p + 1)
  keylen := UInt16.ofNat ((stream (p + 2)).toNat * 256 + (stream (p + 3)).toNat)
  extlen := stream (p + 4)
  bodylen := UInt32.ofNat ((((stream (p + 8)).toNat * 256 + (stream (p + 9)).toNat) * 256 +
    (stream (p + 10)).toNat) * 256 + (stream (p + 11)).toNat)

/-- What the connection knows of the item it fills. -/
structure Item where
  nkey : Nat
  nbytes : Int
  chunked : Bool
  deriving DecidableEq

/-- The settings the protocol code reads. -/
structure Settings where
  sasl : Bool
  flush_enabled : Bool

structure Conn where
  protocol : Protocol
  state : ConnState
  write_and_go : ConnState
  substate : BinSubstate
  cmd : Cmd
  noreply : Bool
  authenticated : Bool
  /-- There is a `sasl_conn`. -/
  sasl_conn : Bool
  binary_header : Header
  pos : Nat
  rbytes : Nat
  rlbytes : Int
  sbytes : Int
  item : Option Item
  /-- The `nbytes` of each call of `item_alloc` for a value of the request. The code has no such field. -/
  value_allocs : List Int
  deriving DecidableEq

namespace Conn

/-! ## Responses -/

def write_bin_error (c : Conn) (swallow : Int) : Conn :=
  if swallow > 0 then { c with state := .conn_mwrite, sbytes := swallow, write_and_go := .conn_swallow }
  else { c with state := .conn_mwrite, write_and_go := .conn_new_cmd }

def write_bin_response (c : Conn) : Conn :=
  if !c.noreply ∨ c.cmd = .GET ∨ c.cmd = .GETK then { c with state := .conn_mwrite, write_and_go := .conn_new_cmd }
  else { c with state := .conn_new_cmd }

def out_string (c : Conn) : Conn :=
  if c.noreply then { c with noreply := false, state := .conn_new_cmd }
  else { c with state := .conn_write, write_and_go := .conn_new_cmd }

def out_of_memory (c : Conn) : Conn :=
  match c.protocol with
  | .binary_prot => c.write_bin_error 0
  | .ascii_prot => c.out_string

/-- `write_and_free` with a buffer. -/
def write_and_free (c : Conn) : Conn := { c with state := .conn_write, write_and_go := .conn_new_cmd }

end Conn

/-! ## What others answer -/

inductive StoreItem
  | NOT_STORED
  | STORED
  | EXISTS
  | NOT_FOUND
  | TOO_LARGE
  | NO_MEMORY
  deriving DecidableEq

inductive DeltaResult
  | OK
  | NON_NUMERIC
  | EOM
  | DELTA_ITEM_NOT_FOUND
  | DELTA_ITEM_CAS_MISMATCH
  deriving DecidableEq

inductive SaslResult
  | SASL_OK
  | SASL_CONTINUE
  | error
  deriving DecidableEq

/-- The answers a handler may ask for, and, of the request's bytes, those that decide how it goes on. -/
structure Answers where
  /-- `item_alloc` of the request's value: whether the item is chunked, if there is one. -/
  item_alloc : Option Bool
  item_size_ok : Bool
  store_item : StoreItem
  /-- `item_get` or `item_touch` found the key. -/
  found : Bool
  /-- The request's CAS is zero or the item's. -/
  cas_matches : Bool
  /-- The item carries the request's CAS, which is not zero. -/
  cas_set : Bool
  add_delta : DeltaResult
  /-- The request's expiration is not `0xffffffff`. -/
  incr_may_create : Bool
  /-- `item_alloc` of the initial value of a counter. -/
  incr_alloc : Bool
  /-- The value ends in CRLF. -/
  crlf : Bool
  /-- The statistics asked for exist and could be collected. -/
  stats_ok : Bool
  sasl : SaslResult
  /-- `realloc` of the input buffer, should the key not fit. -/
  realloc_ok : Bool
  sasl_server_new_ok : Bool
  sasl_listmech_ok : Bool
  /-- A kilobyte without a newline begins a large multiget. -/
  multiget : Bool
  deriving DecidableEq

/-- Everything goes well. -/
def Answers.good : Answers where
  item_alloc := some false
  item_size_ok := true
  store_item := .STORED
  found := true
  cas_matches := true
  cas_set := false
  add_delta := .OK
  incr_may_create := true
  incr_alloc := true
  crlf := true
  stats_ok := true
  sasl := .SASL_OK
  realloc_ok := true
  sasl_server_new_ok := true
  sasl_listmech_ok := true
  multiget := false

end Memcached.Thread

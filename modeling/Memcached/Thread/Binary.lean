import Mathlib.Algebra.Order.Ring.Int
import Memcached.Thread.Conn

/-!
# The binary protocol of thread/memcached.c

`dispatch_bin_command` checks the lengths of a header and has the extras and the key read; the handlers run when
these, or the value, are there.
-/

namespace Memcached.Thread.Conn

/-! ## Dispatch -/

/-- `bin_read_key`. `realloc_ok` is false if the buffer had to grow and could not. -/
def bin_read_key (c : Conn) (next_substate : BinSubstate) (extra : Nat) (realloc_ok : Bool) : Conn :=
  let c := { c with substate := next_substate, rlbytes := c.binary_header.keylen.toNat + extra }
  if realloc_ok then { c with state := .conn_nread } else { c with state := .conn_closing }

def handle_binary_protocol_error (c : Conn) : Conn := { c.write_bin_error 0 with write_and_go := .conn_closing }

/-- `bodylen - keylen`, as the `int` it is passed as. -/
def body_after_key (c : Conn) : Int := c_int ((c.binary_header.bodylen.toNat : Int) - c.binary_header.keylen.toNat)

def init_sasl_conn (settings : Settings) (c : Conn) (a : Answers) : Conn :=
  if !settings.sasl then c else { c with authenticated := false, sasl_conn := c.sasl_conn || a.sasl_server_new_ok }

def bin_list_sasl_mechs (settings : Settings) (c : Conn) (a : Answers) : Conn :=
  if !settings.sasl then c.write_bin_error c.body_after_key
  else
    let c := c.init_sasl_conn settings a
    if !a.sasl_listmech_ok then c.write_bin_error 0
    else c.write_bin_response

/-- `authenticated`. -/
def is_authenticated (c : Conn) : Bool :=
  match c.cmd with
  | .SASL_LIST_MECHS | .SASL_AUTH | .SASL_STEP | .VERSION => true
  | _ => c.authenticated

end Conn

/-- The first `switch` of `dispatch_bin_command`: a quiet command is run as its plain one, with `noreply`. -/
def Cmd.quiet : Cmd → Cmd × Bool
  | .SETQ => (.SET, true)
  | .ADDQ => (.ADD, true)
  | .REPLACEQ => (.REPLACE, true)
  | .DELETEQ => (.DELETE, true)
  | .INCREMENTQ => (.INCREMENT, true)
  | .DECREMENTQ => (.DECREMENT, true)
  | .QUITQ => (.QUIT, true)
  | .FLUSHQ => (.FLUSH, true)
  | .APPENDQ => (.APPEND, true)
  | .PREPENDQ => (.PREPEND, true)
  | .GETQ => (.GET, true)
  | .GETKQ => (.GETK, true)
  | .GATQ => (.GAT, true)
  | .GATKQ => (.GATK, true)
  | cmd => (cmd, false)

namespace Conn

/-- The second `switch` of `dispatch_bin_command`. -/
def dispatch_cmd (settings : Settings) (c : Conn) (a : Answers) : Conn :=
  let extlen := c.binary_header.extlen.toNat
  let keylen := c.binary_header.keylen.toNat
  let bodylen := c.binary_header.bodylen.toNat
  match c.cmd with
  | .VERSION =>
      if extlen = 0 ∧ keylen = 0 ∧ bodylen = 0 then c.write_bin_response else c.handle_binary_protocol_error
  | .FLUSH =>
      if keylen = 0 ∧ bodylen = extlen ∧ (extlen = 0 ∨ extlen = 4) then
        c.bin_read_key .bin_read_flush_exptime extlen a.realloc_ok
      else c.handle_binary_protocol_error
  | .NOOP =>
      if extlen = 0 ∧ keylen = 0 ∧ bodylen = 0 then c.write_bin_response else c.handle_binary_protocol_error
  | .SET | .ADD | .REPLACE =>
      if extlen = 0 ∧ keylen ≠ 0 ∧ bodylen ≥ keylen + 8 then c.bin_read_key .bin_reading_set_header 8 a.realloc_ok
      else c.handle_binary_protocol_error
  | .GETQ | .GET | .GETKQ | .GETK =>
      if extlen = 0 ∧ bodylen = keylen ∧ keylen > 0 then c.bin_read_key .bin_reading_get_key 0 a.realloc_ok
      else c.handle_binary_protocol_error
  | .DELETE =>
      if keylen > 0 ∧ extlen = 0 ∧ bodylen = keylen then c.bin_read_key .bin_reading_del_header extlen a.realloc_ok
      else c.handle_binary_protocol_error
  | .INCREMENT | .DECREMENT =>
      if keylen > 0 ∧ extlen = 20 ∧ bodylen = keylen + extlen then
        c.bin_read_key .bin_reading_incr_header 20 a.realloc_ok
      else c.handle_binary_protocol_error
  | .APPEND | .PREPEND =>
      if keylen > 0 ∧ extlen = 0 then c.bin_read_key .bin_reading_set_header 0 a.realloc_ok
      else c.handle_binary_protocol_error
  | .STAT =>
      if extlen = 0 then c.bin_read_key .bin_reading_stat 0 a.realloc_ok else c.handle_binary_protocol_error
  | .QUIT =>
      if keylen = 0 ∧ extlen = 0 ∧ bodylen = 0 then
        let c := { c.write_bin_response with write_and_go := .conn_closing }
        if c.noreply then { c with state := .conn_closing } else c
      else c.handle_binary_protocol_error
  | .SASL_LIST_MECHS =>
      if extlen = 0 ∧ keylen = 0 ∧ bodylen = 0 then c.bin_list_sasl_mechs settings a
      else c.handle_binary_protocol_error
  | .SASL_AUTH | .SASL_STEP =>
      if extlen = 0 ∧ keylen ≠ 0 then c.bin_read_key .bin_reading_sasl_auth 0 a.realloc_ok
      else c.handle_binary_protocol_error
  | .TOUCH | .GAT | .GATQ | .GATK | .GATKQ =>
      if extlen = 4 ∧ keylen ≠ 0 then c.bin_read_key .bin_reading_touch_key 4 a.realloc_ok
      else c.handle_binary_protocol_error
  | _ => c.write_bin_error (c_int bodylen)

def dispatch_bin_command (settings : Settings) (c : Conn) (a : Answers) : Conn :=
  let extlen := c.binary_header.extlen.toNat
  let keylen := c.binary_header.keylen.toNat
  let bodylen := c.binary_header.bodylen.toNat
  if keylen > bodylen ∨ keylen + extlen > bodylen then { c.write_bin_error 0 with write_and_go := .conn_closing }
  else if settings.sasl ∧ !c.is_authenticated then { c.write_bin_error 0 with write_and_go := .conn_closing }
  else if keylen > KEY_MAX_LENGTH then { c with noreply := true }.handle_binary_protocol_error
  else { c with cmd := c.cmd.quiet.1, noreply := c.cmd.quiet.2 }.dispatch_cmd settings a

/-! ## Handlers -/

/-- `item_alloc` of the request's value, `nbytes` long with its CRLF, and what follows when there is an item. -/
def alloc_value (c : Conn) (nbytes : Int) (chunked : Bool) : Conn :=
  { c with
    item := some { nkey := c.binary_header.keylen.toNat, nbytes := nbytes, chunked := chunked }
    state := .conn_nread }

def process_bin_update (c : Conn) (a : Answers) : Conn :=
  let vlen := c_int (c.binary_header.bodylen.toNat - (c.binary_header.keylen.toNat + c.binary_header.extlen.toNat : Int))
  let c := { c with value_allocs := c_int (vlen + 2) :: c.value_allocs }
  match a.item_alloc with
  | none =>
      let c := if !a.item_size_ok then c.write_bin_error vlen else { c.out_of_memory with sbytes := vlen }
      { c with write_and_go := .conn_swallow }
  | some chunked =>
      let cmd := match c.cmd with
        | .ADD => Cmd.nread .NREAD_ADD
        | .SET => .nread .NREAD_SET
        | .REPLACE => .nread .NREAD_REPLACE
        | cmd => cmd
      let cmd := if a.cas_set then .nread .NREAD_CAS else cmd
      { c.alloc_value (c_int (vlen + 2)) chunked with cmd := cmd, rlbytes := vlen, substate := .bin_read_set_value }

def process_bin_append_prepend (c : Conn) (a : Answers) : Conn :=
  let vlen := c.body_after_key
  let c := { c with value_allocs := c_int (vlen + 2) :: c.value_allocs }
  match a.item_alloc with
  | none =>
      let c := if !a.item_size_ok then c.write_bin_error vlen else { c.out_of_memory with sbytes := vlen }
      { c with write_and_go := .conn_swallow }
  | some chunked =>
      let cmd := match c.cmd with
        | .APPEND => Cmd.nread .NREAD_APPEND
        | .PREPEND => .nread .NREAD_PREPEND
        | cmd => cmd
      { c.alloc_value (c_int (vlen + 2)) chunked with cmd := cmd, rlbytes := vlen, substate := .bin_read_set_value }

def complete_update_bin (c : Conn) (a : Answers) : Conn :=
  let c := match a.store_item with
    | .STORED => c.write_bin_response
    | _ => c.write_bin_error 0
  { c with item := none }

/-- `process_bin_get_or_touch`, for an item in memory. -/
def process_bin_get_or_touch (c : Conn) (a : Answers) : Conn :=
  if a.found then { c with state := .conn_mwrite, write_and_go := .conn_new_cmd }
  else if c.noreply then { c with state := .conn_new_cmd }
  else if c.cmd = .GETK ∨ c.cmd = .GATK then { c with state := .conn_mwrite, write_and_go := .conn_new_cmd }
  else c.write_bin_error 0

def process_bin_stat (c : Conn) (a : Answers) : Conn := if a.stats_ok then c.write_and_free else c.write_bin_error 0

def process_bin_delete (c : Conn) (a : Answers) : Conn :=
  if a.found ∧ a.cas_matches then c.write_bin_response else c.write_bin_error 0

def complete_incr_bin (c : Conn) (a : Answers) : Conn :=
  match a.add_delta with
  | .OK => c.write_bin_response
  | .NON_NUMERIC | .DELTA_ITEM_CAS_MISMATCH => c.write_bin_error 0
  | .EOM => c.out_of_memory
  | .DELTA_ITEM_NOT_FOUND =>
      if !a.incr_may_create then c.write_bin_error 0
      else if !a.incr_alloc then c.out_of_memory
      -- any result but NOT_STORED counts as success
      else if a.store_item ≠ .NOT_STORED then c.write_bin_response else c.write_bin_error 0

def process_bin_flush (settings : Settings) (c : Conn) : Conn :=
  if !settings.flush_enabled then c.write_bin_error 0 else c.write_bin_response

def process_bin_sasl_auth (settings : Settings) (c : Conn) (a : Answers) : Conn :=
  let vlen := c.body_after_key
  if !settings.sasl then c.write_bin_error vlen
  else if c.binary_header.keylen.toNat > MAX_SASL_MECH_LEN then
    { c.write_bin_error vlen with write_and_go := .conn_swallow }
  else
    let c := { c with value_allocs := c_int (vlen + 2) :: c.value_allocs }
    match a.item_alloc with
    | some false =>
        { c.alloc_value (c_int (vlen + 2)) false with rlbytes := vlen, substate := .bin_reading_sasl_auth_data }
    | _ => { c.write_bin_error vlen with write_and_go := .conn_swallow }

def process_bin_complete_sasl_auth (settings : Settings) (c : Conn) (it : Item) (a : Answers) : Conn :=
  let c := c.init_sasl_conn settings a
  let vlen := c.body_after_key
  if c.binary_header.keylen.toNat > it.nkey then { c.write_bin_error vlen with write_and_go := .conn_swallow }
  else if vlen > it.nbytes then { c.write_bin_error vlen with write_and_go := .conn_swallow }
  else match a.sasl with
    | .SASL_OK => { c with authenticated := true }.write_bin_response
    | .SASL_CONTINUE => { c with state := .conn_mwrite, write_and_go := .conn_new_cmd }
    | .error => c.write_bin_error 0

/-- `complete_nread_binary`: `none` where the code fails an assertion or follows a null pointer. -/
def complete_nread_binary (settings : Settings) (c : Conn) (a : Answers) : Option Conn :=
  match c.substate with
  | .bin_reading_set_header =>
      if c.cmd = .APPEND ∨ c.cmd = .PREPEND then some (c.process_bin_append_prepend a)
      else some (c.process_bin_update a)
  | .bin_read_set_value => c.item.map fun _ => c.complete_update_bin a
  | .bin_reading_get_key | .bin_reading_touch_key => some (c.process_bin_get_or_touch a)
  | .bin_reading_stat => some (c.process_bin_stat a)
  | .bin_reading_del_header => some (c.process_bin_delete a)
  | .bin_reading_incr_header => some (c.complete_incr_bin a)
  | .bin_read_flush_exptime => some (c.process_bin_flush settings)
  | .bin_reading_sasl_auth => some (c.process_bin_sasl_auth settings a)
  | .bin_reading_sasl_auth_data => c.item.map fun it => c.process_bin_complete_sasl_auth settings it a
  | .bin_no_state => none

end Memcached.Thread.Conn

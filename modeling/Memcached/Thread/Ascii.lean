import Memcached.Thread.Conn

/-!
# The storage commands of the ASCII protocol of thread/memcached.c

A command line `set <key> <flags> <exptime> <bytes> [noreply]` is followed by a data block of `bytes` bytes and CRLF.
-/

namespace Memcached.Thread

def MAX_TOKENS : Nat := 8

/-- The number parsers of util.c: the value, or `none` for `false`. -/
structure Numbers where
  safe_strtoul : List UInt8 → Option UInt32
  safe_strtol : List UInt8 → Option Int32
  safe_strtoull : List UInt8 → Option UInt64

/-! ## Tokens -/

/-- The loop of `tokenize_command`: `room` tokens may follow, `cur` is the current one, backwards. -/
def tokenize_loop : Nat → List UInt8 → List UInt8 → List (List UInt8)
  | _, cur, [] => if cur = [] then [] else [cur.reverse]
  | room, cur, b :: rest =>
      if b = ' '.toUInt8 then
        if cur = [] then tokenize_loop room [] rest
        else if room = 1 then [cur.reverse]
        else cur.reverse :: tokenize_loop (room - 1) [] rest
      else tokenize_loop room (b :: cur) rest

/-- `tokenize_command`, without the terminal token: `ntokens` is one more than the length. -/
def tokenize_command (command : List UInt8) : List (List UInt8) :=
  tokenize_loop (MAX_TOKENS - 1) [] (command.takeWhile (· ≠ 0))

def c_string (s : String) : List UInt8 := s.toList.map Char.toUInt8

example : tokenize_command (c_string "set  a 0 0 1 noreply") =
    [c_string "set", c_string "a", c_string "0", c_string "0", c_string "1", c_string "noreply"] := by decide

/-- The storage commands `process_command` looks for, with their `handle_cas`. -/
def update_command (tokens : List (List UInt8)) : Option (Comm × Bool) :=
  let ntokens := tokens.length + 1
  let command := tokens.getD 0 []
  if ntokens = 6 ∨ ntokens = 7 then
    if command = c_string "add" then some (.NREAD_ADD, false)
    else if command = c_string "set" then some (.NREAD_SET, false)
    else if command = c_string "replace" then some (.NREAD_REPLACE, false)
    else if command = c_string "prepend" then some (.NREAD_PREPEND, false)
    else if command = c_string "append" then some (.NREAD_APPEND, false)
    else if ntokens = 7 ∧ command = c_string "cas" then some (.NREAD_CAS, true)
    else none
  else if ntokens = 8 ∧ command = c_string "cas" then some (.NREAD_CAS, true)
  else none

namespace Conn

/-! ## Commands -/

def set_noreply_maybe (c : Conn) (tokens : List (List UInt8)) : Conn :=
  if tokens.getLast? = some (c_string "noreply") then { c with noreply := true } else c

/-- The rest of `process_update_command`, from `item_alloc` on: the block of `vlen` bytes is read, or swallowed. -/
def read_block (c : Conn) (nkey : Nat) (vlen : Int) (comm : Comm) (a : Answers) : Conn :=
  let c := { c with value_allocs := vlen :: c.value_allocs }
  match a.item_alloc with
  | none =>
      let c := if !a.item_size_ok then c.out_string else c.out_of_memory
      { c with write_and_go := .conn_swallow, sbytes := vlen }
  | some chunked =>
      { c with
        item := some { nkey := nkey, nbytes := vlen, chunked := chunked }
        rlbytes := vlen
        cmd := .nread comm
        state := .conn_nread }

def process_update_command (numbers : Numbers) (c : Conn) (tokens : List (List UInt8)) (comm : Comm)
    (handle_cas : Bool) (a : Answers) : Conn :=
  let c := c.set_noreply_maybe tokens
  let nkey := (tokens.getD 1 []).length
  if nkey > KEY_MAX_LENGTH then c.out_string
  else match numbers.safe_strtoul (tokens.getD 2 []), numbers.safe_strtol (tokens.getD 3 []),
      numbers.safe_strtol (tokens.getD 4 []) with
    | some _, some _, some vlen =>
        if handle_cas ∧ (numbers.safe_strtoull (tokens.getD 5 [])).isNone then c.out_string
        else if vlen.toInt < 0 ∨ vlen.toInt > INT_MAX - 2 then c.out_string
        else c.read_block nkey (vlen.toInt + 2) comm a
    | _, _, _ => c.out_string

/-- `process_command`, for the storage commands. -/
def process_command (numbers : Numbers) (c : Conn) (command : List UInt8) (a : Answers) : Option Conn :=
  let tokens := tokenize_command command
  (update_command tokens).map fun (comm, handle_cas) => c.process_update_command numbers tokens comm handle_cas a

/-- `complete_nread_ascii`: `none` where the code fails an assertion or follows a null pointer. -/
def complete_nread_ascii (c : Conn) (a : Answers) : Option Conn :=
  match c.item with
  | none => none
  | some it =>
      if it.chunked ∧ !a.crlf then none
      else if !a.crlf then some { c.out_string with item := none }
      else match a.store_item with
        | .STORED | .EXISTS | .NOT_FOUND | .NOT_STORED => some { c.out_string with item := none }
        -- the last arm of the switch is a misspelled default: nothing is written
        | .TOO_LARGE | .NO_MEMORY => some { c with item := none }

end Conn

end Memcached.Thread

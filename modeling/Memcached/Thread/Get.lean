import Memcached.Thread.Ascii

/-!
# The get commands of thread/memcached.c

The command line is a buffer that ends in a NUL, and a token points into it. A line is tokenized in batches, in place.
Functions that are called here and are not in the repository (`limited_get`, `_ascii_get_expand_ilist`,
`_ascii_get_suffix_buf`, `_get_extstore`, `add_chunked_item_iovs`) are in the environment: what is stored, and whether
a call succeeds, in the order of the calls.
-/

namespace Memcached.Thread.Get

/-! ## Tokens -/

/-- `token_t`. -/
structure Token where
  value : Option Nat
  length : Nat
  deriving DecidableEq

def strlen (buf : List UInt8) (p : Nat) : Nat := ((buf.drop p).takeWhile (· ≠ 0)).length

/-- The loop of `tokenize_command`: the buffer, `s`, `e` and the tokens. The first argument is `len - i`. -/
def tokenize_loop (max_tokens : Nat) :
    Nat → List UInt8 → Nat → Nat → List Token → List UInt8 × Nat × Nat × List Token
  | 0, buf, s, e, tokens => (buf, s, e, tokens)
  | n + 1, buf, s, e, tokens =>
      if buf.getD e 0 = 32 then
        if s ≠ e then
          let tokens := tokens ++ [⟨some s, e - s⟩]
          let buf := buf.set e 0
          if tokens.length = max_tokens - 1 then (buf, e + 1, e + 1, tokens)
          else tokenize_loop max_tokens n buf (e + 1) (e + 1) tokens
        else tokenize_loop max_tokens n buf (e + 1) (e + 1) tokens
      else tokenize_loop max_tokens n buf s (e + 1) tokens

def tokenize_command (buf : List UInt8) (command max_tokens : Nat) : List UInt8 × List Token :=
  let (buf, s, e, tokens) := tokenize_loop max_tokens (strlen buf command) buf command command []
  let tokens := if s ≠ e then tokens ++ [⟨some s, e - s⟩] else tokens
  (buf, tokens ++ [⟨if buf.getD e 0 = 0 then none else some e, 0⟩])

/-- What a token points to. -/
def text (buf : List UInt8) (t : Token) : List UInt8 := (buf.drop (t.value.getD 0)).take t.length

/-! ## Items and responses -/

/-- What the command reads of an item. -/
structure GetItem where
  addr : Nat
  key : List UInt8
  /-- `ITEM_suffix`, `nsuffix` bytes. -/
  suffix : List UInt8
  /-- The `nbytes` bytes at `ITEM_data`. -/
  data : List UInt8
  /-- The data of an item of `ITEM_CHUNKED`. -/
  chunks : List (List UInt8)
  /-- The data of an item of `ITEM_HDR`, which is in external storage. -/
  stored : List UInt8
  chunked : Bool
  hdr : Bool
  deriving DecidableEq

structure Env where
  inline_ascii_response : Bool
  /-- The connection is UDP. -/
  udp : Bool
  /-- What is found under a key, and touched where an `exptime` is given. -/
  limited_get : List UInt8 → Option Int32 → Option GetItem
  safe_strtol : List UInt8 → Option Int32
  make_ascii_get_suffix : GetItem → Bool → List UInt8
  /-- Whether the call of this number succeeds, of those that may fail. -/
  ok : Nat → Bool

inductive Response
  /-- `out_string`, or `out_of_memory`. -/
  | error (message : String)
  /-- `conn_mwrite` -/
  | written
  deriving DecidableEq

/-- `gets`, `taken`, `removed`, `suffix_taken` and `suffix_freed` record what was looked up, referenced and given back. -/
structure GetConn where
  /-- `ilist`, up to `i`. -/
  ilist : List GetItem
  /-- `suffixlist`, up to `si`. -/
  suffixlist : List Nat
  io_wraplist : List GetItem
  ileft : Nat
  suffixleft : Nat
  iov : List (List UInt8)
  calls : Nat
  gets : List (List UInt8)
  taken : List GetItem
  removed : List GetItem
  suffix_taken : List Nat
  suffix_freed : List Nat
  deriving DecidableEq

namespace GetConn

variable (env : Env) (c : GetConn)

/-- A call that may fail. -/
def call : GetConn × Bool := ({ c with calls := c.calls + 1 }, env.ok c.calls)

def item_remove (it : GetItem) : GetConn := { c with removed := it :: c.removed }

def add_iov (bytes : List UInt8) : GetConn × Bool :=
  let (c, ok) := c.call env
  (if ok then { c with iov := c.iov ++ [bytes] } else c, ok)

/-- Calls of `add_iov` joined by `||`: the first that fails ends them. -/
def add_iovs : List (List UInt8) → GetConn → GetConn × Bool
  | [], c => (c, true)
  | b :: bs, c =>
      let (c, ok) := c.add_iov env b
      if ok then add_iovs bs c else (c, false)

def add_chunked_item_iovs (it : GetItem) : GetConn × Bool :=
  let (c, ok) := c.call env
  (if ok then { c with iov := c.iov ++ it.chunks } else c, ok)

/-- A new suffix buffer goes to the end of `suffixlist`. -/
def _ascii_get_suffix_buf : GetConn × Bool :=
  let (c, ok) := c.call env
  let suffix := c.suffix_taken.length
  (if ok then { c with suffixlist := c.suffixlist ++ [suffix], suffix_taken := suffix :: c.suffix_taken } else c, ok)

/-- The reference to the item goes to a new `io_wrap`, and the object will be read into an iovec. -/
def _get_extstore (it : GetItem) : GetConn × Bool :=
  let (c, ok) := c.call env
  (if ok then { c with iov := c.iov ++ [it.stored], io_wraplist := it :: c.io_wraplist } else c, ok)

/-- `return_cas || !settings.inline_ascii_response` -/
def with_suffix (return_cas : Bool) : Bool := return_cas || !env.inline_ascii_response

/-! ## One key -/

/-- The response for a hit whose suffix is made here. `false` where the item was given back. -/
def add_with_suffix (it : GetItem) (return_cas : Bool) : GetConn × Bool :=
  let (c, ok) := c._ascii_get_suffix_buf env
  if !ok then (c.item_remove it, false)
  else
    let inline := if env.inline_ascii_response then [it.suffix.take (it.suffix.length - 2)] else []
    let (c, ok) := add_iovs env
      ([c_string "VALUE" ++ [0], it.key] ++ inline ++ [env.make_ascii_get_suffix it return_cas]) c
    if !ok then (c.item_remove it, false)
    else if it.hdr then
      let (c, ok) := c._get_extstore env it
      if !ok then (c.item_remove it, false) else (c, true)
    else if !it.chunked then ((c.add_iov env it.data).1, true)
    else
      let (c, ok) := c.add_chunked_item_iovs env it
      if !ok then (c.item_remove it, false) else (c, true)

/-- The response for a hit that has its suffix. -/
def add_inline (it : GetItem) : GetConn × Bool :=
  let (c, ok) := add_iovs env [c_string "VALUE ", it.key] c
  if !ok then (c.item_remove it, false)
  else if !it.chunked then
    let (c, ok) := c.add_iov env (it.suffix ++ it.data)
    if !ok then (c.item_remove it, false) else (c, true)
  else
    let (c, ok) := c.add_iov env it.suffix
    if !ok then (c.item_remove it, false)
    else
      let (c, ok) := c.add_chunked_item_iovs env it
      if !ok then (c.item_remove it, false) else (c, true)

/-- A hit: `false` is a `break`. -/
def hit (it : GetItem) (return_cas : Bool) : GetConn × Bool :=
  -- `_ascii_get_expand_ilist`
  let (c, ok) := c.call env
  if !ok then (c.item_remove it, false)
  else
    let (c, ok) := if with_suffix env return_cas then c.add_with_suffix env it return_cas else c.add_inline env it
    if !ok then (c, false)
    else if !it.hdr then ({ c with ilist := c.ilist ++ [it] }, true)
    else (c, true)

/-- The references are given back before the error is written; of the suffixes, as many as there are items. -/
def too_long (return_cas : Bool) : GetConn :=
  { c with
    iov := [c_string "CLIENT_ERROR bad command line format\r\n"]
    removed := c.ilist ++ c.removed
    suffix_freed := (if with_suffix env return_cas then c.suffixlist.take c.ilist.length else []) ++ c.suffix_freed }

/-! ## The command -/

/-- How the inner loop ends. -/
inductive Walked
  | returned (c : GetConn)
  | stopped (c : GetConn) (key_token : Token)

/-- The inner loop, from `key_token` on. -/
def walk (return_cas : Bool) (exptime : Option Int32) (buf : List UInt8) : List Token → GetConn → Walked
  | [], c => .stopped c ⟨none, 0⟩
  | t :: tokens, c =>
      if t.length = 0 then .stopped c t
      else
        let key := text buf t
        if t.length > KEY_MAX_LENGTH then .returned (c.too_long env return_cas)
        else
          let c := { c with gets := c.gets ++ [key] }
          match env.limited_get key exptime with
          | none => walk return_cas exptime buf tokens c
          | some it =>
              match { c with taken := it :: c.taken }.hit env it return_cas with
              | (c, true) => walk return_cas exptime buf tokens c
              | (c, false) => .stopped c t

/-- What follows the loops, where `key_token->value` is null. -/
def finish (return_cas : Bool) : GetConn × Response :=
  let c := { c with ileft := c.ilist.length }
  let c := if with_suffix env return_cas then { c with suffixleft := c.suffixlist.length } else c
  let (c, ok) := c.add_iov env (c_string "END\r\n")
  -- `build_udp_headers`
  let (c, ok) := if ok ∧ env.udp then c.call env else (c, ok)
  if !ok then
    ({ c with iov := [c_string "SERVER_ERROR out of memory writing get response\r\n"] },
      .error "SERVER_ERROR out of memory writing get response")
  else (c, .written)

/-- The outer loop. The first argument bounds the rounds. -/
def get_loop (return_cas : Bool) (exptime : Option Int32) :
    Nat → List UInt8 → List Token → GetConn → Option (GetConn × Response)
  | 0, _, _, _ => none
  | n + 1, buf, tokens, c =>
      match c.walk env return_cas exptime buf tokens with
      | .returned c => some (c, .error "CLIENT_ERROR bad command line format")
      | .stopped c t =>
          match t.value with
          | none => some (c.finish env return_cas)
          | some p =>
              let (buf, tokens) := tokenize_command buf p MAX_TOKENS
              if tokens.head?.any (·.value.isNone) then some (c.finish env return_cas)
              else get_loop return_cas exptime n buf tokens c

/-- `process_get_command`, on the tokens of the command line. -/
def process_get_command (return_cas should_touch : Bool) (rounds : Nat) (buf : List UInt8) (tokens : List Token) :
    Option (GetConn × Response) :=
  if should_touch then
    match env.safe_strtol (text buf (tokens.getD 1 ⟨none, 0⟩)) with
    | none => some ({ c with iov := [c_string "CLIENT_ERROR invalid exptime argument\r\n"] },
        .error "CLIENT_ERROR invalid exptime argument")
    | some exptime => c.get_loop env return_cas (some exptime) rounds buf (tokens.drop 2)
  else c.get_loop env return_cas none rounds buf (tokens.drop 1)

/-- `conn_release_items`: the items of `ilist`, the suffixes and the wraps. -/
def conn_release_items : GetConn :=
  { c with
    removed := c.ilist.take c.ileft ++ c.io_wraplist ++ c.removed
    suffix_freed := c.suffixlist.take c.suffixleft ++ c.suffix_freed
    ileft := 0
    suffixleft := 0
    io_wraplist := [] }

/-- A connection that holds nothing. -/
def idle : GetConn where
  ilist := []
  suffixlist := []
  io_wraplist := []
  ileft := 0
  suffixleft := 0
  iov := []
  calls := 0
  gets := []
  taken := []
  removed := []
  suffix_taken := []
  suffix_freed := []

/-- `process_command` of a line whose command is one of the gets. -/
def process_command (return_cas should_touch : Bool) (rounds : Nat) (line : List UInt8) : Option (GetConn × Response) :=
  let (buf, tokens) := tokenize_command (line ++ [0]) 0 MAX_TOKENS
  idle.process_get_command env return_cas should_touch rounds buf tokens

end GetConn

end Memcached.Thread.Get

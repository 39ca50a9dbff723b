import Memcached.Thread.GetTheorems

/-!
# The response to a get command

A value is stored behind the text of its flags and its length, or behind its flags alone, as
`settings.inline_ascii_response` says; the response is meant to be the same.
-/

namespace Memcached.Thread.Get

open GetConn

/-! ## Layouts -/

/-- What is stored under a key. -/
structure Value where
  flags : UInt32
  cas : UInt64
  /-- The data block, with its `\r\n`. -/
  data : List UInt8
  /-- Its pieces, where it is chunked. -/
  chunks : Option (List (List UInt8))
  pieces : ∀ cs ∈ chunks, cs.flatten = data

namespace Value

variable (v : Value)

def flags_and_length : List UInt8 :=
  c_string " " ++ c_string (toString v.flags.toNat) ++ c_string " " ++ c_string (toString (v.data.length - 2))

def cas_text : List UInt8 := c_string " " ++ c_string (toString v.cas.toNat)

/-- The suffix of `item_make_header`. -/
def item_make_header (inline_ascii_response : Bool) : List UInt8 :=
  if inline_ascii_response then v.flags_and_length ++ c_string "\r\n"
  else if v.flags = 0 then []
  else (List.range 4).map fun i => (v.flags.toNat / 256 ^ i).toUInt8

def item (inline_ascii_response : Bool) (key : List UInt8) : GetItem where
  addr := 0
  key := key
  suffix := v.item_make_header inline_ascii_response
  data := if v.chunks.isSome then [] else v.data
  chunks := v.chunks.getD []
  stored := []
  chunked := v.chunks.isSome
  hdr := false

/-- The response for a hit, with `sep` behind `VALUE`. -/
def response (sep : UInt8) (return_cas : Bool) (key : List UInt8) : List UInt8 :=
  c_string "VALUE" ++ [sep] ++ key ++ v.flags_and_length ++ (if return_cas then v.cas_text else []) ++ c_string "\r\n" ++
    v.data

end Value

/-- The response to a list of keys. -/
def response (store : List UInt8 → Option Value) (sep : UInt8) (return_cas : Bool) (keys : List (List UInt8)) :
    List UInt8 :=
  (keys.flatMap fun key => ((store key).map (·.response sep return_cas key)).getD []) ++ c_string "END\r\n"

/-- The environment has what is stored, in one of the two layouts, and no call fails. -/
structure Serves (env : Env) (inline_ascii_response : Bool) (store : List UInt8 → Option Value) : Prop where
  inline : env.inline_ascii_response = inline_ascii_response
  found : ∀ key exptime, env.limited_get key exptime = (store key).map (·.item inline_ascii_response key)
  suffix : ∀ key v, store key = some v → ∀ return_cas,
    env.make_ascii_get_suffix (v.item inline_ascii_response key) return_cas =
      (if inline_ascii_response then [] else v.flags_and_length) ++ (if return_cas then v.cas_text else []) ++
        c_string "\r\n"
  ok : ∀ n, env.ok n = true

section
variable {env : Env} {inline_ascii_response return_cas : Bool} {store : List UInt8 → Option Value}
  {exptime : Option Int32} {c c' : GetConn} {key : List UInt8} {keys : List (List UInt8)} {v : Value}

/-! ## The bytes queued -/

theorem add_iovs_ok (hok : ∀ n, env.ok n = true) (pieces : List (List UInt8)) :
    add_iovs env pieces c = ({ c with iov := c.iov ++ pieces, calls := c.calls + pieces.length }, true) := by
  induction pieces generalizing c with
  | nil => simp [add_iovs]
  | cons bytes pieces ih =>
      simp only [add_iovs, add_iov, call, hok, if_true]
      rw [ih]
      simp [Nat.add_assoc, Nat.add_comm 1]

theorem add_with_suffix_iov (hok : ∀ n, env.ok n = true) {it : GetItem} (hhdr : it.hdr = false) :
    (c.add_with_suffix env it return_cas).1.iov = c.iov ++ [c_string "VALUE" ++ [0], it.key] ++
      (if env.inline_ascii_response then [it.suffix.take (it.suffix.length - 2)] else []) ++
      [env.make_ascii_get_suffix it return_cas] ++ (if it.chunked then it.chunks else [it.data]) ∧
      (c.add_with_suffix env it return_cas).2 = true := by
  simp only [add_with_suffix, _ascii_get_suffix_buf, call, hok, Bool.not_true, Bool.false_eq_true, if_false, if_true,
    add_iovs_ok hok, hhdr]
  cases hchunked : it.chunked <;> simp [add_iov, add_chunked_item_iovs, call, hok]

theorem add_inline_iov (hok : ∀ n, env.ok n = true) {it : GetItem} :
    (c.add_inline env it).1.iov = c.iov ++ [c_string "VALUE ", it.key] ++
      (if it.chunked then it.suffix :: it.chunks else [it.suffix ++ it.data]) ∧ (c.add_inline env it).2 = true := by
  simp only [add_inline, add_iovs_ok hok, Bool.not_true, Bool.false_eq_true, if_false]
  cases hchunked : it.chunked <;> simp [add_iov, add_chunked_item_iovs, call, hok]

theorem suffix_take (v : Value) : (v.item_make_header true).take ((v.item_make_header true).length - 2) =
    v.flags_and_length := by
  have hlen : (v.item_make_header true).length - 2 = v.flags_and_length.length := by
    simp [Value.item_make_header, c_string]
  rw [hlen, Value.item_make_header, if_pos rfl, List.take_left]

theorem Value.item_data (v : Value) : (if (v.item inline_ascii_response key).chunked
    then (v.item inline_ascii_response key).chunks else [(v.item inline_ascii_response key).data]).flatten = v.data := by
  have hpieces := v.pieces
  cases hchunks : v.chunks with
  | none => simp [item, hchunks]
  | some cs => simpa [item, hchunks] using hpieces cs hchunks

theorem hit_iov (h : Serves env inline_ascii_response store) (hkey : store key = some v) :
    (c.hit env (v.item inline_ascii_response key) return_cas).1.iov.flatten = c.iov.flatten ++
        v.response (if with_suffix env return_cas then 0 else 32) return_cas key ∧
      (c.hit env (v.item inline_ascii_response key) return_cas).2 = true := by
  have hdata := @Value.item_data inline_ascii_response key v
  have hhdr : (v.item inline_ascii_response key).hdr = false := rfl
  have hitem : (v.item inline_ascii_response key).key = key := rfl
  have hheader : (v.item inline_ascii_response key).suffix = v.item_make_header inline_ascii_response := rfl
  simp only [hit, call, h.ok, hhdr, Bool.not_true, Bool.not_false, Bool.false_eq_true, if_false, if_true]
  cases hsuffix : with_suffix env return_cas with
  | true =>
      obtain ⟨hiov, hok⟩ := @add_with_suffix_iov env return_cas { c with calls := c.calls + 1 } h.ok
        (v.item inline_ascii_response key) rfl
      simp only [if_true, hok, Bool.not_true, Bool.false_eq_true, if_false, and_true]
      rw [hiov, h.inline, h.suffix key v hkey, hitem, hheader]
      cases inline_ascii_response with
      | true => simp [suffix_take, hdata, Value.response]
      | false => simp [hdata, Value.response]
  | false =>
      obtain ⟨hiov, hok⟩ := @add_inline_iov env { c with calls := c.calls + 1 } h.ok (v.item inline_ascii_response key)
      rw [with_suffix, h.inline, Bool.or_eq_false_iff, Bool.not_eq_false'] at hsuffix
      obtain ⟨rfl, rfl⟩ := hsuffix
      have hvalue : c_string "VALUE " = c_string "VALUE" ++ [32] := by decide
      simp only [hok, Bool.not_true, Bool.false_eq_true, if_false, and_true]
      rw [hiov, hitem, hheader, Value.response, Value.item_make_header, if_pos rfl, hvalue]
      cases hchunked : (v.item true key).chunked <;> simp [hchunked] at hdata ⊢ <;> rw [hdata]

theorem visit_iov (h : Serves env inline_ascii_response store)
    (hvisit : c.visit env return_cas exptime keys = .passed c') : c'.iov.flatten ++ c_string "END\r\n" =
      c.iov.flatten ++ response store (if with_suffix env return_cas then 0 else 32) return_cas keys := by
  induction keys generalizing c with
  | nil =>
      cases hvisit
      simp [response]
  | cons key keys ih =>
      rw [visit] at hvisit
      split at hvisit
      · cases hvisit
      rw [h.found] at hvisit
      cases hkey : store key with
      | none =>
          rw [hkey] at hvisit
          rw [ih hvisit]
          simp [response, hkey]
      | some v =>
          rw [hkey] at hvisit
          obtain ⟨hiov, hok⟩ := @hit_iov env _ return_cas store { c with
            gets := c.gets ++ [key]
            taken := v.item inline_ascii_response key :: c.taken } key v h hkey
          dsimp only [Option.map_some] at hvisit
          generalize hit env _ _ return_cas = r at hvisit hiov hok
          obtain ⟨c₁, _ | _⟩ := r
          · cases hok
          · rw [ih hvisit, hiov]
            simp [response, hkey]

theorem response_sep : response store 0 return_cas keys = response store 32 return_cas keys ↔
    ∀ key ∈ keys, store key = none := by
  induction keys with
  | nil => simp [response]
  | cons key keys ih =>
      cases hkey : store key with
      | none =>
          have hcons (sep : UInt8) : response store sep return_cas (key :: keys) = response store sep return_cas keys := by
            simp [response, hkey]
          rw [hcons, hcons, ih]
          simp [hkey]
      | some v =>
          refine iff_of_false (fun h => ?_) fun h => nomatch hkey.symm.trans (h key List.mem_cons_self)
          have hsixth := congrArg (fun l => l[5]?) h
          simp [response, hkey, Value.response, c_string] at hsixth

theorem finish_iov (h : Serves env inline_ascii_response store)
    (hvisit : idle.visit env return_cas exptime keys = .passed c) : (c.finish env return_cas).1.iov.flatten =
      response store (if with_suffix env return_cas then 0 else 32) return_cas keys := by
  obtain ⟨-, hiov, -⟩ := @finish_written env return_cas c fun n _ => h.ok n
  rw [hiov, List.flatten_append, List.flatten_singleton, visit_iov h hvisit]
  rfl

end

theorem response_same_iff {env_on env_off : Env} {return_cas : Bool} {store : List UInt8 → Option Value}
    {line : List UInt8} (hon : Serves env_on true store) (hoff : Serves env_off false store) (hline : 0 ∉ line)
    (hkeys : command_keys false line ≠ []) (hshort : ∀ key ∈ command_keys false line, key.length ≤ KEY_MAX_LENGTH) :
    ∃ n c_on c_off,
      (∀ rounds, n ≤ rounds → process_command env_on return_cas false rounds line = some (c_on, .written)) ∧
      (∀ rounds, n ≤ rounds → process_command env_off return_cas false rounds line = some (c_off, .written)) ∧
      (c_on.iov.flatten = response store 32 return_cas (command_keys false line) ∧
        c_off.iov.flatten = response store 32 return_cas (command_keys false line) ↔
        ∀ key ∈ command_keys false line, store key = none) := by
  obtain ⟨n, c, hvisit, hn⟩ := @process_command_passed env_on return_cas _ _ _ hline hkeys rfl hon.ok hshort
  obtain ⟨n', c', hvisit', hn'⟩ := @process_command_passed env_off return_cas _ _ _ hline hkeys rfl hoff.ok hshort
  refine ⟨max n n', _, _, fun rounds hle => hn rounds (Nat.le_trans (Nat.le_max_left ..) hle),
    fun rounds hle => hn' rounds (Nat.le_trans (Nat.le_max_right ..) hle), ?_⟩
  have hsuffix : with_suffix env_off return_cas = true := by
    rw [with_suffix, hoff.inline, Bool.not_false, Bool.or_true]
  rw [finish_iov hon hvisit, finish_iov hoff hvisit', hsuffix, if_pos rfl, response_sep]
  constructor
  · exact fun h => h.2
  · intro h
    refine ⟨?_, h⟩
    split
    · exact response_sep.mpr h
    · rfl

/-- An environment that has what is stored. -/
def serving (inline_ascii_response : Bool) (store : List UInt8 → Option Value) : Env where
  inline_ascii_response := inline_ascii_response
  udp := false
  limited_get := fun key _ => (store key).map (·.item inline_ascii_response key)
  safe_strtol := fun _ => none
  make_ascii_get_suffix := fun it return_cas => ((store it.key).map fun v =>
    (if inline_ascii_response then [] else v.flags_and_length) ++ (if return_cas then v.cas_text else []) ++
      c_string "\r\n").getD []
  ok := fun _ => true

theorem serving_serves {inline_ascii_response : Bool} {store : List UInt8 → Option Value} :
    Serves (serving inline_ascii_response store) inline_ascii_response store where
  inline := rfl
  found _ _ := rfl
  suffix key v h return_cas := by simp [serving, Value.item, h]
  ok _ := rfl

/-- One value, under the key `a`. -/
def one (key : List UInt8) : Option Value :=
  if key = c_string "a" then some ⟨0, 1, c_string "x\r\n", none, by simp⟩ else none

theorem response_same_iff_witness : ∃ n c_on c_off,
    (∀ rounds, n ≤ rounds → process_command (serving true one) false false rounds (c_string "get b") =
      some (c_on, .written)) ∧
    (∀ rounds, n ≤ rounds → process_command (serving false one) false false rounds (c_string "get b") =
      some (c_off, .written)) ∧
    (c_on.iov.flatten = response one 32 false (command_keys false (c_string "get b")) ∧
      c_off.iov.flatten = response one 32 false (command_keys false (c_string "get b")) ↔
      ∀ key ∈ command_keys false (c_string "get b"), one key = none) :=
  response_same_iff serving_serves serving_serves (by decide) (by decide) (by decide)

theorem value_without_space : ∃ c,
    process_command (serving false one) false false 2 (c_string "get a") = some (c, .written) ∧
      c.iov.flatten = c_string "VALUE" ++ [0] ++ c_string "a 0 1\r\nx\r\nEND\r\n" ∧
      response one 32 false (command_keys false (c_string "get a")) = c_string "VALUE a 0 1\r\nx\r\nEND\r\n" :=
  ⟨_, rfl, by decide, by decide⟩

end Memcached.Thread.Get

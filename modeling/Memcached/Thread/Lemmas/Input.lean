import Memcached.Lib.Reader
import Memcached.Thread.Input

/-!
# The input buffer, one function at a time

The bytes that have not been looked at stay the same wherever they are moved to, and `rcurr` and `ritem` point to where the
next bytes are and go. A request leaves the connection to answer, to read more of it, or to read the next.
-/

namespace Memcached.Thread

open Transition

namespace Conn

variable {c : Conn} {settings : Settings} {numbers : Numbers} {a : Answers} {n : Int}

/-! ## How a request goes on -/

/-- Where the connection turns when a response is written. -/
def Goes (c : Conn) : Prop :=
  c.write_and_go = .conn_new_cmd ∨ c.write_and_go = .conn_swallow ∨ c.write_and_go = .conn_closing

/-- Nothing of a request is to be read. -/
def Answering (c : Conn) : Prop :=
  c.state = .conn_new_cmd ∨ c.state = .conn_swallow ∨ c.state = .conn_write ∨ c.state = .conn_mwrite ∨ c.state = .conn_closing

/-- The same bytes are unread. -/
def Still (c c' : Conn) : Prop := c'.pos = c.pos ∧ c'.rbytes = c.rbytes

/-- A response is on its way, or there is none. -/
structure Settled (c c' : Conn) : Prop where
  answering : c'.Answering
  goes : c'.Goes
  still : Still c c'

/-- The extras and the key of a request are to be read. -/
structure Reading (c c' : Conn) : Prop where
  state : c'.state = .conn_nread
  item : c'.item = c.item
  protocol : c'.protocol = c.protocol
  goes : c'.Goes
  still : Still c c'

/-- A value is to be read. -/
structure Filling (c c' : Conn) : Prop where
  state : c'.state = .conn_nread
  item : c'.item.isSome
  goes : c'.Goes
  still : Still c c'

theorem Still.refl : Still c c := ⟨rfl, rfl⟩

theorem Still.trans {c₁ c' : Conn} (h : Still c c₁) (h' : Still c₁ c') : Still c c' := ⟨h'.1.trans h.1, h'.2.trans h.2⟩

theorem write_bin_error_settled : Settled c (c.write_bin_error n) := by
  unfold write_bin_error
  split <;> exact ⟨by simp [Answering], by simp [Goes], .refl⟩

theorem handle_binary_protocol_error_settled : Settled c c.handle_binary_protocol_error :=
  have h : Settled c (c.write_bin_error 0) := write_bin_error_settled
  ⟨h.answering, .inr (.inr rfl), h.still⟩

theorem write_bin_response_settled (h : c.Goes) : Settled c c.write_bin_response := by
  unfold write_bin_response
  split
  · exact ⟨by simp [Answering], .inl rfl, .refl⟩
  · exact ⟨by simp [Answering], h, .refl⟩

theorem out_string_settled (h : c.Goes) : Settled c c.out_string := by
  unfold out_string
  split
  · exact ⟨by simp [Answering], h, .refl⟩
  · exact ⟨by simp [Answering], .inl rfl, .refl⟩

theorem out_of_memory_settled (h : c.Goes) : Settled c c.out_of_memory := by
  unfold out_of_memory
  cases c.protocol with
  | binary_prot => exact write_bin_error_settled
  | ascii_prot => exact out_string_settled h

theorem write_and_free_settled : Settled c c.write_and_free := ⟨.inr (.inr (.inl rfl)), .inl rfl, .refl⟩

/-- A refusal that swallows what follows. -/
theorem Settled.swallow {c' : Conn} (h : Settled c c') (sbytes : Int) :
    Settled c { c' with sbytes := sbytes, write_and_go := .conn_swallow } :=
  ⟨h.answering, .inr (.inl rfl), h.still⟩

theorem bin_read_key_reading (h : c.Goes) {sub : BinSubstate} {extra : Nat} {ok : Bool} :
    Settled c (c.bin_read_key sub extra ok) ∨ Reading c (c.bin_read_key sub extra ok) := by
  unfold bin_read_key
  split
  · exact .inr ⟨rfl, rfl, rfl, h, .refl⟩
  · exact .inl ⟨by simp [Answering], h, .refl⟩

theorem init_sasl_conn_still : Still c (c.init_sasl_conn settings a) ∧ (c.Goes → (c.init_sasl_conn settings a).Goes) := by
  unfold init_sasl_conn
  split <;> exact ⟨.refl, id⟩

theorem bin_list_sasl_mechs_settled (h : c.Goes) : Settled c (c.bin_list_sasl_mechs settings a) := by
  obtain ⟨hstill, hgoes⟩ := @init_sasl_conn_still c settings a
  simp only [bin_list_sasl_mechs]
  repeat' split
  · exact write_bin_error_settled
  · have hsettled : Settled (c.init_sasl_conn settings a) ((c.init_sasl_conn settings a).write_bin_error 0) :=
      write_bin_error_settled
    exact ⟨hsettled.answering, hsettled.goes, hstill.trans hsettled.still⟩
  · have hsettled := write_bin_response_settled (hgoes h)
    exact ⟨hsettled.answering, hsettled.goes, hstill.trans hsettled.still⟩

theorem dispatch_cmd_reading (h : c.Goes) :
    Settled c (c.dispatch_cmd settings a) ∨ Reading c (c.dispatch_cmd settings a) := by
  unfold dispatch_cmd
  cases c.cmd <;> dsimp only
  case VERSION | NOOP =>
    split
    · exact .inl (write_bin_response_settled h)
    · exact .inl handle_binary_protocol_error_settled
  case SASL_LIST_MECHS =>
    split
    · exact .inl (bin_list_sasl_mechs_settled h)
    · exact .inl handle_binary_protocol_error_settled
  case QUIT =>
    have hresponse := write_bin_response_settled h
    split
    · split
      · exact .inl ⟨by simp [Answering], .inr (.inr rfl), hresponse.still⟩
      · exact .inl ⟨hresponse.answering, .inr (.inr rfl), hresponse.still⟩
    · exact .inl handle_binary_protocol_error_settled
  case FLUSH | GET | GETQ | GETK | GETKQ | DELETE | INCREMENT | DECREMENT | STAT | TOUCH | GAT | GATQ | GATK | GATKQ | SET |
      ADD | REPLACE | APPEND | PREPEND | SASL_AUTH | SASL_STEP =>
    split
    · exact bin_read_key_reading h
    · exact .inl handle_binary_protocol_error_settled
  all_goals exact .inl write_bin_error_settled

theorem dispatch_bin_command_reading (h : c.Goes) :
    Settled c (c.dispatch_bin_command settings a) ∨ Reading c (c.dispatch_bin_command settings a) := by
  have herror : Settled c (c.write_bin_error 0) := write_bin_error_settled
  simp only [dispatch_bin_command]
  repeat' split
  · exact .inl ⟨herror.answering, .inr (.inr rfl), herror.still⟩
  · exact .inl ⟨herror.answering, .inr (.inr rfl), herror.still⟩
  · have hquiet : Settled { c with noreply := true } ({ c with noreply := true } : Conn).handle_binary_protocol_error :=
      handle_binary_protocol_error_settled
    exact .inl ⟨hquiet.answering, hquiet.goes, hquiet.still⟩
  · have hgoes : ({ c with cmd := c.cmd.quiet.1, noreply := c.cmd.quiet.2 } : Conn).Goes := h
    rcases dispatch_cmd_reading hgoes with hsettled | hreading
    · exact .inl ⟨hsettled.answering, hsettled.goes, hsettled.still⟩
    · exact .inr ⟨hreading.state, hreading.item, hreading.protocol, hreading.goes, hreading.still⟩

theorem read_block_filling (h : c.Goes) (nkey : Nat) (vlen : Int) (comm : Comm) :
    Settled c (c.read_block nkey vlen comm a) ∨ Filling c (c.read_block nkey vlen comm a) := by
  have hgoes : ({ c with value_allocs := vlen :: c.value_allocs } : Conn).Goes := h
  simp only [read_block]
  cases a.item_alloc with
  | some chunked => exact .inr ⟨rfl, rfl, h, .refl⟩
  | none =>
      left
      dsimp only
      split
      · have hsettled := (out_string_settled hgoes).swallow vlen
        exact ⟨hsettled.answering, hsettled.goes, hsettled.still⟩
      · have hsettled := (out_of_memory_settled hgoes).swallow vlen
        exact ⟨hsettled.answering, hsettled.goes, hsettled.still⟩

theorem process_command_filling (h : c.Goes) {command : List UInt8} {c' : Conn}
    (hcommand : c.process_command numbers command a = some c') : Settled c c' ∨ Filling c c' := by
  obtain ⟨⟨comm, handle_cas⟩, -, rfl⟩ := Option.map_eq_some_iff.mp hcommand
  have hmaybe : Still c (c.set_noreply_maybe (tokenize_command command)) ∧
      (c.set_noreply_maybe (tokenize_command command)).Goes := by
    unfold set_noreply_maybe
    split <;> exact ⟨.refl, h⟩
  obtain ⟨hstill, hgoes⟩ := hmaybe
  have hout := out_string_settled hgoes
  have hrefused : Settled c (c.set_noreply_maybe (tokenize_command command)).out_string :=
    ⟨hout.answering, hout.goes, hstill.trans hout.still⟩
  simp only [process_update_command]
  split
  · exact .inl hrefused
  split
  · split
    · exact .inl hrefused
    split
    · exact .inl hrefused
    · rcases read_block_filling hgoes _ _ _ with hsettled | hfilling
      · exact .inl ⟨hsettled.answering, hsettled.goes, hstill.trans hsettled.still⟩
      · exact .inr ⟨hfilling.state, hfilling.item, hfilling.goes, hstill.trans hfilling.still⟩
  · exact .inl hrefused

theorem process_reply_settled (h : c.Goes) (reply : Reply) : Settled c (Input.process_reply c reply) := by
  cases reply with
  | out_string noreply =>
      have hgoes : ({ c with noreply := c.noreply || noreply } : Conn).Goes := h
      have hsettled := out_string_settled hgoes
      exact ⟨hsettled.answering, hsettled.goes, hsettled.still⟩
  | write_and_free => exact write_and_free_settled
  | conn_mwrite | conn_closing | conn_watch => exact ⟨by simp [Input.process_reply, Answering], h, .refl⟩

/-! ## Bodies -/

/-- No item for a value: the request is refused, and the value swallowed. -/
theorem refused_settled (h : c.Goes) (vlen m : Int) (size_ok : Bool) :
    Settled c { (if !size_ok then ({ c with value_allocs := m :: c.value_allocs } : Conn).write_bin_error vlen
      else { ({ c with value_allocs := m :: c.value_allocs } : Conn).out_of_memory with sbytes := vlen }) with
        write_and_go := .conn_swallow } := by
  have hgoes : ({ c with value_allocs := m :: c.value_allocs } : Conn).Goes := h
  have hmemory := out_of_memory_settled hgoes
  have herror : Settled { c with value_allocs := m :: c.value_allocs }
    (({ c with value_allocs := m :: c.value_allocs } : Conn).write_bin_error vlen) := write_bin_error_settled
  split
  · exact ⟨herror.answering, .inr (.inl rfl), herror.still⟩
  · exact ⟨hmemory.answering, .inr (.inl rfl), hmemory.still⟩

theorem process_bin_update_filling (h : c.Goes) : Settled c (c.process_bin_update a) ∨ Filling c (c.process_bin_update a) := by
  simp only [process_bin_update]
  cases a.item_alloc with
  | some chunked => exact .inr ⟨rfl, rfl, h, .refl⟩
  | none => exact .inl (refused_settled h _ _ _)

theorem process_bin_append_prepend_filling (h : c.Goes) :
    Settled c (c.process_bin_append_prepend a) ∨ Filling c (c.process_bin_append_prepend a) := by
  simp only [process_bin_append_prepend]
  cases a.item_alloc with
  | some chunked => exact .inr ⟨rfl, rfl, h, .refl⟩
  | none => exact .inl (refused_settled h _ _ _)

theorem process_bin_sasl_auth_filling (h : c.Goes) :
    Settled c (c.process_bin_sasl_auth settings a) ∨ Filling c (c.process_bin_sasl_auth settings a) := by
  have herror (m : Int) : Settled c { c.write_bin_error m with write_and_go := .conn_swallow } :=
    have herror : Settled c (c.write_bin_error m) := write_bin_error_settled
    ⟨herror.answering, .inr (.inl rfl), herror.still⟩
  simp only [process_bin_sasl_auth]
  split
  · exact .inl write_bin_error_settled
  split
  · exact .inl (herror _)
  split
  · exact .inr ⟨rfl, rfl, h, .refl⟩
  · have hnoted (m k : Int) : Settled c { ({ c with value_allocs := k :: c.value_allocs } : Conn).write_bin_error m with
        write_and_go := .conn_swallow } := by
      have herror : Settled { c with value_allocs := k :: c.value_allocs }
        (({ c with value_allocs := k :: c.value_allocs } : Conn).write_bin_error m) := write_bin_error_settled
      exact ⟨herror.answering, .inr (.inl rfl), herror.still⟩
    exact .inl (hnoted _ _)

theorem process_bin_complete_sasl_auth_settled (h : c.Goes) {it : Item} :
    Settled c (c.process_bin_complete_sasl_auth settings it a) := by
  obtain ⟨hstill, hgoes⟩ := @init_sasl_conn_still c settings a
  simp only [process_bin_complete_sasl_auth]
  generalize c.init_sasl_conn settings a = c₁ at *
  have hgoes := hgoes h
  have herror (m : Int) : Settled c₁ (c₁.write_bin_error m) := write_bin_error_settled
  split
  · exact ⟨(herror _).answering, .inr (.inl rfl), hstill.trans (herror _).still⟩
  split
  · exact ⟨(herror _).answering, .inr (.inl rfl), hstill.trans (herror _).still⟩
  cases a.sasl with
  | SASL_OK =>
      have hgoes' : ({ c₁ with authenticated := true } : Conn).Goes := hgoes
      have hresponse := write_bin_response_settled hgoes'
      exact ⟨hresponse.answering, hresponse.goes, hstill.trans hresponse.still⟩
  | SASL_CONTINUE => exact ⟨by simp [Answering], .inl rfl, hstill⟩
  | error => exact ⟨(herror 0).answering, (herror 0).goes, hstill.trans (herror 0).still⟩

theorem process_bin_get_or_touch_settled (h : c.Goes) : Settled c (c.process_bin_get_or_touch a) := by
  unfold process_bin_get_or_touch
  repeat' split
  · exact ⟨by simp [Answering], .inl rfl, .refl⟩
  · exact ⟨by simp [Answering], h, .refl⟩
  · exact ⟨by simp [Answering], .inl rfl, .refl⟩
  · exact write_bin_error_settled

theorem complete_incr_bin_settled (h : c.Goes) : Settled c (c.complete_incr_bin a) := by
  unfold complete_incr_bin
  cases a.add_delta with
  | OK => exact write_bin_response_settled h
  | NON_NUMERIC | DELTA_ITEM_CAS_MISMATCH => exact write_bin_error_settled
  | EOM => exact out_of_memory_settled h
  | DELTA_ITEM_NOT_FOUND =>
      dsimp only
      repeat' split
      · exact write_bin_error_settled
      · exact out_of_memory_settled h
      · exact write_bin_response_settled h
      · exact write_bin_error_settled

theorem complete_update_bin_settled (h : c.Goes) : Settled c (c.complete_update_bin a) := by
  have herror : Settled c (c.write_bin_error 0) := write_bin_error_settled
  have hresponse := write_bin_response_settled h
  simp only [complete_update_bin]
  split
  · exact ⟨hresponse.answering, hresponse.goes, hresponse.still⟩
  · exact ⟨herror.answering, herror.goes, herror.still⟩

theorem complete_nread_binary_filling (h : c.Goes) {c' : Conn} (hcomplete : c.complete_nread_binary settings a = some c') :
    Settled c c' ∨ Filling c c' := by
  unfold complete_nread_binary at hcomplete
  cases hsub : c.substate <;> simp only [hsub, Option.some.injEq, reduceCtorEq, Option.map_eq_some_iff] at hcomplete
  case bin_reading_set_header =>
    split at hcomplete
    · cases hcomplete
      exact process_bin_append_prepend_filling h
    · cases hcomplete
      exact process_bin_update_filling h
  case bin_read_set_value =>
    obtain ⟨it, -, rfl⟩ := hcomplete
    exact .inl (complete_update_bin_settled h)
  case bin_reading_get_key | bin_reading_touch_key =>
    subst hcomplete
    exact .inl (process_bin_get_or_touch_settled h)
  case bin_reading_stat =>
    subst hcomplete
    unfold process_bin_stat
    split
    · exact .inl write_and_free_settled
    · exact .inl write_bin_error_settled
  case bin_reading_del_header =>
    subst hcomplete
    unfold process_bin_delete
    split
    · exact .inl (write_bin_response_settled h)
    · exact .inl write_bin_error_settled
  case bin_reading_incr_header =>
    subst hcomplete
    exact .inl (complete_incr_bin_settled h)
  case bin_read_flush_exptime =>
    subst hcomplete
    unfold process_bin_flush
    split
    · exact .inl write_bin_error_settled
    · exact .inl (write_bin_response_settled h)
  case bin_reading_sasl_auth =>
    subst hcomplete
    exact process_bin_sasl_auth_filling h
  case bin_reading_sasl_auth_data =>
    obtain ⟨it, -, rfl⟩ := hcomplete
    exact .inl (process_bin_complete_sasl_auth_settled h)

/-- In the last arm of the switch nothing is written, and the connection stays as it is without its item. -/
theorem complete_nread_ascii_settled (h : c.Goes) {c' : Conn} (hcomplete : c.complete_nread_ascii a = some c') :
    Settled c c' ∨ c' = { c with item := none } := by
  unfold complete_nread_ascii at hcomplete
  cases hit : c.item with
  | none => simp [hit] at hcomplete
  | some it =>
      simp only [hit] at hcomplete
      split at hcomplete
      · cases hcomplete
      have hsettled := out_string_settled h
      split at hcomplete
      · cases hcomplete
        exact .inl ⟨hsettled.answering, hsettled.goes, hsettled.still⟩
      cases hstore : a.store_item <;> simp only [hstore, Option.some.injEq] at hcomplete
      case TOO_LARGE | NO_MEMORY => exact .inr hcomplete.symm
      all_goals
        subst hcomplete
        exact .inl ⟨hsettled.answering, hsettled.goes, hsettled.still⟩

end Conn

deriving instance DecidableEq for Received, NetworkCall

/-- The bytes that come from the socket. -/
def NetworkCall.got : NetworkCall → List UInt8
  | .read (.data bytes) => bytes
  | _ => []

/-- The bytes that come from the socket in a step. -/
def InputEvent.got : InputEvent → List UInt8
  | .try_read_network calls => calls.flatMap NetworkCall.got
  | .read (.data bytes) => bytes
  | .read_into_chunked_item _ direct _ => direct
  | _ => []

namespace Input

variable {b b' : Input} {host : Host} {d nsize newm : Nat}

/-! ## The buffer, moved -/

/-- What is unread lies in the buffer. -/
structure Bounded (b : Input) : Prop where
  rsize_pos : 0 < b.rsize
  rbuf_le : b.rbuf ≤ b.rcurr
  fits : b.rcurr + b.conn.rbytes ≤ b.rbuf + b.rsize

/-- The buffer may be another one, and what is unread is the same. -/
structure Rehoused (b b' : Input) : Prop where
  conn : b'.conn = b.conn
  is_udp : b'.is_udp = b.is_udp
  unread : b'.unread = b.unread
  bounded : b'.Bounded

theorem Rehoused.refl (h : b.Bounded) : Rehoused b b := ⟨rfl, rfl, rfl, h⟩

theorem Rehoused.trans {b'' : Input} (h : Rehoused b b') (h' : Rehoused b' b'') : Rehoused b b'' :=
  ⟨h'.conn.trans h.conn, h'.is_udp.trans h.is_udp, h'.unread.trans h.unread, h'.bounded⟩

@[simp] theorem pack_rbuf : b.pack.rbuf = b.rbuf := by unfold pack; split <;> rfl

@[simp] theorem pack_rsize : b.pack.rsize = b.rsize := by unfold pack; split <;> rfl

@[simp] theorem pack_conn : b.pack.conn = b.conn := by unfold pack; split <;> rfl

@[simp] theorem pack_rcurr : b.pack.rcurr = b.rbuf := by
  unfold pack
  split
  · assumption
  · rfl

theorem pack_rehoused (h : b.Bounded) : Rehoused b b.pack := by
  have hle := h.rbuf_le
  have hfits := h.fits
  have hbounded : b.pack.Bounded := ⟨by simpa using h.rsize_pos, by simp, by simp; omega⟩
  unfold pack at hbounded ⊢
  split at hbounded
  · next hsame => rw [if_pos hsame]; exact .refl hbounded
  · next hne =>
    rw [if_neg hne]
    exact ⟨rfl, rfl, Memory.read_move_self (Nat.le_refl _), hbounded⟩

/-- `rcurr` is as far from the start as before. -/
theorem realloc_rehoused (h : b.Bounded) (hd : b.rcurr = b.rbuf + d) (hpos : 0 < nsize) (hfits : d + b.conn.rbytes ≤ nsize) :
    Rehoused b { b.realloc newm nsize with rcurr := newm + d } := by
  have hold := h.fits
  refine ⟨rfl, rfl, Memory.read_congr fun i hi => ?_, hpos, Nat.le_add_right _ _, ?_⟩
  · have hi : i < b.conn.rbytes := hi
    simp only [realloc, Memory.move]
    rw [if_pos (by omega), hd]
    congr 1
    omega
  · simp only [realloc]
    omega

theorem conn_shrink_rehoused (h : b.Bounded) (hsize : 0 < host.DATA_BUFFER_SIZE) {realloc : Option Nat} :
    Rehoused b (b.conn_shrink host realloc) := by
  have hpack := pack_rehoused h
  unfold conn_shrink
  split
  · exact .refl h
  split
  · next hshrinks =>
    cases realloc with
    | some newbuf =>
        refine hpack.trans (realloc_rehoused hpack.bounded (d := 0) (by simp) hsize ?_)
        simpa using hshrinks.2.le
    | none =>
        dsimp only
        have hsame : { b.pack with rcurr := b.rbuf } = b.pack := by rw [← pack_rcurr (b := b)]
        rw [hsame]
        exact hpack
  · exact .refl h

/-! ## Reading -/

theorem unread_length : b.unread.length = b.conn.rbytes := Memory.length_read

theorem append_unread (hpacked : b.rcurr = b.rbuf) (bytes : List UInt8) : (b.append bytes).unread = b.unread ++ bytes := by
  simp only [unread, append, Memory.read_add, hpacked]
  rw [Memory.read_write_of_apart (.inl (Nat.le_refl _)), Memory.read_write_self]

/-- What `try_read_network` leaves: all that was there and all that came, or nothing, for want of memory. -/
inductive Got (b : Input) (gotdata : TryReadResult) (got : List UInt8) (b' : Input) : TryReadResult → Prop
  | no_memory (hconn : b'.conn = b.conn.network_read .no_memory) : Got b gotdata got b' .READ_MEMORY_ERROR
  | error (hconn : b'.conn = { b.conn with rbytes := b.conn.rbytes + got.length }) (hunread : b'.unread = b.unread ++ got) :
      Got b gotdata got b' .READ_ERROR
  | data (hconn : b'.conn = { b.conn with rbytes := b.conn.rbytes + got.length }) (hunread : b'.unread = b.unread ++ got)
      (hsome : gotdata = .READ_DATA_RECEIVED ∨ 0 < got.length) : Got b gotdata got b' .READ_DATA_RECEIVED
  | no_data (hconn : b'.conn = b.conn) (hunread : b'.unread = b.unread) (hnone : got = [])
      (hgot : gotdata = .READ_NO_DATA_RECEIVED) : Got b gotdata got b' .READ_NO_DATA_RECEIVED

theorem no_memory_rbytes (c : Conn) : (c.network_read .no_memory).rbytes = 0 := by
  simp only [Conn.network_read, Conn.out_of_memory, Conn.write_bin_error, Conn.out_string]
  repeat' split
  all_goals rfl

/-- After `bytes` more, or after a larger buffer, the loop goes on. -/
theorem Got.after {b₁ : Input} {gotdata gotdata' : TryReadResult} (bytes : List UInt8) {got : List UInt8} {res : TryReadResult}
    (hconn : b₁.conn = { b.conn with rbytes := b.conn.rbytes + bytes.length }) (hunread : b₁.unread = b.unread ++ bytes)
    (hgot : gotdata' = .READ_NO_DATA_RECEIVED → bytes = [] ∧ gotdata = .READ_NO_DATA_RECEIVED)
    (hsome : gotdata' = .READ_DATA_RECEIVED → gotdata = .READ_DATA_RECEIVED ∨ 0 < bytes.length)
    (h : Got b₁ gotdata' got b' res) : Got b gotdata (bytes ++ got) b' res := by
  have hrbytes : b₁.conn.rbytes + got.length = b.conn.rbytes + (bytes ++ got).length := by
    rw [hconn, List.length_append]
    exact Nat.add_assoc ..
  cases h with
  | no_memory h => exact .no_memory (h.trans (by rw [hconn]; rfl))
  | error h hall => exact .error (by rw [h, hrbytes, hconn]) (by rw [hall, hunread, List.append_assoc])
  | data h hall hwhy =>
      refine .data (by rw [h, hrbytes, hconn]) (by rw [hall, hunread, List.append_assoc]) ?_
      rw [List.length_append]
      rcases hwhy with hwhy | hwhy
      · exact (hsome hwhy).imp_right fun h => by omega
      · exact .inr (by omega)
  | no_data h hall hnone hwhy =>
      obtain ⟨rfl, hno⟩ := hgot hwhy
      exact .no_data (by rw [h, hconn]; rfl) (by rw [hall, hunread, List.append_nil]) (by rw [hnone, List.append_nil]) hno

theorem try_read_loop_got {calls : List NetworkCall} {k : Nat} {gotdata res : TryReadResult} (h : b.Bounded)
    (hpacked : b.rcurr = b.rbuf) (hgot : gotdata = .READ_NO_DATA_RECEIVED ∨ gotdata = .READ_DATA_RECEIVED)
    (hloop : b.try_read_loop k gotdata calls = some (b', res)) :
    b'.Bounded ∧ b'.is_udp = b.is_udp ∧ Got b gotdata (calls.flatMap NetworkCall.got) b' res ∧
      (res = .READ_MEMORY_ERROR → .realloc none ∈ calls) := by
  induction calls generalizing b k gotdata with
  | nil =>
      simp only [try_read_loop, Option.ite_none_right_eq_some, Option.some.injEq, Prod.mk.injEq] at hloop
      obtain ⟨-, rfl, rfl⟩ := hloop
      rcases hgot with rfl | rfl
      · exact ⟨h, rfl, .no_data rfl rfl rfl rfl, fun h => by cases h⟩
      · exact ⟨h, rfl, .data rfl (by simp) (.inl rfl), fun h => by cases h⟩
  | cons call calls ih =>
      cases call with
      | realloc newm =>
          simp only [try_read_loop, Option.ite_none_right_eq_some] at hloop
          obtain ⟨-, hloop⟩ := hloop
          cases newm with
          | some new_rbuf =>
              simp only [Option.ite_none_right_eq_some] at hloop
              obtain ⟨hint, hloop⟩ := hloop
              have hgrown : Rehoused b { b.realloc new_rbuf (b.rsize * 2) with rcurr := new_rbuf } :=
                realloc_rehoused h (d := 0) hpacked (by have := h.rsize_pos; omega) (by have := h.fits; omega)
              obtain ⟨hbounded, hudp, hrest, hwhy⟩ := ih hgrown.bounded rfl hgot hloop
              exact ⟨hbounded, hudp, hrest.after [] hgrown.conn (by rw [hgrown.unread, List.append_nil])
                (fun h => ⟨rfl, h⟩) .inl, fun h => List.mem_cons_of_mem _ (hwhy h)⟩
          | none =>
              simp only [Option.ite_none_right_eq_some, Option.some.injEq, Prod.mk.injEq] at hloop
              obtain ⟨-, rfl, rfl⟩ := hloop
              refine ⟨⟨h.rsize_pos, h.rbuf_le, ?_⟩, rfl, .no_memory rfl, fun _ => List.mem_cons_self⟩
              have hfits := h.fits
              dsimp only
              rw [no_memory_rbytes]
              omega
      | read received =>
          cases received with
          | data bytes =>
              simp only [try_read_loop, Option.ite_none_right_eq_some] at hloop
              obtain ⟨hroom, hloop⟩ := hloop
              have happend : (b.append bytes).Bounded :=
                ⟨h.rsize_pos, h.rbuf_le, by simp only [append, hpacked]; have := h.fits; omega⟩
              have hunread := append_unread hpacked bytes
              split at hloop
              · obtain ⟨hbounded, hudp, hrest, hwhy⟩ := ih happend hpacked (.inr rfl) hloop
                exact ⟨hbounded, hudp, hrest.after _ rfl hunread (fun h => by cases h) fun _ => .inr hroom.1,
                  fun h => List.mem_cons_of_mem _ (hwhy h)⟩
              · simp only [Option.ite_none_right_eq_some, List.isEmpty_iff, Option.some.injEq, Prod.mk.injEq] at hloop
                obtain ⟨rfl, rfl, rfl⟩ := hloop
                exact ⟨happend, rfl, .data (by simp [append, NetworkCall.got]) (by simpa [NetworkCall.got] using hunread)
                  (.inr (by simpa [NetworkCall.got] using hroom.1)), fun h => by cases h⟩
          | eagain =>
              simp only [try_read_loop, Option.ite_none_right_eq_some, List.isEmpty_iff, Option.some.injEq, Prod.mk.injEq] at hloop
              obtain ⟨⟨-, rfl⟩, rfl, rfl⟩ := hloop
              rcases hgot with rfl | rfl
              · exact ⟨h, rfl, .no_data rfl rfl rfl rfl, fun h => by cases h⟩
              · exact ⟨h, rfl, .data rfl (by simp [NetworkCall.got]) (.inl rfl), fun h => by cases h⟩
          | eof | error =>
              simp only [try_read_loop, Option.ite_none_right_eq_some, List.isEmpty_iff, Option.some.injEq, Prod.mk.injEq] at hloop
              obtain ⟨⟨-, rfl⟩, rfl, rfl⟩ := hloop
              exact ⟨h, rfl, .error rfl (by simp [NetworkCall.got]), fun h => by cases h⟩

theorem try_read_network_got {calls : List NetworkCall} {res : TryReadResult} (h : b.Bounded)
    (hread : b.try_read_network calls = some (b', res)) :
    b'.Bounded ∧ b'.is_udp = b.is_udp ∧ Got b .READ_NO_DATA_RECEIVED (calls.flatMap NetworkCall.got) b' res ∧
      (res = .READ_MEMORY_ERROR → .realloc none ∈ calls) := by
  have hpack := pack_rehoused h
  obtain ⟨hbounded, hudp, hgot, hwhy⟩ := try_read_loop_got hpack.bounded (by simp) (.inl rfl) hread
  exact ⟨hbounded, hudp.trans hpack.is_udp, hgot.after [] hpack.conn (by rw [hpack.unread, List.append_nil])
    (fun h => ⟨rfl, h⟩) .inl, hwhy⟩

/-! ## The extras and the key -/

theorem le_double_until {size fuel nsize : Nat} (h : size ≤ nsize * 2 ^ fuel) : size ≤ double_until size fuel nsize := by
  induction fuel generalizing nsize with
  | zero => simpa [double_until] using h
  | succ fuel ih =>
      rw [double_until]
      split
      · exact ih (by rw [Nat.pow_succ] at h; grind)
      · omega

theorem self_le_double_until {size fuel nsize : Nat} : nsize ≤ double_until size fuel nsize := by
  induction fuel generalizing nsize with
  | zero => exact Nat.le_refl _
  | succ fuel ih =>
      rw [double_until]
      split
      · exact Nat.le_trans (by omega) ih
      · exact Nat.le_refl _

theorem le_double_self {size nsize : Nat} (h : 0 < nsize) : size ≤ double_until size size nsize :=
  le_double_until (Nat.le_of_lt (Nat.lt_of_lt_of_le Nat.lt_two_pow_self (Nat.le_mul_of_pos_left _ h)))

/-- The connection is closed, or there is room for all that `ritem` is to take, after the header. -/
theorem bin_read_key_room (h : b.Bounded) (hheader : 24 ≤ b.conn.rbytes) {newm : Option Nat} {b' : Input}
    (hb' : b' = b.bin_read_key newm) :
    b' = b.conn_set_state .conn_closing ∨
      Rehoused b b' ∧ b'.ritem = b'.rcurr + 24 ∧ b'.ritem + b.conn.rlbytes.toNat ≤ b'.rbuf + b'.rsize := by
  have hle := h.rbuf_le
  have hfits := h.fits
  have hdouble : b.conn.rlbytes.toNat + 24 ≤ double_until (b.conn.rlbytes.toNat + 24) (b.conn.rlbytes.toNat + 24) b.rsize :=
    le_double_self h.rsize_pos
  have hlarger : b.rsize ≤ double_until (b.conn.rlbytes.toNat + 24) (b.conn.rlbytes.toNat + 24) b.rsize :=
    self_le_double_until
  have hpacked {b₁ : Input} (hhoused : Rehoused b b₁) (hsize : b.conn.rlbytes.toNat + 24 ≤ b₁.rsize)
      (hb' : b' = { b₁.pack with ritem := b₁.pack.rcurr + 24 }) :
      Rehoused b b' ∧ b'.ritem = b'.rcurr + 24 ∧ b'.ritem + b.conn.rlbytes.toNat ≤ b'.rbuf + b'.rsize := by
    have hpack := hhoused.trans (pack_rehoused hhoused.bounded)
    subst hb'
    refine ⟨⟨hpack.conn, hpack.is_udp, hpack.unread, ⟨hpack.bounded.rsize_pos, hpack.bounded.rbuf_le, hpack.bounded.fits⟩⟩,
      rfl, ?_⟩
    simp only [pack_rcurr, pack_rbuf, pack_rsize]
    omega
  unfold bin_read_key at hb'
  dsimp only at hb'
  split at hb'
  · next hsmall =>
    split at hb'
    · exact .inl hb'
    · next b₁ hgrown =>
      right
      split at hgrown
      · next hsame =>
        cases hgrown
        exact hpacked (.refl h) (by rw [hsame] at hdouble; exact hdouble) hb'
      · next hgrows =>
        obtain ⟨newm, -, rfl⟩ := Option.map_eq_some_iff.mp hgrown
        have hplace : newm + (b.rcurr + 24 - b.rbuf) - 24 = newm + (b.rcurr - b.rbuf) := by omega
        rw [hplace] at hb'
        have hd : b.rcurr = b.rbuf + (b.rcurr - b.rbuf) := by omega
        refine hpacked ?_ hdouble hb'
        exact realloc_rehoused h hd (by omega) (by omega)
  · next hroom =>
    subst hb'
    exact .inr ⟨⟨rfl, rfl, rfl, h.rsize_pos, hle, hfits⟩, rfl, by dsimp only; omega⟩

end Input

end Memcached.Thread

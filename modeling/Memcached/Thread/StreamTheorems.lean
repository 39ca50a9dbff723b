import Mathlib.Algebra.Order.Ring.Int
import Memcached.Thread.InputTheorems
import Memcached.Thread.BinaryTheorems

/-!
# The input buffer refines the stream

A binary TCP connection that reads into its buffer does what a connection does that reads the stream itself.
-/

namespace Memcached.Thread.Input

open Transition Conn

variable {w : World} {host : Host} {b b' b₀ : Input} {e : InputEvent} {es : List InputEvent}

/-- What `DriveMachine` takes for granted: there is room for a message header, and a chunk is only missed for bytes that
are missing. -/
def Granted (b : Input) : InputEvent → Prop
  | .try_read_command p => p.add_msghdr = true
  | .read_into_chunked_item leftover direct res =>
      res = .no_memory → ((leftover + direct.length : Nat) : Int) < b.conn.rlbytes
  | _ => True

/-- A step in which nothing unread is given up. -/
def StreamStep (host : Host) (b : Input) (e : InputEvent) (b' : Input) : Prop := KeepingStep host b e b' ∧ Granted b e

/-- The connection has been closed, or stands where a connection stands that reads the stream itself. -/
structure Follows (w : World) (b : Input) (c : Conn) : Prop where
  within : b.Within
  chosen : b.negotiating = false
  conn : b.conn.state ≠ .conn_closing → b.conn = c
  protocol : c.protocol = .binary_prot
  tidy : c.Tidy
  unread : b.unread = Memory.read w.stream b.conn.pos b.conn.rbytes

/-- A header in the buffer is the one in the stream. -/
theorem header_eq (hunread : b.unread = Memory.read w.stream b.conn.pos b.conn.rbytes) (hheader : 24 ≤ b.conn.rbytes) :
    Header.at_pos b.mem b.rcurr = Header.at_pos w.stream b.conn.pos := by
  have hbyte (i : Nat) (hi : i < 24) : b.mem (b.rcurr + i) = w.stream (b.conn.pos + i) :=
    Memory.read_eq_iff.mp hunread i (by omega)
  have hfirst : b.mem b.rcurr = w.stream b.conn.pos := hbyte 0 (by omega)
  simp only [Header.at_pos, hfirst, hbyte 1, hbyte 2, hbyte 3, hbyte 4, hbyte 8, hbyte 9, hbyte 10, hbyte 11, Nat.reduceLT]

theorem pack_negotiating : b.pack.negotiating = b.negotiating := by unfold pack; split <;> rfl

/-- `bin_read_key` closes the connection or leaves it. -/
theorem bin_read_key_conn {newm : Option Nat} (hb' : b' = b.bin_read_key newm) :
    b'.negotiating = b.negotiating ∧ (b'.conn.state ≠ .conn_closing → b'.conn = b.conn) := by
  unfold bin_read_key at hb'
  dsimp only at hb'
  split at hb'
  · split at hb'
    · subst hb'
      exact ⟨rfl, fun hopen => absurd rfl hopen⟩
    · next b₁ hgrown =>
      have hsame : b₁.negotiating = b.negotiating ∧ b₁.conn = b.conn := by
        split at hgrown
        · cases hgrown
          exact ⟨rfl, rfl⟩
        · obtain ⟨newm, -, rfl⟩ := Option.map_eq_some_iff.mp hgrown
          exact ⟨rfl, rfl⟩
      subst hb'
      exact ⟨pack_negotiating.trans hsame.1, fun _ => pack_conn.trans hsame.2⟩
  · subst hb'
    exact ⟨rfl, fun _ => rfl⟩

/-- `try_read_command` of the stream machine, for a header. -/
theorem try_read_command_binary {c : Conn} {a : Answers} (hbinary : c.protocol = .binary_prot) :
    c.try_read_command w a =
      if c.rbytes < 24 then some { c with state := .conn_waiting }
      else
        let c := { c with binary_header := Header.at_pos w.stream c.pos }
        if c.binary_header.magic ≠ PROTOCOL_BINARY_REQ then some { c with state := .conn_closing }
        else
          let c := { c with cmd := .of_opcode c.binary_header.opcode }.dispatch_bin_command w.settings a
          some { c with rbytes := c.rbytes - 24, pos := c.pos + 24 } := by
  unfold Conn.try_read_command
  split
  · rfl
  · next hascii =>
    rw [hbinary] at hascii
    cases hascii

theorem try_read_header_conn (h : b.Within) (hsettings : w.settings = host.settings)
    (hunread : b.unread = Memory.read w.stream b.conn.pos b.conn.rbytes) (hbinary : b.conn.protocol = .binary_prot) {p : Parse}
    (hmsg : p.add_msghdr = true) (hb' : b' = b.try_read_header host p) :
    b'.negotiating = b.negotiating ∧
      (b'.conn.state ≠ .conn_closing →
        b.conn.try_read_command w { p.answers with realloc_ok := true } = some b'.conn) := by
  rw [try_read_command_binary hbinary]
  unfold try_read_header at hb'
  dsimp only at hb' ⊢
  split at hb'
  · next hshort =>
    subst hb'
    exact ⟨rfl, fun _ => if_pos hshort⟩
  next hheader =>
  rw [if_neg hheader]
  have haligned : Rehoused b (if host.NEED_ALIGN ∧ b.rcurr % 8 ≠ 0 then b.pack else b) ∧
      (if host.NEED_ALIGN ∧ b.rcurr % 8 ≠ 0 then b.pack else b).negotiating = b.negotiating := by
    split
    · exact ⟨pack_rehoused h.toBounded, pack_negotiating⟩
    · exact ⟨.refl h.toBounded, rfl⟩
  generalize (if host.NEED_ALIGN ∧ b.rcurr % 8 ≠ 0 then b.pack else b) = b₁ at haligned hb'
  obtain ⟨hhoused, hnegotiating⟩ := haligned
  have hread : Header.at_pos b₁.mem b₁.rcurr = Header.at_pos w.stream b.conn.pos := by
    have hunread₁ : b₁.unread = Memory.read w.stream b₁.conn.pos b₁.conn.rbytes := by
      rw [hhoused.unread, hhoused.conn, hunread]
    rw [header_eq hunread₁ (by rw [hhoused.conn]; omega), hhoused.conn]
  rw [hread, hhoused.conn, ← hsettings, hmsg] at hb'
  split at hb'
  · subst hb'
    exact ⟨hnegotiating, fun hno => absurd rfl hno⟩
  next hmagic =>
  rw [if_neg hmagic]
  simp only [Bool.not_true, Bool.false_eq_true, if_false] at hb'
  generalize Conn.dispatch_bin_command w.settings _ _ = c' at hb' ⊢
  subst hb'
  split
  · obtain ⟨hchosen, hkey⟩ := bin_read_key_conn (b := { b₁ with conn := c' }) rfl
    refine ⟨hchosen.trans hnegotiating, fun hopen => ?_⟩
    have hopen : (({ b₁ with conn := c' } : Input).bin_read_key p.realloc).conn.state ≠ .conn_closing := hopen
    simp only [skip, hkey hopen]
  · exact ⟨hnegotiating, fun _ => rfl⟩

theorem try_read_loop_negotiating {calls : List NetworkCall} {k : Nat} {gotdata res : TryReadResult}
    (hloop : b.try_read_loop k gotdata calls = some (b', res)) : b'.negotiating = b.negotiating := by
  induction calls generalizing b k gotdata with
  | nil =>
      simp only [try_read_loop, Option.ite_none_right_eq_some, Option.some.injEq, Prod.mk.injEq] at hloop
      rw [← hloop.2.1]
  | cons call calls ih =>
      rcases call with (newm | newm) | received
      · simp only [try_read_loop, Option.ite_none_right_eq_some, Option.some.injEq, Prod.mk.injEq] at hloop
        rw [← hloop.2.2.1]
      · simp only [try_read_loop, Option.ite_none_right_eq_some] at hloop
        exact (ih hloop.2.2).trans rfl
      · cases received <;> simp only [try_read_loop, Option.ite_none_right_eq_some] at hloop
        case data bytes =>
          obtain ⟨-, hloop⟩ := hloop
          split at hloop
          · exact (ih hloop).trans rfl
          · simp only [Option.ite_none_right_eq_some, Option.some.injEq, Prod.mk.injEq] at hloop
            rw [← hloop.2.1]
            rfl
        all_goals
          simp only [Option.some.injEq, Prod.mk.injEq] at hloop
          rw [← hloop.2.1]

theorem fill_item_same {ITEM_data : Nat} (h : b.fill_item ITEM_data = some b') :
    b'.negotiating = b.negotiating ∧ b'.conn = b.conn := by
  unfold fill_item at h
  split at h
  · simp only [Option.ite_none_right_eq_some, Option.some.injEq] at h
    rw [← h.2]
    exact ⟨rfl, rfl⟩
  · cases h
    exact ⟨rfl, rfl⟩

theorem conn_shrink_same {realloc : Option Nat} :
    (b.conn_shrink host realloc).negotiating = b.negotiating ∧ (b.conn_shrink host realloc).conn = b.conn := by
  unfold conn_shrink
  split
  · exact ⟨rfl, rfl⟩
  split
  · cases realloc <;> exact ⟨pack_negotiating, pack_conn⟩
  · exact ⟨rfl, rfl⟩

/-- What a step of the buffer is to the connection that reads the stream: a step, or none. -/
def Matched (w : World) (b b' : Input) : Prop :=
  b'.negotiating = false ∧ (b'.conn.state ≠ .conn_closing → b'.conn = b.conn ∨ ∃ e, Thread.Step w b.conn e b'.conn)

theorem step_matched (h : b.Within) (hsettings : w.settings = host.settings) (hchosen : b.negotiating = false)
    (hbinary : b.conn.protocol = .binary_prot) (hunread : b.unread = Memory.read w.stream b.conn.pos b.conn.rbytes)
    (hstep : StreamStep host b e b') : Matched w b b' := by
  obtain ⟨⟨hstep, hkeeps⟩, hgranted⟩ := hstep
  have htcp := h.is_tcp
  have hclosing : Matched w b (b.conn_set_state .conn_closing) := ⟨hchosen, fun hopen => absurd rfl hopen⟩
  have hsame {b' : Input} (hneg : b'.negotiating = b.negotiating) (hconn : b'.conn = b.conn) : Matched w b b' :=
    ⟨hneg.trans hchosen, fun _ => .inl hconn⟩
  have hone {b' : Input} (e : Event) (hneg : b'.negotiating = b.negotiating)
      (hstep : b.conn.drive_machine w e = some b'.conn) : Matched w b b' := ⟨hneg.trans hchosen, fun _ => .inr ⟨e, hstep⟩⟩
  unfold Step drive_machine at hstep
  dsimp only at hstep
  cases hstate : b.conn.state <;> cases e <;>
    simp only [hstate, reduceCtorEq, Option.ite_none_right_eq_some, Option.some.injEq] at hstep
  case conn_waiting.update_event ok =>
    subst hstep
    exact hone (.update_event ok) rfl (by simp [Conn.drive_machine, hstate, conn_set_state])
  case conn_read.try_read_network calls =>
    simp only [htcp, Bool.false_eq_true, if_false, Option.map_eq_some_iff] at hstep
    obtain ⟨⟨b₁, res⟩, hread, rfl⟩ := hstep
    obtain ⟨-, -, hgot, hwhy⟩ := try_read_network_got h.toBounded hread
    have hneg : b₁.negotiating = b.negotiating := (try_read_loop_negotiating hread).trans pack_negotiating
    cases hgot with
    | no_memory _ => exact absurd (hwhy rfl) hkeeps
    | error hconn _ => exact ⟨hneg.trans hchosen, fun hopen => absurd rfl hopen⟩
    | data hconn _ hsome =>
        have hsome : 0 < (calls.flatMap NetworkCall.got).length := hsome.resolve_left (by simp)
        refine hone (.try_read_network (.data (calls.flatMap NetworkCall.got).length)) hneg ?_
        simp only [Conn.drive_machine, hstate, if_pos hsome, Conn.network_read, conn_read, conn_set_state, hconn]
    | no_data hconn _ _ _ =>
        refine hone (.try_read_network .eagain) hneg ?_
        simp only [Conn.drive_machine, hstate, Conn.network_read, conn_read, conn_set_state, hconn]
  case conn_read.try_read_udp res => simp [htcp] at hstep
  case conn_parse_cmd.try_read_command p =>
    have hchoose : b.choose_protocol = b := by simp [choose_protocol, hchosen, htcp]
    simp only [try_read_command, hchoose, hbinary, Option.some.injEq] at hstep
    obtain ⟨hneg, hconn⟩ := try_read_header_conn h hsettings hunread hbinary hgranted hstep.symm
    refine ⟨hneg.trans hchosen, fun hopen => .inr ⟨.try_read_command { p.answers with realloc_ok := true }, ?_⟩⟩
    simp only [Thread.Step, Conn.drive_machine, hstate]
    exact hconn hopen
  case conn_new_cmd.reset_cmd_handler realloc =>
    subst hstep
    have hshrunk : (b.conn_shrink host realloc).negotiating = b.negotiating ∧ (b.conn_shrink host realloc).conn = b.conn :=
      conn_shrink_same
    exact hone .reset_cmd_handler hshrunk.1 (by simp [Conn.drive_machine, hstate, reset_cmd_handler, hshrunk.2])
  case conn_new_cmd.conn_yield ok =>
    subst hstep
    split
    · exact hclosing
    · exact hsame rfl rfl
  case conn_nread.complete_nread a ITEM_data =>
    obtain ⟨hrl, hstep⟩ := hstep
    obtain ⟨c', hhandler, hfill⟩ := Option.bind_eq_some_iff.mp hstep
    obtain ⟨hneg, hconn⟩ := fill_item_same hfill
    refine hone (.complete_nread a) hneg ?_
    simp only [hbinary] at hhandler
    simp only [Conn.drive_machine, hstate, if_pos hrl, Conn.complete_nread, hbinary, hsettings, hhandler, hconn]
  case conn_nread.invalid_rlbytes =>
    obtain ⟨-, rfl⟩ := hstep
    exact hclosing
  case conn_nread.leftovers =>
    obtain ⟨hmore, rfl⟩ := hstep
    exact hone .leftovers rfl (by simp [Conn.drive_machine, hstate, nread_leftovers, hmore])
  case conn_nread.read res =>
    cases res <;> simp only [Option.ite_none_right_eq_some, Option.some.injEq] at hstep
    case data bytes =>
      obtain ⟨hmore, rfl⟩ := hstep
      exact hone (.read (.data bytes.length)) rfl (by simp [Conn.drive_machine, hstate, nread_socket, hmore])
    case eagain =>
      obtain ⟨-, rfl⟩ := hstep
      exact hsame rfl rfl
    case eof | error =>
      obtain ⟨-, rfl⟩ := hstep
      exact hclosing
  case conn_nread.update_event ok =>
    cases ok <;> cases hstep
    exact hclosing
  case conn_nread.read_into_chunked_item leftover direct res =>
    obtain ⟨⟨hmore, hchunked, -, -, -, hfits⟩, rfl⟩ := hstep
    exact hone (.read_into_chunked_item (leftover + direct.length) res) rfl
      (by simp only [Conn.drive_machine, hstate]; exact if_pos ⟨hmore, hchunked, hfits, hgranted⟩)
  case conn_swallow.swallowed =>
    obtain ⟨hdone, rfl⟩ := hstep
    exact hone .swallowed rfl (by simp [Conn.drive_machine, hstate, conn_set_state, hdone])
  case conn_swallow.leftovers =>
    obtain ⟨hmore, rfl⟩ := hstep
    exact hone .leftovers rfl (by simp [Conn.drive_machine, hstate, hmore])
  case conn_swallow.read res =>
    cases res <;> simp only [Option.ite_none_right_eq_some, Option.some.injEq] at hstep
    case data bytes =>
      obtain ⟨⟨hmore, hempty, hsome, hfits⟩, rfl⟩ := hstep
      have hfits : (bytes.length : Int) ≤ b.conn.sbytes := by omega
      exact hone (.read (.data bytes.length)) rfl (by simp [Conn.drive_machine, hstate, hmore, hempty, hsome, hfits])
    case eagain =>
      obtain ⟨-, rfl⟩ := hstep
      exact hsame rfl rfl
    case eof | error =>
      obtain ⟨-, rfl⟩ := hstep
      exact hclosing
  case conn_swallow.update_event ok =>
    cases ok <;> cases hstep
    exact hclosing
  case conn_write.transmit res =>
    cases res <;> cases hstep
    · exact hone (.transmit true) rfl (by simp [Conn.drive_machine, hstate, conn_set_state])
    · exact hsame rfl rfl
    · simp only [htcp]
      exact hclosing
    · exact hclosing
  case conn_mwrite.transmit res =>
    cases res <;> cases hstep
    · exact hone (.transmit true) rfl (by simp [Conn.drive_machine, hstate, conn_set_state])
    · exact hsame rfl rfl
    · simp only [htcp]
      exact hclosing
    · exact hclosing
  case conn_closing.conn_cleanup => simp [htcp] at hstep
  case conn_closing.conn_new negotiating protocol => exact hkeeps.elim

theorem step_follows {c : Conn} (hsize : 0 < host.DATA_BUFFER_SIZE) (hsettings : w.settings = host.settings)
    (h : Follows w b c) (hstep : StreamStep host b e b')
    (hgot : e.got = Memory.read w.stream (b.conn.pos + b.conn.rbytes) e.got.length) :
    ∃ es c', Run (Thread.Step w) c es c' ∧ Follows w b' c' := by
  have hopen : b.conn.state ≠ .conn_closing := by
    intro hclosed
    obtain ⟨⟨hstep, hkeeps⟩, -⟩ := hstep
    cases e <;> simp [Step, drive_machine, hclosed, h.within.is_tcp] at hstep
    exact hkeeps.elim
  obtain rfl := h.conn hopen
  obtain ⟨hchosen, hmatched⟩ := step_matched h.within hsettings h.chosen h.protocol h.unread hstep
  obtain ⟨hwithin, hreads⟩ := step_within hsize h.within hstep.1.1
  have hreads := hreads hstep.1.2
  have hunread : b'.unread = Memory.read w.stream b'.conn.pos b'.conn.rbytes := by
    have hstream := hreads.stream (by rw [unread_length]; exact h.unread) (by rw [unread_length]; exact hgot)
    rwa [unread_length] at hstream
  by_cases hopen' : b'.conn.state = .conn_closing
  · exact ⟨[], b.conn, .nil _, hwithin, hchosen, fun hno => absurd hopen' hno, h.protocol, h.tidy, hunread⟩
  · rcases hmatched hopen' with hsame | ⟨e', hstep'⟩
    · exact ⟨[], b.conn, .nil _, hwithin, hchosen, fun _ => hsame, h.protocol, h.tidy, hunread⟩
    · obtain ⟨hprotocol, htidy⟩ := Conn.tidy_step ⟨h.protocol, h.tidy⟩ hstep'
      exact ⟨[e'], b'.conn, .cons hstep' (.nil _), hwithin, hchosen, fun _ => rfl, hprotocol, htidy, hunread⟩

theorem run_follows {c : Conn} (hsize : 0 < host.DATA_BUFFER_SIZE) (hsettings : w.settings = host.settings)
    (hrun : Run (StreamStep host) b es b') (h : Follows w b c)
    (hgot : es.flatMap InputEvent.got =
      Memory.read w.stream (b.conn.pos + b.conn.rbytes) (es.flatMap InputEvent.got).length) :
    ∃ es' c', Run (Thread.Step w) c es' c' ∧ Follows w b' c' := by
  induction hrun generalizing c with
  | nil b => exact ⟨[], c, .nil c, h⟩
  | @cons b b₁ b' e es hstep _ ih =>
      rw [List.flatMap_cons, List.length_append, Memory.read_add] at hgot
      obtain ⟨hfirst, hrest⟩ := List.append_inj hgot (by rw [Memory.length_read])
      obtain ⟨es₁, c₁, hrun₁, hfollows⟩ := step_follows hsize hsettings h hstep hfirst
      have hlength := ((step_within hsize h.within hstep.1.1).2 hstep.1.2).length
      rw [unread_length, unread_length] at hlength
      obtain ⟨es₂, c', hrun₂, hfollows'⟩ := ih hfollows (by rw [hlength]; exact hrest)
      exact ⟨es₁ ++ es₂, c', hrun₁.append hrun₂, hfollows'⟩

/-- A binary connection does with its buffer, whatever it reads in one call and wherever the buffer is moved to, what a
connection does that reads the stream itself, till it is closed. -/
theorem run_refines_stream {b₀ : Input} (hsize : 0 < host.DATA_BUFFER_SIZE) (hsettings : w.settings = host.settings)
    (h₀ : b₀.Opened) (hbinary : b₀.conn.protocol = .binary_prot) (hchosen : b₀.negotiating = false)
    (hsbytes : b₀.conn.sbytes ≤ 0) (hrun : Run (StreamStep host) b₀ es b)
    (hgot : es.flatMap InputEvent.got = Memory.read w.stream b₀.conn.pos (es.flatMap InputEvent.got).length) :
    ∃ es' c, Run (Thread.Step w) b₀.conn es' c ∧ (b.conn.state ≠ .conn_closing → b.conn = c) ∧
      b.unread = Memory.read w.stream b.conn.pos b.conn.rbytes := by
  have hfollows : Follows w b₀ b₀.conn := by
    refine ⟨h₀.within, hchosen, fun _ => rfl, hbinary, ?_, ?_⟩
    · simpa only [Conn.Tidy, h₀.state] using hsbytes
    · rw [h₀.unread, h₀.rbytes, Memory.read_zero]
  obtain ⟨es', c, hrun', h⟩ := run_follows hsize hsettings hrun hfollows (by rw [h₀.rbytes]; exact hgot)
  exact ⟨es', c, hrun', h.conn, h.unread⟩

instance : Decidable (Granted b e) :=
  match e with
  | .try_read_command p => instDecidableEqBool p.add_msghdr true
  | .read_into_chunked_item _ _ res => @instDecidableForall _ _ (instDecidableEqReadResult res .no_memory) (Int.decLt _ _)
  | .update_event _ | .try_read_network _ | .try_read_udp _ | .reset_cmd_handler _ | .conn_yield _ | .complete_nread _ _
  | .invalid_rlbytes | .leftovers | .read _ | .swallowed | .transmit _ | .conn_cleanup | .conn_new _ _ => instDecidableTrue

/-- The stream that `long_key_read` reads. -/
def long_key_world : World where
  stream := fun i => long_key.getD i 0
  settings := small_host.settings
  numbers := small_host.numbers

theorem run_refines_stream_small : ∃ (b : Input) (es' : List Event) (c : Conn),
    b.rbuf = 700 ∧ Run (Thread.Step long_key_world) binary_conn es' c ∧ b.conn = c := by
  have htaken : (long_key_read.foldlM (fun b e =>
      if Keeps small_host b e ∧ Granted b e then b.drive_machine small_host e else none) small_buffer).any
        fun b => b.rbuf = 700 ∧ b.conn.state ≠ .conn_closing := by decide +kernel
  obtain ⟨b, hb, hend⟩ := (Option.any_eq_true _ _).mp htaken
  have hrun : Run (StreamStep small_host) small_buffer long_key_read b :=
    (Run.of_guarded_foldlM hb).mono fun h => ⟨⟨h.1, h.2.1⟩, h.2.2⟩
  obtain ⟨hrbuf, hopen⟩ : b.rbuf = 700 ∧ b.conn.state ≠ .conn_closing := by simpa using hend
  have hgot : long_key_read.flatMap InputEvent.got =
      Memory.read long_key_world.stream 0 (long_key_read.flatMap InputEvent.got).length := by decide +kernel
  obtain ⟨es', c, hrun', hconn, -⟩ := run_refines_stream (by decide) rfl
    small_buffer_opened rfl rfl (by decide) hrun hgot
  exact ⟨b, es', c, hrbuf, hrun', hconn hopen⟩

end Memcached.Thread.Input

import Memcached.Thread.Lemmas.Stale

/-!
# A connection that is used again answers as a new one

`conn_new` leaves the substate, the header, `opaque`, `cas` and `sbytes` of an earlier connection. A step that reads one of
them before it is set tells the two apart; in a run without such a step nothing does.
-/

namespace Memcached.Thread.Session

variable {w : World} {s s' t t' : Session}

/-! ## What is not read -/

/-- No header has been read; what is answered all the same is the last. -/
structure Unstarted (s : Session) : Prop where
  pos : s.conn.pos = 0
  opcode : s.conn.binary_header.opcode = 0
  opaque_id : s.opaque_id = [0, 0, 0, 0]
  cas : s.cas = 0
  nread : s.conn.state ≠ .conn_nread
  swallow : s.conn.state ≠ .conn_swallow
  last : s.conn.state = .conn_mwrite ∨ s.conn.state = .conn_write → s.conn.write_and_go = .conn_closing
  watched : s.watched = true → s.conn.state = .conn_mwrite ∨ s.conn.state = .conn_write

/-- The header of the last request is not looked at. -/
def Unread (s : Session) : Prop :=
  s.watched = false ∧ s.conn.state = .conn_closing ∨ s.conn.protocol = .ascii_prot ∧ s.negotiating = false ∨ s.Unstarted

/-- Nor is the substate. -/
def Reset (s : Session) : Prop := s.watched = false ∧ (s.conn.state = .conn_new_cmd ∨ s.conn.state = .conn_closing)

/-- The two differ in what is not read. -/
def Alike (s t : Session) : Prop :=
  ∃ d substate header opaque_id cas, Conn.Twin s.conn d ∧
    t = { s with conn := d.stale substate header, opaque_id := opaque_id, cas := cas } ∧
    (substate = s.conn.substate ∨ s.Reset) ∧
    (header = s.conn.binary_header ∧ opaque_id = s.opaque_id ∧ cas = s.cas ∨ s.Unread)

/-- No step has to read what an earlier connection left: a request is refused whose body has nothing to swallow, and `sbytes`
is positive; or the first request of a binary connection runs out of memory, and the last answer is not all zeros. -/
def Safe (w : World) (s : Session) : SessionEvent → Prop
  | .drive (.complete_nread a) _ => Conn.SwallowsNothing w.settings s.conn a → s.conn.sbytes ≤ 0
  | .drive (.try_read_network .no_memory) _ => s.conn.protocol = .binary_prot → s.conn.pos = 0 →
      s.conn.binary_header.opcode = 0 ∧ s.opaque_id = [0, 0, 0, 0] ∧ s.cas = 0
  | _ => True

/-- Every step is safe, as far as they can be taken. -/
def SafeRun (w : World) : Session → List SessionEvent → Prop
  | _, [] => True
  | s, e :: es => s.Safe w e ∧ ∀ s', s.step w e = some s' → SafeRun w s' es

/-! ## What is seen -/

/-- After a step the two are alike still, and it is seen alike. -/
def Next (s t : Session) (e : SessionEvent) (s' t' : Session) : Prop := Alike s' t' ∧ s.seen e s' = t.seen e t'

theorem Alike.field {α : Type} (h : Alike s t) (f : Session → α)
    (hf : ∀ s d substate header opaque_id cas, Conn.Twin s.conn d →
      f { s with conn := d.stale substate header, opaque_id := opaque_id, cas := cas } = f s) : f t = f s := by
  obtain ⟨d, substate, header, opaque_id, cas, hd, rfl, -⟩ := h
  exact hf s d substate header opaque_id cas hd

theorem Alike.conn {α : Type} (h : Alike s t) (f : Conn → α) (hf : ∀ c v, f { c with sbytes := v } = f c)
    (hstale : ∀ (c : Conn) substate header, f (c.stale substate header) = f c) : f t.conn = f s.conn :=
  h.field (fun s => f s.conn) fun _ _ _ _ _ _ hd => (hstale _ _ _).trans (hd.field f hf)

theorem Alike.writing (h : Alike s t) : t.writing = s.writing := by
  have hstate : t.conn.state = s.conn.state := h.conn Conn.state (fun _ _ => rfl) fun _ _ _ => rfl
  rw [Session.writing, Session.writing, hstate]

theorem Alike.next {e : SessionEvent} (h : Alike s t) (h' : Alike s' t')
    (hresponse : s'.writing = true → s.writing = false → t'.response e = s'.response e) : Next s t e s' t' := by
  refine ⟨h', ?_⟩
  have hstate : t'.conn.state = s'.conn.state := h'.conn Conn.state (fun _ _ => rfl) fun _ _ _ => rfl
  have hauth : t'.conn.authenticated = s'.conn.authenticated := h'.conn Conn.authenticated (fun _ _ => rfl) fun _ _ _ => rfl
  have hpos : t'.conn.pos = s'.conn.pos := h'.conn Conn.pos (fun _ _ => rfl) fun _ _ _ => rfl
  have hwatched : t'.watched = s'.watched := h'.field Session.watched fun _ _ _ _ _ _ _ => rfl
  simp only [seen, h.writing, h'.writing, hstate, hauth, hpos, hwatched]
  split
  · next hwriting => rw [hresponse hwriting.1 (by simpa using hwriting.2)]
  · rfl

theorem Alike.response_text (h : Alike s t) (e : SessionEvent) (hp : s.conn.protocol = .ascii_prot) :
    t.response e = s.response e := by
  have hp' : t.conn.protocol = .ascii_prot := (h.conn Conn.protocol (fun _ _ => rfl) fun _ _ _ => rfl).trans hp
  simp only [response, hp, hp']

/-- The last header is the same. -/
theorem response_binary {d : Conn} (hd : Conn.Twin s.conn d) (substate : BinSubstate) (e : SessionEvent) :
    response { s with conn := d.stale substate s.conn.binary_header } e = s.response e := by
  have hprotocol : (d.stale substate s.conn.binary_header).protocol = s.conn.protocol := hd.field Conn.protocol fun _ _ => rfl
  simp only [response, hprotocol]
  rfl

/-! ## Steps that do not look at the header -/

/-- The connection after a step of `drive_machine`. -/
def go (s : Session) (c : Conn) : Session := { s with conn := c }

theorem network_read_state (c : Conn) (res : ReadResult) :
    (c.network_read res).state ≠ .conn_nread ∧ (c.network_read res).state ≠ .conn_swallow ∧
      ((c.network_read res).state = .conn_mwrite ∨ (c.network_read res).state = .conn_write →
        (c.network_read res).write_and_go = .conn_closing) := by
  cases res with
  | no_memory =>
      simp only [Conn.network_read, Conn.out_of_memory]
      cases c.protocol with
      | binary_prot => simp [Conn.write_bin_error]
      | ascii_prot => cases c.noreply <;> simp [Conn.out_string]
  | _ => simp [Conn.network_read]

theorem Unstarted.drive {e : Event} {c' : Conn} (hu : Unstarted s) (hwatched : s.watched = false)
    (he : Conn.reads_header e = false) (h : s.conn.drive_machine w e = some c') : Unstarted (s.go c') := by
  obtain ⟨-, hheader⟩ := Conn.drive_machine_keeps he h
  have hopcode : c'.binary_header.opcode = 0 := hheader ▸ hu.opcode
  have hw : (s.go c').watched = true → c'.state = .conn_mwrite ∨ c'.state = .conn_write :=
    fun hw => absurd hw (by simp [go, hwatched])
  rcases Conn.drive_machine_cases he h with ⟨hbody | hbody, -⟩ | ⟨res, -, rfl⟩ | ⟨state, rfl, hstate⟩
  · exact absurd hbody hu.nread
  · exact absurd hbody hu.swallow
  · obtain ⟨hnread, hswallow, hlast⟩ := network_read_state s.conn res
    exact ⟨(Conn.network_read_keeps res).2.trans hu.pos, hopcode, hu.opaque_id, hu.cas, hnread, hswallow, hlast, hw⟩
  · have hclosing : state = .conn_read ∨ state = .conn_closing ∨ state = .conn_new_cmd := by
      rcases hstate with h | h | h | ⟨hwriting, h⟩
      · exact .inl h
      · exact .inr (.inl h)
      · exact .inr (.inr h)
      · exact .inr (.inl (h.trans (hu.last hwriting.symm)))
    refine ⟨hu.pos, hopcode, hu.opaque_id, hu.cas, ?_, ?_, ?_, hw⟩
    all_goals rcases hclosing with rfl | rfl | rfl <;> simp [go]

theorem Unread.drive {e : Event} {c' : Conn} (hu : Unread s) (hwatched : s.watched = false)
    (he : Conn.reads_header e = false) (h : s.conn.drive_machine w e = some c') : Unread (s.go c') := by
  rcases hu with ⟨-, hclosing⟩ | ⟨hascii, hneg⟩ | hu
  · cases e <;> simp [Conn.drive_machine, hclosing] at h
  · exact .inr (.inl ⟨(Conn.drive_machine_protocol he h).trans hascii, hneg⟩)
  · exact .inr (.inr (hu.drive hwatched he h))

/-- Without a header, the only response is that there is no memory for a request. -/
theorem Unstarted.no_memory {e : Event} {c' : Conn} (hu : Unstarted s) (he : Conn.reads_header e = false)
    (h : s.conn.drive_machine w e = some c') (hwriting : (s.go c').writing = true) (hbefore : s.writing = false) :
    e = .try_read_network .no_memory := by
  rcases Conn.drive_machine_cases he h with ⟨hbody | hbody, -⟩ | ⟨res, rfl, rfl⟩ | ⟨state, rfl, hstate⟩
  · exact absurd hbody hu.nread
  · exact absurd hbody hu.swallow
  · cases res with
    | no_memory => rfl
    | _ => simp [writing, go, Conn.network_read] at hwriting
  · rcases hstate with rfl | rfl | rfl | ⟨hw, -⟩
    · simp [writing, go] at hwriting
    · simp [writing, go] at hwriting
    · simp [writing, go] at hwriting
    · simp [writing, hw] at hbefore

/-- A step of `drive_machine` in which neither the header nor the substate is looked at. -/
theorem Alike.drive {e : Event} {x : Extern} (h : Alike s t) (hwatched : s.watched = false)
    (he : Conn.reads_header e = false) (hsafe : t.Safe w (.drive e x)) :
    Option.Rel (Next s t (.drive e x)) ((s.conn.drive_machine w e).map s.go) ((t.conn.drive_machine w e).map t.go) := by
  obtain ⟨d, substate, header, opaque_id, cas, hd, rfl, hsubstate, hheader⟩ := id h
  have hstep := hd.drive_machine (w := w) e fun a ha => by simp [ha, Conn.reads_header] at he
  dsimp only
  rw [Conn.drive_machine_stale substate header w he]
  generalize hc : s.conn.drive_machine w e = o at hstep ⊢
  generalize d.drive_machine w e = o' at hstep ⊢
  cases hstep with
  | none => exact .none
  | @some c' d' hcd =>
    obtain ⟨hkeep, hkeep'⟩ := Conn.drive_machine_keeps he hc
    have hsame : substate = c'.substate := by
      rcases hsubstate with hsub | ⟨-, hnew | hclosing⟩
      · exact hsub.trans hkeep.symm
      · cases e <;> simp_all [Conn.drive_machine, Conn.reads_header]
      · cases e <;> simp [Conn.drive_machine, hclosing] at hc
    rcases hheader with ⟨rfl, rfl, rfl⟩ | hunread
    · have h' : Alike (s.go c') (s.go (d'.stale substate s.conn.binary_header)) :=
        ⟨d', substate, _, _, _, hcd, rfl, .inl hsame, .inl ⟨hkeep'.symm, rfl, rfl⟩⟩
      refine .some (h.next h' fun _ _ => ?_)
      rw [← hkeep']
      exact response_binary (s := s.go c') hcd substate _
    · have h' : Alike (s.go c') { s with conn := d'.stale substate header, opaque_id := opaque_id, cas := cas } :=
        ⟨d', substate, header, opaque_id, cas, hcd, rfl, .inl hsame, .inr (hunread.drive hwatched he hc)⟩
      refine .some (h.next h' fun hwriting hbefore => ?_)
      cases hp : c'.protocol with
      | ascii_prot => exact h'.response_text _ hp
      | binary_prot =>
          have hprotocol : s.conn.protocol = .binary_prot := (Conn.drive_machine_protocol he hc).symm.trans hp
          have hprotocol' : d'.protocol = .binary_prot := (hcd.field Conn.protocol fun _ _ => rfl).trans hp
          rcases hunread with ⟨-, hclosing⟩ | ⟨hascii, -⟩ | hu
          · cases e <;> simp [Conn.drive_machine, hclosing] at hc
          · rw [hascii] at hprotocol
            cases hprotocol
          · obtain rfl := hu.no_memory he hc hwriting hbefore
            have hfield {α : Type} (f : Conn → α) (hf : ∀ c v, f { c with sbytes := v } = f c) : f d = f s.conn := hd.field f hf
            obtain ⟨hopcode, hopaque, hcas⟩ := hsafe ((hfield Conn.protocol fun _ _ => rfl).trans hprotocol)
              ((hfield Conn.pos fun _ _ => rfl).trans hu.pos)
            dsimp only [Conn.stale] at hopcode hopaque hcas
            simp only [response, go, Conn.stale, hp, hprotocol', hkeep', hopcode, hopaque, hcas, hu.opcode, hu.opaque_id, hu.cas]

/-! ## Steps with the header -/

/-- The header is the same. -/
theorem Alike.of_twin {d : Conn} (hd : Conn.Twin s.conn d) : Alike s (s.go d) := by
  obtain ⟨v, rfl, hv⟩ := hd
  exact ⟨_, s.conn.substate, s.conn.binary_header, s.opaque_id, s.cas, ⟨v, rfl, hv⟩, rfl, .inl rfl, .inl ⟨rfl, rfl, rfl⟩⟩

theorem Alike.next_of_twin {e : SessionEvent} {d : Conn} (h : Alike s t) (hd : Conn.Twin s'.conn d) :
    Next s t e s' (s'.go d) :=
  h.next (.of_twin hd) fun _ _ => by
    obtain ⟨v, rfl, -⟩ := hd
    rfl

/-- In a request the substate is the same, and the header is, or the protocol has none. -/
theorem Alike.reading (h : Alike s t) (hnread : s.conn.state = .conn_nread) :
    (∃ d, Conn.Twin s.conn d ∧ t = s.go d) ∨ s.conn.protocol = .ascii_prot ∧ s.negotiating = false := by
  obtain ⟨d, substate, header, opaque_id, cas, hd, rfl, hsubstate, hheader⟩ := h
  have hsame : substate = s.conn.substate := by
    rcases hsubstate with hsub | ⟨-, h⟩
    · exact hsub
    · simp [hnread] at h
  rcases hheader with ⟨rfl, rfl, rfl⟩ | ⟨-, hclosing⟩ | hascii | hu
  · obtain ⟨v, rfl, hv⟩ := hd
    subst hsame
    exact .inl ⟨_, ⟨v, rfl, hv⟩, rfl⟩
  · simp [hnread] at hclosing
  · exact .inr hascii
  · exact absurd hnread hu.nread

theorem choose_protocol_chosen (hneg : s.negotiating = false) : s.choose_protocol w = s := if_neg (by simp [hneg])

theorem Alike.choose_protocol (h : Alike s t) : Alike (s.choose_protocol w) (t.choose_protocol w) := by
  have hneg' : t.negotiating = s.negotiating := h.field Session.negotiating fun _ _ _ _ _ _ _ => rfl
  cases hneg : s.negotiating with
  | false =>
      rw [choose_protocol_chosen hneg, choose_protocol_chosen (hneg'.trans hneg)]
      exact h
  | true =>
      obtain ⟨_, substate, header, opaque_id, cas, ⟨v, rfl, hv⟩, rfl, hsubstate, hheader⟩ := h
      simp only [Session.choose_protocol, hneg, if_true]
      refine ⟨_, substate, header, opaque_id, cas, ⟨v, rfl, hv⟩, rfl, hsubstate, hheader.imp_right fun hunread => ?_⟩
      rcases hunread with hclosing | ⟨-, hascii⟩ | hu
      · exact .inl hclosing
      · rw [hneg] at hascii
        cases hascii
      · exact .inr (.inr ⟨hu.pos, hu.opcode, hu.opaque_id, hu.cas, hu.nread, hu.swallow, hu.last, hu.watched⟩)

theorem choose_protocol_negotiating : (s.choose_protocol w).negotiating = false := by
  simp only [choose_protocol]
  split
  · rfl
  · next hneg => simpa using hneg

theorem choose_protocol_state : (s.choose_protocol w).conn.state = s.conn.state := by
  simp only [choose_protocol]
  split <;> rfl

theorem choose_protocol_writing : (s.choose_protocol w).writing = s.writing := by
  rw [writing, writing, choose_protocol_state]

/-- The protocol is chosen before the step. -/
theorem Next.chosen {e : SessionEvent} (h : Next (s.choose_protocol w) (t.choose_protocol w) e s' t') : Next s t e s' t' := by
  obtain ⟨h, hseen⟩ := h
  refine ⟨h, ?_⟩
  rwa [seen, seen, choose_protocol_writing, choose_protocol_writing] at hseen

theorem Alike.reset_cmd_handler {x : Extern} (h : Alike s t) (hwatched : s.watched = false) :
    Option.Rel (Next s t (.drive .reset_cmd_handler x)) ((s.conn.drive_machine w .reset_cmd_handler).map s.go)
      ((t.conn.drive_machine w .reset_cmd_handler).map t.go) := by
  rw [Conn.drive_machine_reset, Conn.drive_machine_reset, h.conn Conn.state (fun _ _ => rfl) fun _ _ _ => rfl]
  split
  · next hnew =>
    have hnext := s.conn.reset_cmd_handler_state
    obtain ⟨d, substate, header, opaque_id, cas, hd, rfl, -, hheader⟩ := id h
    have hd' : Conn.Twin s.conn.reset_cmd_handler d.reset_cmd_handler :=
      hd.set (·.reset_cmd_handler) (fun _ _ => rfl) rfl id fun he => by rcases hnext with h | h <;> simp [h] at he
    have h' : Alike (s.go s.conn.reset_cmd_handler)
        { s with conn := d.reset_cmd_handler.stale .bin_no_state header, opaque_id := opaque_id, cas := cas } := by
      refine ⟨_, .bin_no_state, header, opaque_id, cas, hd', rfl, .inl rfl, hheader.imp_right fun hunread => ?_⟩
      rcases hunread with ⟨-, hclosing⟩ | hascii | hu
      · simp [hnew] at hclosing
      · exact .inr (.inl hascii)
      · refine .inr (.inr ⟨hu.pos, hu.opcode, hu.opaque_id, hu.cas, ?_, ?_, ?_, fun hw => absurd hw (by simp [go, hwatched])⟩)
        all_goals rcases hnext with h | h <;> simp [go, h]
    refine .some (h.next h' fun hwriting _ => ?_)
    rcases hnext with h | h <;> simp [Session.writing, go, h] at hwriting
  · exact .none

/-- The connection is closed. -/
theorem Alike.close {e : SessionEvent} (h : Alike s t) (hwatched : s.watched = false) :
    Next s t e (s.go { s.conn with state := .conn_closing }) (t.go { t.conn with state := .conn_closing }) := by
  obtain ⟨d, substate, header, opaque_id, cas, hd, rfl, -⟩ := id h
  exact h.next ⟨_, substate, header, opaque_id, cas, hd.state .conn_closing (by simp), rfl, .inr ⟨hwatched, .inr rfl⟩,
    .inr (.inl ⟨hwatched, rfl⟩)⟩ fun hwriting _ => by simp [Session.writing, go] at hwriting

/-- What a response has sent is released. -/
theorem Alike.conn_release_items (h : Alike s t) (io_wrapleft : Int) :
    Alike (s.conn_release_items io_wrapleft) (t.conn_release_items io_wrapleft) := by
  obtain ⟨d, substate, header, opaque_id, cas, hd, rfl, hsubstate, hheader⟩ := h
  refine ⟨_, substate, header, opaque_id, cas, hd.set (fun c => { c with item := none }) (fun _ _ => rfl) rfl id id, rfl,
    hsubstate, hheader.imp_right fun hunread => ?_⟩
  rcases hunread with hclosing | hascii | hu
  · exact .inl hclosing
  · exact .inr (.inl hascii)
  · exact .inr (.inr ⟨hu.pos, hu.opcode, hu.opaque_id, hu.cas, hu.nread, hu.swallow, hu.last, hu.watched⟩)

theorem copy_header_ascii (hp : s.conn.protocol = .ascii_prot) : s.copy_header w = s := if_neg (by simp [hp])

theorem copy_header_whole (hp : s.conn.protocol = .binary_prot) (hwhole : ¬ s.conn.rbytes < 24)
    (hmagic : w.stream s.conn.pos = PROTOCOL_BINARY_REQ) : s.copy_header w =
      { s with opaque_id := (List.range 4).map fun i => w.stream (s.conn.pos + 12 + i), cas := 0 } :=
  if_pos ⟨hp, by omega, hmagic⟩

theorem copy_header_magic (hmagic : w.stream s.conn.pos ≠ PROTOCOL_BINARY_REQ) : s.copy_header w = s :=
  if_neg fun h => hmagic h.2.2

theorem copy_header_part (hpart : s.conn.rbytes < 24) : s.copy_header w = s := if_neg (by omega)

/-- Between two requests the substate is not looked at, and then it is the same. -/
theorem Alike.parsing (h : Alike s t) (hstate : s.conn.state = .conn_parse_cmd) :
    ∃ d header opaque_id cas, Conn.Twin s.conn d ∧
      t = { s with conn := d.stale s.conn.substate header, opaque_id := opaque_id, cas := cas } := by
  obtain ⟨d, substate, header, opaque_id, cas, hd, rfl, rfl | ⟨-, hreset⟩, -⟩ := h
  · exact ⟨d, header, opaque_id, cas, hd, rfl⟩
  · simp [hstate] at hreset

/-- A line has been carried out. -/
theorem Alike.line {e : SessionEvent} {d' : Conn} {substate : BinSubstate} {header : Header} {opaque_id : List UInt8}
    {cas : UInt64} (h : Alike s t) (s' : Session) (hd : Conn.Twin s'.conn d') (hsubstate : substate = s'.conn.substate)
    (hascii : s'.conn.protocol = .ascii_prot) (hneg : s'.negotiating = false) :
    Next s t e s' { s' with conn := d'.stale substate header, opaque_id := opaque_id, cas := cas } := by
  have h' : Alike s' { s' with conn := d'.stale substate header, opaque_id := opaque_id, cas := cas } :=
    ⟨d', substate, header, opaque_id, cas, hd, rfl, .inl hsubstate, .inr (.inr (.inl ⟨hascii, hneg⟩))⟩
  exact h.next h' fun _ _ => h'.response_text e hascii

theorem Alike.read_line {a : Answers} {x : Extern} (h : Alike s t) (hneg : s.negotiating = false)
    (hstate : s.conn.state = .conn_parse_cmd) (hp : s.conn.protocol = .ascii_prot) :
    Option.Rel (Next s t (.drive (.try_read_command a) x)) ((s.conn.try_read_command w a).map s.go)
      ((t.conn.try_read_command w a).map t.go) := by
  obtain ⟨d, header, opaque_id, cas, hd, rfl⟩ := h.parsing hstate
  have hstep := hd.try_read_command w a
  dsimp only
  rw [Conn.try_read_command_line _ _ w a ((hd.field Conn.protocol fun _ _ => rfl).trans hp)]
  generalize hc : s.conn.try_read_command w a = o at hstep ⊢
  generalize d.try_read_command w a = o' at hstep ⊢
  cases hstep with
  | none => exact .none
  | @some c' d' hcd =>
      have hsubstate := Conn.try_read_command_keeps hp hc
      have hascii := Conn.try_read_command_protocol hp hc
      exact .some (h.line (s.go c') hcd hsubstate.symm hascii hneg)

theorem Alike.wait {e : SessionEvent} (h : Alike s t) (hwatched : s.watched = false) (hstate : s.conn.state = .conn_parse_cmd) :
    Next s t e (s.go { s.conn with state := .conn_waiting }) (t.go { t.conn with state := .conn_waiting }) := by
  obtain ⟨d, substate, header, opaque_id, cas, hd, rfl, hsubstate, hheader⟩ := id h
  refine h.next ⟨_, substate, header, opaque_id, cas, hd.state .conn_waiting (by simp), rfl, hsubstate.imp_right fun hreset => ?_,
    hheader.imp_right fun hunread => ?_⟩ fun hwriting _ => by simp [Session.writing, go] at hwriting
  · simp [Reset, hstate] at hreset
  · rcases hunread with ⟨-, hclosing⟩ | hascii | hu
    · simp [hstate] at hclosing
    · exact .inr (.inl hascii)
    · exact .inr (.inr ⟨hu.pos, hu.opcode, hu.opaque_id, hu.cas, by simp [go], by simp [go], by simp [go],
        fun hw => absurd hw (by simp [go, hwatched])⟩)

/-- A whole header is taken over. -/
theorem Alike.read_header {a : Answers} {x : Extern} (h : Alike s t) (hwatched : s.watched = false)
    (hstate : s.conn.state = .conn_parse_cmd) (hp : s.conn.protocol = .binary_prot) (hwhole : ¬ s.conn.rbytes < 24) :
    Option.Rel (Next s t (.drive (.try_read_command a) x))
      ((s.conn.try_read_command w a).map fun c => { s.copy_header w with conn := c })
      ((t.conn.try_read_command w a).map fun c => { t.copy_header w with conn := c }) := by
  obtain ⟨d, header, opaque_id, cas, hd, rfl⟩ := h.parsing hstate
  have hstep := hd.try_read_command w a
  obtain ⟨v, rfl, hv⟩ := id hd
  dsimp only
  rw [Conn.try_read_command_whole (c := { s.conn with sbytes := v }) header w a hp hwhole]
  by_cases hmagic : w.stream s.conn.pos = PROTOCOL_BINARY_REQ
  · rw [copy_header_whole hp hwhole hmagic, copy_header_whole (s := { s with
      conn := Conn.stale { s.conn with sbytes := v } s.conn.substate header, opaque_id := opaque_id, cas := cas }) hp hwhole hmagic]
    exact rel_map hstep fun hcd => h.next_of_twin hcd
  · rw [copy_header_magic hmagic, copy_header_magic (s := { s with
      conn := Conn.stale { s.conn with sbytes := v } s.conn.substate header, opaque_id := opaque_id, cas := cas }) hmagic,
      Conn.try_read_command_magic w a hp hwhole hmagic,
      Conn.try_read_command_magic (c := { s.conn with sbytes := v }) w a hp hwhole hmagic]
    have hd' := hd.set (fun c => { c with binary_header := Header.at_pos w.stream s.conn.pos, state := .conn_closing })
      (fun _ _ => rfl) rfl id (by simp)
    exact .some (h.next ⟨_, s.conn.substate, _, opaque_id, cas, hd', rfl, .inl rfl, .inr (.inl ⟨hwatched, rfl⟩)⟩
      fun hwriting _ => by simp [Session.writing] at hwriting)

/-- A line or a header is read. -/
theorem Alike.try_read_command {a : Answers} {x : Extern} (h : Alike s t) (hwatched : s.watched = false)
    (hneg : s.negotiating = false) (hstate : s.conn.state = .conn_parse_cmd) :
    Option.Rel (Next s t (.drive (.try_read_command a) x))
      ((s.conn.try_read_command w a).map fun c => { s.copy_header w with conn := c })
      ((t.conn.try_read_command w a).map fun c => { t.copy_header w with conn := c }) := by
  have hprotocol : t.conn.protocol = s.conn.protocol := h.conn Conn.protocol (fun _ _ => rfl) fun _ _ _ => rfl
  have hrbytes : t.conn.rbytes = s.conn.rbytes := h.conn Conn.rbytes (fun _ _ => rfl) fun _ _ _ => rfl
  cases hp : s.conn.protocol with
  | ascii_prot =>
      rw [copy_header_ascii hp, copy_header_ascii (hprotocol.trans hp)]
      exact h.read_line hneg hstate hp
  | binary_prot =>
      by_cases hpart : s.conn.rbytes < 24
      · have hpart' : t.conn.rbytes < 24 := by omega
        rw [copy_header_part hpart, copy_header_part hpart', Conn.try_read_command_part w a hp hpart,
          Conn.try_read_command_part w a (hprotocol.trans hp) hpart']
        exact .some (h.wait hwatched hstate)
      · exact h.read_header hwatched hstate hp hpart

/-- A body is complete. -/
theorem Alike.complete_nread {a : Answers} {x : Extern} (h : Alike s t) (hnread : s.conn.state = .conn_nread)
    (hsafe : t.Safe w (.drive (.complete_nread a) x)) :
    Option.Rel (Next s t (.drive (.complete_nread a) x))
      ((s.conn.complete_nread w a).map fun c => { s.external x with conn := c })
      ((t.conn.complete_nread w a).map fun c => { t.external x with conn := c }) := by
  rcases h.reading hnread with ⟨d, hd, rfl⟩ | ⟨hascii, hneg⟩
  · obtain ⟨v, rfl, hv⟩ := id hd
    exact rel_map (hd.complete_nread w a hsafe) fun hcd => h.next_of_twin hcd
  · obtain ⟨d, substate, header, opaque_id, cas, hd, rfl, rfl | ⟨-, hreset⟩, -⟩ := id h
    · have hascii' : (d.stale s.conn.substate header).protocol = .ascii_prot := (hd.field Conn.protocol fun _ _ => rfl).trans hascii
      have hstep := hd.complete_nread_ascii a
      dsimp only
      simp only [Conn.complete_nread, hascii, hascii', Conn.complete_nread_ascii_stale]
      generalize hc : s.conn.complete_nread_ascii a = o at hstep ⊢
      generalize d.complete_nread_ascii a = o' at hstep ⊢
      cases hstep with
      | none => exact .none
      | @some c' d' hcd =>
          have hsubstate := Conn.complete_nread_ascii_keeps hc
          have hp := (Conn.complete_nread_ascii_protocol hc).trans hascii
          exact .some (h.line ((s.external x).go c') hcd hsubstate.symm hp hneg)
    · simp [hnread] at hreset

theorem Alike.process_command (h : Alike s t) (reply : Reply) (x : Extern) :
    Option.Rel (Next s t (.process_command reply x)) (s.process_command w reply x) (t.process_command w reply x) := by
  have hchosen := h.choose_protocol (w := w)
  have hneg : (s.choose_protocol w).negotiating = false := choose_protocol_negotiating
  have hnext {s' t' : Session} (h' : Next (s.choose_protocol w) (t.choose_protocol w) (.process_command reply x) s' t') :
    Next s t (.process_command reply x) s' t' := h'.chosen
  simp only [Session.process_command]
  generalize s.choose_protocol w = s at hchosen hneg hnext ⊢
  generalize t.choose_protocol w = t at hchosen hnext ⊢
  rw [hchosen.field Session.watched fun _ _ _ _ _ _ _ => rfl, hchosen.conn Conn.state (fun _ _ => rfl) fun _ _ _ => rfl,
    hchosen.conn Conn.protocol (fun _ _ => rfl) fun _ _ _ => rfl,
    hchosen.conn (·.command_line w.stream) (fun _ _ => rfl) fun _ _ _ => rfl]
  split
  · exact .none
  next hok =>
  push Not at hok
  obtain ⟨-, hstate, hascii⟩ := hok
  cases s.conn.command_line w.stream with
  | none => exact .none
  | some line =>
      dsimp only
      split
      · exact .none
      · obtain ⟨d, header, opaque_id, cas, hd, rfl⟩ := hchosen.parsing hstate
        have hd' := (hd.process_reply reply).set (fun c => { c with rbytes := c.rbytes - (line.2 - c.pos), pos := line.2 })
          (fun _ _ => rfl) rfl id id
        have hascii' := (Conn.process_reply_protocol (c := s.conn) reply).trans hascii
        dsimp only
        rw [Conn.process_reply_stale]
        exact .some (hnext (hchosen.line { s.external x with
            conn := { Input.process_reply s.conn reply with
              rbytes := (Input.process_reply s.conn reply).rbytes - (line.2 - (Input.process_reply s.conn reply).pos)
              pos := line.2 }
            watched := _ }
          hd' (Conn.process_reply_keeps (c := s.conn) reply).symm hascii' hneg))

theorem choose_protocol_watched : (s.choose_protocol w).watched = s.watched := by
  simp only [choose_protocol]
  split <;> rfl

theorem Alike.drive_step {e : Event} {x : Extern} (h : Alike s t) (hsafe : t.Safe w (.drive e x)) :
    Option.Rel (Next s t (.drive e x)) (s.drive w e x) (t.drive w e x) := by
  have hwatched' : t.watched = s.watched := h.field Session.watched fun _ _ _ _ _ _ _ => rfl
  cases hwatched : s.watched with
  | true =>
      simp only [Session.drive, hwatched', hwatched, if_true]
      exact .none
  | false =>
      have hon : ¬ s.watched = true := by simp [hwatched]
      have hon' : ¬ t.watched = true := by simp [hwatched', hwatched]
      simp only [Session.drive, if_neg hon, if_neg hon']
      cases e with
      | transmit complete =>
          have hleft : t.io_wrapleft = s.io_wrapleft := h.field Session.io_wrapleft fun _ _ _ _ _ _ _ => rfl
          have hstate : t.conn.state = s.conn.state := h.conn Conn.state (fun _ _ => rfl) fun _ _ _ => rfl
          simp only [hleft, hstate]
          split
          · exact .none
          split
          · exact (h.conn_release_items x.io_wrapleft).drive hwatched rfl trivial
          · exact h.drive hwatched rfl trivial
      | reset_cmd_handler => exact h.reset_cmd_handler hwatched
      | try_read_command a =>
          have hchosen := h.choose_protocol (w := w)
          simp only [Conn.drive_machine_command, hchosen.conn Conn.state (fun _ _ => rfl) fun _ _ _ => rfl]
          split
          · next hstate =>
            have hstep := hchosen.try_read_command (w := w) (a := a) (x := x) (choose_protocol_watched.trans hwatched)
              choose_protocol_negotiating hstate
            generalize ((s.choose_protocol w).conn.try_read_command w a).map _ = o at hstep ⊢
            generalize ((t.choose_protocol w).conn.try_read_command w a).map _ = o' at hstep ⊢
            cases hstep with
            | none => exact .none
            | some hnext => exact .some hnext.chosen
          · exact .none
      | complete_nread a =>
          simp only [Conn.drive_machine_nread, h.conn Conn.state (fun _ _ => rfl) fun _ _ _ => rfl,
            h.conn Conn.rlbytes (fun _ _ => rfl) fun _ _ _ => rfl]
          split
          · next hnread => exact h.complete_nread hnread.1 hsafe
          · exact .none
      | _ => exact h.drive hwatched rfl hsafe

theorem Alike.extstore_submit (h : Alike s t) :
    Option.Rel (Next s t .extstore_submit) s.extstore_submit t.extstore_submit := by
  have hstate : t.conn.state = s.conn.state := h.conn Conn.state (fun _ _ => rfl) fun _ _ _ => rfl
  have hwatched : t.watched = s.watched := h.field Session.watched fun _ _ _ _ _ _ _ => rfl
  have hleft : t.io_wrapleft = s.io_wrapleft := h.field Session.io_wrapleft fun _ _ _ _ _ _ _ => rfl
  have hqueued : t.io_queued = s.io_queued := h.field Session.io_queued fun _ _ _ _ _ _ _ => rfl
  have hlist : t.io_wraplist = s.io_wraplist := h.field Session.io_wraplist fun _ _ _ _ _ _ _ => rfl
  refine rel_guard (by rw [hstate, hwatched, hleft, hqueued, hlist]) fun hsubmit => ?_
  have hwriting := hsubmit.2.1
  obtain ⟨d, substate, header, opaque_id, cas, hd, rfl, rfl | ⟨-, hreset⟩, hheader⟩ := id h
  · refine h.next ⟨d, s.conn.substate, header, opaque_id, cas, hd, rfl, .inl rfl, hheader.imp_right fun hunread => ?_⟩
      fun _ hbefore => by simp [Session.writing, hwriting] at hbefore
    rcases hunread with ⟨-, hclosing⟩ | hascii | hu
    · simp [hclosing] at hwriting
    · exact .inr (.inl hascii)
    · exact .inr (.inr ⟨hu.pos, hu.opcode, hu.opaque_id, hu.cas, hu.nread, hu.swallow, hu.last, fun _ => hwriting.symm⟩)
  · rcases hreset with hreset | hreset <;> simp [hreset] at hwriting

theorem Alike.conn_worker_readd (h : Alike s t) (io_wrapleft : Int) (io_queued : Bool) :
    Option.Rel (Next s t (.conn_worker_readd io_wrapleft io_queued)) (s.conn_worker_readd io_wrapleft io_queued)
      (t.conn_worker_readd io_wrapleft io_queued) := by
  have hwatched' : t.watched = s.watched := h.field Session.watched fun _ _ _ _ _ _ _ => rfl
  refine rel_guard (by rw [hwatched']) fun hwatched => ?_
  obtain ⟨d, substate, header, opaque_id, cas, hd, rfl, rfl | ⟨hoff, -⟩, hheader⟩ := id h
  · have hd' : Conn.Twin { s.conn with state := if s.io_wraplist = [] then .conn_new_cmd else .conn_mwrite }
        { d with state := if s.io_wraplist = [] then .conn_new_cmd else .conn_mwrite } := hd.state _ (by split <;> simp)
    rcases hheader with ⟨rfl, rfl, rfl⟩ | ⟨hoff, -⟩ | hascii | hu
    · obtain ⟨v, rfl, -⟩ := hd
      refine h.next_of_twin ?_
      exact hd'
    · rw [hoff] at hwatched
      cases hwatched
    · exact h.line { s with
        watched := false
        io_wrapleft := io_wrapleft
        io_queued := io_queued
        conn := { s.conn with state := if s.io_wraplist = [] then .conn_new_cmd else .conn_mwrite } } hd' rfl hascii.1 hascii.2
    · have hwriting := hu.watched hwatched
      refine h.next ⟨_, s.conn.substate, header, opaque_id, cas, hd', rfl, .inl rfl, .inr (.inr (.inr
        ⟨hu.pos, hu.opcode, hu.opaque_id, hu.cas, ?_, ?_, fun _ => hu.last hwriting, by simp⟩))⟩
        fun _ hbefore => by simp [Session.writing, hwriting.symm] at hbefore
      all_goals
        dsimp only
        split <;> simp
  · rw [hoff] at hwatched
    cases hwatched

/-- A step of both. -/
theorem Alike.step (h : Alike s t) (e : SessionEvent) (hsafe : t.Safe w e) :
    Option.Rel (Next s t e) (s.step w e) (t.step w e) := by
  have hwatched : t.watched = s.watched := h.field Session.watched fun _ _ _ _ _ _ _ => rfl
  have hstate : t.conn.state = s.conn.state := h.conn Conn.state (fun _ _ => rfl) fun _ _ _ => rfl
  cases e with
  | drive e x => exact h.drive_step hsafe
  | process_command reply x => exact h.process_command reply x
  | extstore_submit => exact h.extstore_submit
  | conn_worker_readd io_wrapleft io_queued => exact h.conn_worker_readd io_wrapleft io_queued
  | conn_close_idle => exact rel_guard (by rw [hwatched, hstate]) fun hidle => h.close hidle.1
  | conn_yield ok =>
      have hrbytes : t.conn.rbytes = s.conn.rbytes := h.conn Conn.rbytes (fun _ _ => rfl) fun _ _ _ => rfl
      refine rel_guard (by rw [hwatched, hstate]) fun hnew => ?_
      by_cases hmore : s.conn.rbytes > 0 ∧ !ok
      · rw [if_pos hmore, if_pos (hrbytes ▸ hmore)]
        exact h.close hnew.1
      · rw [if_neg hmore, if_neg (hrbytes ▸ hmore)]
        exact h.next h fun hwriting hbefore => by simp [hwriting] at hbefore
  | update_event_failed => exact rel_guard (by rw [hwatched, hstate]) fun hbody => h.close hbody.1

/-- What is seen of a run is the same. -/
theorem Alike.observe (h : Alike s t) {es : List SessionEvent} (hsafe : SafeRun w t es) :
    Session.observe w s es = Session.observe w t es := by
  induction es generalizing s t with
  | nil => rfl
  | cons e es ih =>
      have hstep := h.step e hsafe.1
      simp only [Session.observe]
      generalize s.step w e = o at hstep ⊢
      generalize ht : t.step w e = o' at hstep ⊢
      cases hstep with
      | none => rfl
      | @some s' t' hnext => simp only [hnext.2, ih hnext.1 (hsafe.2 t' ht)]

/-! ## One connection after the other -/

variable {old : Session} {io_wrapleft : Int} {binding_protocol : Option Protocol}

theorem conn_new_alike (hleft : (old.conn_close io_wrapleft).io_wrapleft = 0) (hqueued : old.io_queued = false) :
    Alike (calloc.conn_new binding_protocol) ((old.conn_close io_wrapleft).conn_new binding_protocol) := by
  refine ⟨{ (calloc.conn_new binding_protocol).conn with sbytes := old.conn.sbytes }, old.conn.substate, old.conn.binary_header,
    old.opaque_id, old.cas, ⟨_, rfl, .inr ⟨le_refl 0, .inr ⟨nofun, nofun⟩⟩⟩, ?_, .inr ⟨rfl, .inl rfl⟩, .inr (.inr (.inr ?_))⟩
  · obtain ⟨c, negotiating, watched, opaque_id, cas, io_wraplist, left, io_queued⟩ := old
    subst hqueued
    dsimp only [conn_close, Session.conn_release_items] at hleft
    dsimp only [conn_close, Session.conn_release_items, conn_new]
    rw [hleft]
    rfl
  · exact ⟨rfl, rfl, rfl, rfl, nofun, nofun, nofun, nofun⟩

/-- Whatever the connections before it did, and in whatever state the last was closed. -/
theorem recycled_as_new (hleft : (old.conn_close io_wrapleft).io_wrapleft = 0) (hqueued : old.io_queued = false)
    {w : World} {es : List SessionEvent} (hsafe : SafeRun w ((old.conn_close io_wrapleft).conn_new binding_protocol) es) :
    observe w ((old.conn_close io_wrapleft).conn_new binding_protocol) es = observe w (calloc.conn_new binding_protocol) es ∧
      ((old.conn_close io_wrapleft).conn_new binding_protocol).io_wraplist = [] ∧
      ((old.conn_close io_wrapleft).conn_new binding_protocol).io_wrapleft = 0 ∧
      ((old.conn_close io_wrapleft).conn_new binding_protocol).io_queued = false ∧
      ((old.conn_close io_wrapleft).conn_new binding_protocol).conn.authenticated = false ∧
      ((old.conn_close io_wrapleft).conn_new binding_protocol).conn.sasl_conn = false :=
  ⟨((conn_new_alike hleft hqueued).observe hsafe).symm, rfl, hleft, hqueued, rfl, rfl⟩

/-- A header of SASL authentication with a mechanism of 33 bytes, longer than any; `bodylen` is that and a body. -/
def sasl_stream (bodylen : UInt8) (p : Nat) : UInt8 := ([0x80, 0x21, 0, 33, 0, 0, 0, 0, 0, 0, 0, bodylen] : List UInt8).getD p 0

def sasl_session (bodylen : UInt8) : World := ⟨sasl_stream bodylen, ⟨true, true⟩, ⟨fun _ => none, fun _ => none, fun _ => none⟩⟩

/-- The header and the mechanism arrive, and the answer is sent. -/
def sasl_request : List SessionEvent :=
  [.reset_cmd_handler, .update_event true, .try_read_network (.data 57), .try_read_command .good, .leftovers,
    .complete_nread .good, .transmit true].map fun e => .drive e ⟨none, [], 0⟩

/-- The session after `es`. -/
def after (w : World) (s : Session) (es : List SessionEvent) : Option Session := es.foldlM (step w) s

/-- A connection whose peer is gone before the body arrives. -/
def refused : Session :=
  (after (sasl_session 133) (calloc.conn_new (some .binary_prot)) (sasl_request ++ [.drive (.read .eof) ⟨none, [], 0⟩])).getD calloc

/-- Nothing of it is left where the next header and its key are read. -/
theorem recycled_as_new_witness :
    observe (sasl_session 33) ((refused.conn_close 0).conn_new (some .binary_prot)) (sasl_request.take 5) =
      observe (sasl_session 33) (calloc.conn_new (some .binary_prot)) (sasl_request.take 5) ∧
      ((refused.conn_close 0).conn_new (some .binary_prot)).io_wraplist = [] ∧
      ((refused.conn_close 0).conn_new (some .binary_prot)).io_wrapleft = 0 ∧
      ((refused.conn_close 0).conn_new (some .binary_prot)).io_queued = false ∧
      ((refused.conn_close 0).conn_new (some .binary_prot)).conn.authenticated = false ∧
      ((refused.conn_close 0).conn_new (some .binary_prot)).conn.sasl_conn = false :=
  recycled_as_new (by decide +kernel) (by decide +kernel) ⟨trivial, fun _ _ => ⟨trivial, fun _ _ => ⟨trivial, fun _ _ =>
    ⟨trivial, fun _ _ => ⟨trivial, fun _ _ => trivial⟩⟩⟩⟩⟩

/-- A body that the last client never sent is swallowed from the next one's requests. -/
theorem recycled_swallows : ¬ ∀ (w : World) (old : Session) (io_wrapleft : Int) (binding_protocol : Option Protocol)
    (es : List SessionEvent), (∃ w' bp' es', old ∈ after w' (calloc.conn_new bp') es') →
    observe w ((old.conn_close io_wrapleft).conn_new binding_protocol) es = observe w (calloc.conn_new binding_protocol) es := by
  intro h
  have hrun : refused ∈ after (sasl_session 133) (calloc.conn_new (some .binary_prot))
      (sasl_request ++ [.drive (.read .eof) ⟨none, [], 0⟩]) := by decide +kernel
  have hseen := h (sasl_session 33) refused 0 (some .binary_prot) (sasl_request ++ [.drive .swallowed ⟨none, [], 0⟩])
    ⟨_, _, _, hrun⟩
  exact absurd hseen (by decide +kernel)

end Memcached.Thread.Session

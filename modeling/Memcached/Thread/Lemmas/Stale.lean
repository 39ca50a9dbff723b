import Memcached.Thread.Lemmas.Session

/-!
# Connections that differ in the last header

Between two requests, and in the ASCII protocol, the header of an earlier request and the substate are not looked at.
-/

namespace Memcached.Thread

namespace Conn

variable {c : Conn}

/-- The substate and the header of an earlier request. -/
def stale (c : Conn) (substate : BinSubstate) (header : Header) : Conn := { c with substate := substate, binary_header := header }

variable (substate : BinSubstate) (header : Header)

@[simp] theorem stale_self : c.stale c.substate c.binary_header = c := rfl

theorem write_bin_error_stale (n : Int) : (c.stale substate header).write_bin_error n = (c.write_bin_error n).stale substate header := by
  simp only [write_bin_error]
  split <;> rfl

theorem out_string_stale : (c.stale substate header).out_string = c.out_string.stale substate header := by
  cases hn : c.noreply <;> simp [out_string, stale, hn]

theorem out_of_memory_stale : (c.stale substate header).out_of_memory = c.out_of_memory.stale substate header := by
  cases hp : c.protocol with
  | binary_prot => simpa [out_of_memory, hp, stale] using c.write_bin_error_stale substate header 0
  | ascii_prot => simpa [out_of_memory, hp, stale] using c.out_string_stale substate header

theorem network_read_stale (res : ReadResult) :
    (c.stale substate header).network_read res = (c.network_read res).stale substate header := by
  cases res with
  | no_memory =>
      have h := out_of_memory_stale (c := { c with rbytes := 0 }) substate header
      exact congrArg (fun c : Conn => { c with write_and_go := .conn_closing }) h
  | _ => rfl

theorem nread_failed_stale (res : ReadResult) :
    (c.stale substate header).nread_failed res = (c.nread_failed res).stale substate header := by
  cases res with
  | no_memory =>
      exact congrArg (fun c' : Conn => { c' with sbytes := c.rlbytes, write_and_go := .conn_swallow })
        (c.out_of_memory_stale substate header)
  | _ => rfl

/-! ## The ASCII protocol -/

theorem set_noreply_maybe_stale (tokens : List (List UInt8)) :
    (c.stale substate header).set_noreply_maybe tokens = (c.set_noreply_maybe tokens).stale substate header := by
  simp only [set_noreply_maybe]
  split <;> rfl

theorem read_block_stale (nkey : Nat) (vlen : Int) (comm : Comm) (a : Answers) :
    (c.stale substate header).read_block nkey vlen comm a = (c.read_block nkey vlen comm a).stale substate header := by
  simp only [read_block]
  cases a.item_alloc with
  | some chunked => rfl
  | none =>
      have hstring := out_string_stale (c := { c with value_allocs := vlen :: c.value_allocs }) substate header
      have hmemory := out_of_memory_stale (c := { c with value_allocs := vlen :: c.value_allocs }) substate header
      dsimp only
      split
      · exact congrArg (fun c : Conn => { c with write_and_go := .conn_swallow, sbytes := vlen }) hstring
      · exact congrArg (fun c : Conn => { c with write_and_go := .conn_swallow, sbytes := vlen }) hmemory

theorem process_command_stale (numbers : Numbers) (command : List UInt8) (a : Answers) :
    (c.stale substate header).process_command numbers command a =
      (c.process_command numbers command a).map (·.stale substate header) := by
  simp only [process_command, Option.map_map]
  congr 1
  funext update
  simp only [Function.comp, process_update_command, set_noreply_maybe_stale, out_string_stale, read_block_stale]
  split_ifs
  · rfl
  · split <;> rfl
  · split
    · split <;> rfl
    · rfl

theorem complete_nread_ascii_stale (a : Answers) :
    (c.stale substate header).complete_nread_ascii a = (c.complete_nread_ascii a).map (·.stale substate header) := by
  have hitem : (c.stale substate header).item = c.item := rfl
  have hstring : { (c.stale substate header).out_string with item := none } = { c.out_string with item := none }.stale substate header :=
    congrArg (fun c : Conn => { c with item := none }) (c.out_string_stale substate header)
  simp only [complete_nread_ascii, hitem, hstring]
  cases c.item with
  | none => rfl
  | some it =>
      dsimp only
      split_ifs
      · rfl
      · rfl
      · cases a.store_item <;> rfl

theorem process_reply_stale (reply : Reply) :
    Input.process_reply (c.stale substate header) reply = (Input.process_reply c reply).stale substate header := by
  cases reply with
  | out_string noreply => exact out_string_stale (c := { c with noreply := c.noreply || noreply }) substate header
  | _ => rfl

/-! ## Steps -/

/-- The events in which the substate or the header is looked at, or the substate is set. -/
def reads_header : Event → Bool
  | .try_read_command _ | .complete_nread _ | .reset_cmd_handler => true
  | _ => false

theorem map_ite {α β : Type} {p : Prop} [Decidable p] {x : α} {y : β} {f : α → β} (h : y = f x) :
    (if p then some y else none) = (if p then some x else none).map f := by
  subst h
  split <;> rfl

theorem drive_machine_stale (w : World) {e : Event} (he : reads_header e = false) :
    (c.stale substate header).drive_machine w e = (c.drive_machine w e).map (·.stale substate header) := by
  obtain ⟨protocol, state, go, sub, cmd, noreply, authenticated, sasl_conn, hdr, pos, rbytes, rlbytes, sbytes, item,
    allocs⟩ := c
  cases state with
  | conn_new_cmd => cases e <;> first | rfl | cases he
  | conn_waiting => cases e <;> rfl
  | conn_read =>
      cases e with
      | try_read_network res =>
          cases res with
          | data res => exact map_ite (network_read_stale substate header (.data res))
          | _ => exact congrArg some (network_read_stale substate header _)
      | _ => rfl
  | conn_parse_cmd => cases e <;> first | rfl | cases he
  | conn_nread =>
      cases e with
      | complete_nread a => cases he
      | invalid_rlbytes => exact map_ite rfl
      | leftovers => exact map_ite rfl
      | read res =>
          cases res with
          | data res => exact map_ite rfl
          | no_memory => rfl
          | _ => exact map_ite (nread_failed_stale substate header _)
      | read_into_chunked_item consumed res =>
          exact map_ite (nread_failed_stale (c := Conn.fill ⟨protocol, .conn_nread, go, sub, cmd, noreply, authenticated,
            sasl_conn, hdr, pos, rbytes, rlbytes, sbytes, item, allocs⟩ consumed) substate header res)
      | _ => rfl
  | conn_swallow =>
      cases e with
      | swallowed => exact map_ite rfl
      | leftovers => exact map_ite rfl
      | read res => cases res <;> exact map_ite rfl
      | _ => rfl
  | conn_write => cases e <;> first | rfl | (rename_i complete; cases complete <;> rfl)
  | conn_mwrite => cases e <;> first | rfl | (rename_i complete; cases complete <;> rfl)
  | conn_closing => cases e <;> rfl

/-- Such a step keeps them. -/
theorem drive_machine_keeps {w : World} {e : Event} {c' : Conn} (he : reads_header e = false)
    (h : c.drive_machine w e = some c') : c'.substate = c.substate ∧ c'.binary_header = c.binary_header := by
  have hstale := drive_machine_stale (c := c) c.substate c.binary_header w he
  rw [stale_self, h, Option.map_some, Option.some.injEq] at hstale
  have hsubstate := congrArg Conn.substate hstale
  have hheader := congrArg Conn.binary_header hstale
  exact ⟨hsubstate, hheader⟩

theorem out_string_keeps : c.out_string.protocol = c.protocol ∧ c.out_string.pos = c.pos := by
  simp only [out_string]
  split <;> exact ⟨rfl, rfl⟩

theorem out_of_memory_keeps : c.out_of_memory.protocol = c.protocol ∧ c.out_of_memory.pos = c.pos := by
  cases hp : c.protocol with
  | binary_prot => simp [out_of_memory, hp, write_bin_error]
  | ascii_prot => simpa [out_of_memory, hp] using c.out_string_keeps

theorem network_read_keeps (res : ReadResult) :
    (c.network_read res).protocol = c.protocol ∧ (c.network_read res).pos = c.pos := by
  cases res with
  | no_memory => exact out_of_memory_keeps (c := { c with rbytes := 0 })
  | _ => exact ⟨rfl, rfl⟩

theorem nread_failed_keeps (res : ReadResult) : (c.nread_failed res).protocol = c.protocol := by
  cases res with
  | no_memory => exact c.out_of_memory_keeps.1
  | _ => rfl

/-- What such a step does, outside of a body. -/
theorem drive_machine_cases {w : World} {e : Event} {c' : Conn} (he : reads_header e = false)
    (h : c.drive_machine w e = some c') :
    (c.state = .conn_nread ∨ c.state = .conn_swallow) ∧ c'.protocol = c.protocol ∨
    (∃ res, e = .try_read_network res ∧ c' = c.network_read res) ∨
    ∃ state, c' = { c with state := state } ∧ (state = .conn_read ∨ state = .conn_closing ∨ state = .conn_new_cmd ∨
      (c.state = .conn_write ∨ c.state = .conn_mwrite) ∧ state = c.write_and_go) := by
  cases hstate : c.state with
  | conn_new_cmd => cases e <;> simp_all [drive_machine, reads_header]
  | conn_parse_cmd => cases e <;> simp_all [drive_machine, reads_header]
  | conn_closing => cases e <;> simp [drive_machine, hstate] at h
  | conn_waiting =>
      cases e with
      | update_event ok =>
          simp only [drive_machine, hstate, Option.some.injEq] at h
          refine .inr (.inr ⟨_, h.symm, ?_⟩)
          cases ok <;> simp
      | _ => simp [drive_machine, hstate] at h
  | conn_read =>
      cases e with
      | try_read_network res =>
          refine .inr (.inl ⟨res, rfl, ?_⟩)
          cases res <;> simp only [drive_machine, hstate, Option.ite_none_right_eq_some, Option.some.injEq] at h
          · exact h.2.symm
          all_goals exact h.symm
      | _ => simp [drive_machine, hstate] at h
  | conn_nread =>
      refine .inl ⟨.inl rfl, ?_⟩
      cases e with
      | complete_nread a => cases he
      | invalid_rlbytes =>
          simp only [drive_machine, hstate, Option.ite_none_right_eq_some, Option.some.injEq] at h
          exact h.2 ▸ rfl
      | leftovers =>
          simp only [drive_machine, hstate, Option.ite_none_right_eq_some, Option.some.injEq] at h
          exact h.2 ▸ rfl
      | read res =>
          cases res <;> simp only [drive_machine, hstate, Option.ite_none_right_eq_some, Option.some.injEq, reduceCtorEq] at h
          · exact h.2 ▸ rfl
          all_goals exact h.2 ▸ nread_failed_keeps _
      | read_into_chunked_item consumed res =>
          simp only [drive_machine, hstate, Option.ite_none_right_eq_some, Option.some.injEq] at h
          exact h.2 ▸ nread_failed_keeps (c := c.fill consumed) res
      | _ => simp [drive_machine, hstate] at h
  | conn_swallow =>
      refine .inl ⟨.inr rfl, ?_⟩
      cases e with
      | swallowed =>
          simp only [drive_machine, hstate, Option.ite_none_right_eq_some, Option.some.injEq] at h
          exact h.2 ▸ rfl
      | leftovers =>
          simp only [drive_machine, hstate, Option.ite_none_right_eq_some, Option.some.injEq] at h
          exact h.2 ▸ rfl
      | read res =>
          cases res <;> simp only [drive_machine, hstate, Option.ite_none_right_eq_some, Option.some.injEq] at h <;>
            exact h.2 ▸ rfl
      | _ => simp [drive_machine, hstate] at h
  | conn_write =>
      cases e with
      | transmit complete =>
          cases complete <;> simp only [drive_machine, hstate, Option.some.injEq] at h
          · exact .inr (.inr ⟨_, h.symm, .inr (.inl rfl)⟩)
          · exact .inr (.inr ⟨_, h.symm, .inr (.inr (.inr ⟨.inl rfl, rfl⟩))⟩)
      | _ => simp [drive_machine, hstate] at h
  | conn_mwrite =>
      cases e with
      | transmit complete =>
          cases complete <;> simp only [drive_machine, hstate, Option.some.injEq] at h
          · exact .inr (.inr ⟨_, h.symm, .inr (.inl rfl)⟩)
          · refine .inr (.inr ⟨_, h.symm, ?_⟩)
            split
            · exact .inr (.inr (.inr ⟨.inr rfl, rfl⟩))
            · exact .inr (.inr (.inl rfl))
      | _ => simp [drive_machine, hstate] at h

theorem drive_machine_protocol {w : World} {e : Event} {c' : Conn} (he : reads_header e = false)
    (h : c.drive_machine w e = some c') : c'.protocol = c.protocol := by
  rcases drive_machine_cases he h with ⟨-, hp⟩ | ⟨res, -, rfl⟩ | ⟨state, rfl, -⟩
  · exact hp
  · exact (network_read_keeps res).1
  · rfl

theorem drive_machine_reset (w : World) :
    c.drive_machine w .reset_cmd_handler = if c.state = .conn_new_cmd then some c.reset_cmd_handler else none := by
  cases hstate : c.state <;> simp [drive_machine, hstate]

theorem drive_machine_command (w : World) (a : Answers) :
    c.drive_machine w (.try_read_command a) = if c.state = .conn_parse_cmd then c.try_read_command w a else none := by
  cases hstate : c.state <;> simp [drive_machine, hstate]

theorem drive_machine_nread (w : World) (a : Answers) :
    c.drive_machine w (.complete_nread a) =
      if c.state = .conn_nread ∧ c.rlbytes = 0 then c.complete_nread w a else none := by
  cases hstate : c.state <;> simp [drive_machine, hstate]

/-- The next state after `conn_new_cmd`. -/
theorem reset_cmd_handler_state : c.reset_cmd_handler.state = .conn_parse_cmd ∨ c.reset_cmd_handler.state = .conn_waiting := by
  simp only [reset_cmd_handler]
  split <;> simp

/-- A line. -/
theorem try_read_command_line (w : World) (a : Answers) (hp : c.protocol = .ascii_prot) :
    (c.stale substate header).try_read_command w a = (c.try_read_command w a).map (·.stale substate header) := by
  have hline : (c.stale substate header).command_line w.stream = c.command_line w.stream := rfl
  have hp' : (c.stale substate header).protocol = .ascii_prot := hp
  simp only [try_read_command, hp, hp', hline]
  cases c.command_line w.stream with
  | none => rfl
  | some line =>
      simp only [process_command_stale, Option.map_map]
      rfl

theorem process_command_protocol {numbers : Numbers} {command : List UInt8} {a : Answers} {c' : Conn}
    (h : c.process_command numbers command a = some c') : c'.protocol = c.protocol := by
  obtain ⟨update, -, rfl⟩ := Option.map_eq_some_iff.mp h
  have hnoreply (tokens : List (List UInt8)) : (c.set_noreply_maybe tokens).protocol = c.protocol := by
    simp only [set_noreply_maybe]
    split <;> rfl
  have hstring := (c.set_noreply_maybe (tokenize_command command)).out_string_keeps.1.trans (hnoreply _)
  have hblock (nkey : Nat) (vlen : Int) (comm : Comm) :
      ((c.set_noreply_maybe (tokenize_command command)).read_block nkey vlen comm a).protocol = c.protocol := by
    simp only [read_block]
    cases a.item_alloc with
    | some chunked => exact hnoreply _
    | none =>
        dsimp only
        split
        · exact out_string_keeps.1.trans (hnoreply _)
        · exact out_of_memory_keeps.1.trans (hnoreply _)
  simp only [process_update_command]
  split_ifs
  · exact hstring
  · split <;> exact hstring
  · split
    · split
      · exact hstring
      · exact hblock _ _ _
    · exact hstring

theorem complete_nread_ascii_protocol {a : Answers} {c' : Conn} (h : c.complete_nread_ascii a = some c') :
    c'.protocol = c.protocol := by
  simp only [complete_nread_ascii] at h
  cases hit : c.item with
  | none => simp [hit] at h
  | some it =>
      simp only [hit] at h
      split_ifs at h
      · exact Option.some.inj h ▸ c.out_string_keeps.1
      · cases hs : a.store_item <;> simp only [hs, Option.some.injEq] at h <;> subst h
        all_goals first
          | rfl
          | exact c.out_string_keeps.1

theorem complete_nread_ascii_keeps {a : Answers} {c' : Conn} (h : c.complete_nread_ascii a = some c') :
    c'.substate = c.substate := by
  have hstale := complete_nread_ascii_stale (c := c) c.substate c.binary_header a
  rw [stale_self, h, Option.map_some, Option.some.injEq] at hstale
  have hsubstate := congrArg Conn.substate hstale
  exact hsubstate

theorem process_reply_keeps (reply : Reply) : (Input.process_reply c reply).substate = c.substate := by
  have hstale := process_reply_stale (c := c) c.substate c.binary_header reply
  have hsubstate := congrArg Conn.substate hstale
  exact hsubstate

theorem process_reply_protocol (reply : Reply) : (Input.process_reply c reply).protocol = c.protocol := by
  cases reply with
  | out_string noreply => exact (out_string_keeps (c := { c with noreply := c.noreply || noreply })).1
  | _ => rfl

theorem try_read_command_protocol {w : World} {a : Answers} {c' : Conn} (hp : c.protocol = .ascii_prot)
    (h : c.try_read_command w a = some c') : c'.protocol = .ascii_prot := by
  simp only [try_read_command, hp] at h
  cases hline : c.command_line w.stream with
  | none =>
      simp only [hline, Option.some.injEq] at h
      subst h
      rfl
  | some line =>
      simp only [hline] at h
      obtain ⟨c₁, hc₁, rfl⟩ := Option.map_eq_some_iff.mp h
      exact (process_command_protocol hc₁).trans hp

/-- A line leaves the substate. -/
theorem try_read_command_keeps {w : World} {a : Answers} {c' : Conn} (hp : c.protocol = .ascii_prot)
    (h : c.try_read_command w a = some c') : c'.substate = c.substate := by
  have hstale := try_read_command_line (c := c) c.substate c.binary_header w a hp
  rw [stale_self, h, Option.map_some, Option.some.injEq] at hstale
  have hsubstate := congrArg Conn.substate hstale
  exact hsubstate

/-- Part of a header. -/
theorem try_read_command_part (w : World) (a : Answers) (hp : c.protocol = .binary_prot) (hpart : c.rbytes < 24) :
    c.try_read_command w a = some { c with state := .conn_waiting } := by
  simp only [try_read_command, hp, hpart, if_true]

/-- A whole header takes the place of the last one. -/
theorem try_read_command_whole (w : World) (a : Answers) (hp : c.protocol = .binary_prot) (hwhole : ¬ c.rbytes < 24) :
    (c.stale c.substate header).try_read_command w a = c.try_read_command w a := by
  have hp' : (c.stale c.substate header).protocol = .binary_prot := hp
  have hwhole' : ¬ (c.stale c.substate header).rbytes < 24 := hwhole
  simp only [try_read_command, hp, hp', hwhole, hwhole', if_false]
  rfl

/-- It does not begin a request. -/
theorem try_read_command_magic (w : World) (a : Answers) (hp : c.protocol = .binary_prot) (hwhole : ¬ c.rbytes < 24)
    (hmagic : w.stream c.pos ≠ PROTOCOL_BINARY_REQ) : c.try_read_command w a =
      some { c with binary_header := Header.at_pos w.stream c.pos, state := .conn_closing } := by
  simp only [try_read_command, hp, hwhole, if_false]
  exact if_pos hmagic

end Conn

end Memcached.Thread

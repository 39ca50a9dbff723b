import Memcached.Thread.Lemmas.BinaryHandlers
import Memcached.Thread.Sasl

/-!
# Who may run a command

`authenticated` is set by a SASL exchange that ends with SASL_OK and by nothing else, and every exchange starts by
clearing it. While a connection reads for a command that needs authentication, it is set.
-/

namespace Memcached.Thread

namespace Conn

variable {settings : Settings} {c c' : Conn}

/-! ## Replies -/

/-- Neither the protocol nor the authentication changes, and nothing is read for a command. -/
structure Done (c c' : Conn) : Prop where
  protocol : c'.protocol = c.protocol
  authenticated : c'.authenticated = c.authenticated
  state : c'.state ≠ .conn_nread
  write_and_go : c'.write_and_go = c.write_and_go ∨ c'.write_and_go ≠ .conn_nread

theorem Done.trans {c₁ : Conn} (h : Done c c₁) (h' : Done c₁ c') : Done c c' := by
  refine ⟨h'.protocol.trans h.protocol, h'.authenticated.trans h.authenticated, h'.state, ?_⟩
  rcases h'.write_and_go with he | hne
  · exact he ▸ h.write_and_go
  · exact .inr hne

theorem write_bin_error_done (c : Conn) (n : Int) : Done c (c.write_bin_error n) := by
  unfold write_bin_error
  split <;> exact ⟨rfl, rfl, by simp, .inr (by simp)⟩

theorem write_bin_response_done (c : Conn) : Done c c.write_bin_response := by
  unfold write_bin_response
  split
  · exact ⟨rfl, rfl, by simp, .inr (by simp)⟩
  · exact ⟨rfl, rfl, by simp, .inl rfl⟩

theorem out_of_memory_done (hp : c.protocol = .binary_prot) : Done c c.out_of_memory := by
  simp only [out_of_memory, hp]
  exact c.write_bin_error_done 0

theorem Done.go (h : Done c c') {k : ConnState} (hk : k ≠ .conn_nread) : Done c { c' with write_and_go := k } :=
  ⟨h.protocol, h.authenticated, h.state, .inr hk⟩

theorem out_of_memory_swallow_done (hp : c.protocol = .binary_prot) (n : Int) :
    Done c { c.out_of_memory with sbytes := n, write_and_go := .conn_swallow } := by
  have h := out_of_memory_done hp
  exact ⟨h.protocol, h.authenticated, h.state, .inr (by simp)⟩

theorem Done.noted {l : List Int} (h : Done { c with value_allocs := l } c') : Done c c' :=
  ⟨h.protocol, h.authenticated, h.state, h.write_and_go⟩

/-! ## The invariant -/

/-- What `last` says about the authentication of `c`, with SASL on. -/
structure Gated (c : Conn) (last : Option SaslResult) : Prop where
  protocol : c.protocol = .binary_prot
  authenticated : c.authenticated = true → last = some .SASL_OK
  nread : c.state = .conn_nread → (Executed.completed c.substate).needs_no_auth ∨ c.authenticated = true
  write_and_go : c.write_and_go ≠ .conn_nread

variable {last : Option SaslResult}

theorem Done.gated (h : Done c c') (hg : Gated c last) : Gated c' last := by
  refine ⟨h.protocol.trans hg.protocol, fun ha => hg.authenticated (h.authenticated ▸ ha), fun hst => absurd hst h.state, ?_⟩
  rcases h.write_and_go with he | hne
  · exact he ▸ hg.write_and_go
  · exact hne

/-- A handler that may have the value read next. -/
structure Handled (c c' : Conn) : Prop where
  protocol : c'.protocol = c.protocol
  authenticated : c'.authenticated = c.authenticated
  nread : c'.state = .conn_nread → (Executed.completed c'.substate).needs_no_auth ∨ c.authenticated = true
  write_and_go : c'.write_and_go = c.write_and_go ∨ c'.write_and_go ≠ .conn_nread

theorem Done.handled (h : Done c c') : Handled c c' :=
  ⟨h.protocol, h.authenticated, fun hst => absurd hst h.state, h.write_and_go⟩

theorem Handled.gated (h : Handled c c') (hg : Gated c last) : Gated c' last := by
  refine ⟨h.protocol.trans hg.protocol, fun ha => hg.authenticated (h.authenticated ▸ ha), fun hst => ?_, ?_⟩
  · rw [h.authenticated]
    exact h.nread hst
  · rcases h.write_and_go with he | hne
    · exact he ▸ hg.write_and_go
    · exact hne

/-! ## Dispatch -/

theorem bin_read_key_handled {sub : BinSubstate} {extra : Nat} (ok : Bool)
    (h : (Executed.completed sub).needs_no_auth ∨ c.authenticated = true) : Handled c (c.bin_read_key sub extra ok) := by
  cases ok with
  | false => exact ⟨rfl, rfl, nofun, .inl rfl⟩
  | true => exact ⟨rfl, rfl, fun _ => h, .inl rfl⟩

theorem handle_binary_protocol_error_done (c : Conn) : Done c c.handle_binary_protocol_error :=
  (c.write_bin_error_done 0).go nofun

theorem Done.gated_of {c₁ : Conn} (h : Done c₁ c') (hp : c₁.protocol = .binary_prot)
    (ha : c₁.authenticated = true → last = some .SASL_OK) (hgo : c₁.write_and_go ≠ .conn_nread) : Gated c' last := by
  refine ⟨h.protocol.trans hp, fun ha' => ha (h.authenticated ▸ ha'), fun hst => absurd hst h.state, ?_⟩
  rcases h.write_and_go with he | hne
  · exact he ▸ hgo
  · exact hne

theorem init_sasl_conn_cleared (hs : settings.sasl = true) (a : Answers) :
    ∃ k, c.init_sasl_conn settings a = { c with authenticated := false, sasl_conn := k } := by
  simp [init_sasl_conn, hs]

theorem bin_list_sasl_mechs_gated (hs : settings.sasl = true) (hg : Gated c last) (a : Answers) :
    Gated (c.bin_list_sasl_mechs settings a) last := by
  obtain ⟨k, hinit⟩ := init_sasl_conn_cleared (c := c) hs a
  simp only [bin_list_sasl_mechs, hs, hinit, Bool.not_true, Bool.false_eq_true, ↓reduceIte]
  split
  · exact (write_bin_error_done _ 0).gated_of hg.protocol nofun hg.write_and_go
  · exact (write_bin_response_done _).gated_of hg.protocol nofun hg.write_and_go

theorem is_authenticated_quiet (b : Bool) :
    { c with cmd := c.cmd.quiet.1, noreply := b }.is_authenticated = c.is_authenticated := by
  cases hc : c.cmd <;> simp [is_authenticated, Cmd.quiet, hc]

theorem dispatch_cmd_gated (hs : settings.sasl = true) (hg : Gated c last) (ha : c.is_authenticated = true)
    (a : Answers) : Gated (c.dispatch_cmd settings a) last := by
  have herr : Gated c.handle_binary_protocol_error last := (handle_binary_protocol_error_done c).gated hg
  cases hc : c.cmd with
  | SASL_LIST_MECHS =>
      simp only [dispatch_cmd, hc]
      split
      · exact bin_list_sasl_mechs_gated hs hg a
      · exact herr
  | SASL_AUTH | SASL_STEP =>
      simp only [dispatch_cmd, hc]
      split
      · exact (bin_read_key_handled a.realloc_ok (.inl rfl)).gated hg
      · exact herr
  | VERSION | NOOP =>
      simp only [dispatch_cmd, hc]
      split
      · exact (write_bin_response_done c).gated hg
      · exact herr
  | QUIT =>
      simp only [dispatch_cmd, hc]
      split
      · have hquit := (write_bin_response_done c).go (k := .conn_closing) nofun
        split
        · have hclosing : Done c { { c.write_bin_response with write_and_go := .conn_closing } with state := .conn_closing } :=
            ⟨hquit.protocol, hquit.authenticated, by simp, hquit.write_and_go⟩
          exact hclosing.gated hg
        · exact hquit.gated hg
      · exact herr
  | none | SETQ | ADDQ | REPLACEQ | DELETEQ | INCREMENTQ | DECREMENTQ | QUITQ | FLUSHQ | APPENDQ | PREPENDQ | unknown _
  | nread _ =>
      simp only [dispatch_cmd, hc]
      exact (write_bin_error_done c _).gated hg
  | FLUSH | SET | ADD | REPLACE | GETQ | GET | GETKQ | GETK | DELETE | INCREMENT | DECREMENT | APPEND | PREPEND | STAT
  | TOUCH | GAT | GATQ | GATK | GATKQ =>
      have hauth : c.authenticated = true := by simpa [is_authenticated, hc] using ha
      simp only [dispatch_cmd, hc]
      split
      · exact (bin_read_key_handled a.realloc_ok (.inr hauth)).gated hg
      · exact herr

theorem dispatch_bin_command_gated (hs : settings.sasl = true) (hg : Gated c last) (a : Answers) :
    Gated (c.dispatch_bin_command settings a) last := by
  have hclose : Done c { c.write_bin_error 0 with write_and_go := .conn_closing } := (write_bin_error_done c 0).go (by simp)
  simp only [dispatch_bin_command]
  split
  · exact hclose.gated hg
  split
  · exact hclose.gated hg
  split
  · exact (handle_binary_protocol_error_done _).gated ⟨hg.protocol, hg.authenticated, hg.nread, hg.write_and_go⟩
  · next hauth _ =>
    have ha : c.is_authenticated = true := by simpa [hs] using hauth
    refine dispatch_cmd_gated (c := { c with cmd := c.cmd.quiet.1, noreply := c.cmd.quiet.2 }) hs ⟨hg.protocol, hg.authenticated, hg.nread, hg.write_and_go⟩ ?_ a
    rw [is_authenticated_quiet]
    exact ha

/-- `dispatched` is what `dispatch_bin_command` does: the command is run, or the connection is told and closed. -/
theorem dispatch_bin_command_eq (a : Answers) : match c.dispatched settings with
    | some cmd => c.dispatch_bin_command settings a =
        { c with cmd := cmd.quiet.1, noreply := cmd.quiet.2 }.dispatch_cmd settings a
    | none => ∃ b, c.dispatch_bin_command settings a =
        { { c with noreply := b }.write_bin_error 0 with write_and_go := .conn_closing } := by
  simp only [dispatched, dispatch_bin_command]
  by_cases hlen : c.binary_header.keylen.toNat > c.binary_header.bodylen.toNat ∨
      c.binary_header.keylen.toNat + c.binary_header.extlen.toNat > c.binary_header.bodylen.toNat
  · simp only [hlen, ↓reduceIte]
    exact ⟨c.noreply, rfl⟩
  by_cases hauth : settings.sasl ∧ !c.is_authenticated
  · simp only [hlen, hauth, ↓reduceIte]
    exact ⟨c.noreply, rfl⟩
  by_cases hkey : c.binary_header.keylen.toNat > KEY_MAX_LENGTH
  · simp only [hlen, hauth, hkey, ↓reduceIte]
    exact ⟨true, rfl⟩
  · simp only [hlen, hauth, hkey, ↓reduceIte]

/-! ## Handlers -/

variable {it : Item} {w : World} {e : Event}

theorem process_bin_update_handled (hp : c.protocol = .binary_prot) (ha : c.authenticated = true) (a : Answers) :
    Handled c (c.process_bin_update a) := by
  simp only [process_bin_update]
  split
  · split
    · exact (Done.noted ((write_bin_error_done _ _).go (k := .conn_swallow) (by simp))).handled
    · exact (Done.noted (out_of_memory_swallow_done (by exact hp) _)).handled
  · exact ⟨rfl, rfl, fun _ => .inr ha, .inl rfl⟩

theorem process_bin_append_prepend_handled (hp : c.protocol = .binary_prot) (ha : c.authenticated = true) (a : Answers) :
    Handled c (c.process_bin_append_prepend a) := by
  simp only [process_bin_append_prepend]
  split
  · split
    · exact (Done.noted ((write_bin_error_done _ _).go (k := .conn_swallow) (by simp))).handled
    · exact (Done.noted (out_of_memory_swallow_done (by exact hp) _)).handled
  · exact ⟨rfl, rfl, fun _ => .inr ha, .inl rfl⟩

theorem process_bin_sasl_auth_handled (a : Answers) : Handled c (c.process_bin_sasl_auth settings a) := by
  simp only [process_bin_sasl_auth]
  split
  · exact (c.write_bin_error_done _).handled
  split
  · exact ((c.write_bin_error_done _).go (k := .conn_swallow) (by simp)).handled
  split
  · exact ⟨rfl, rfl, fun _ => .inl rfl, .inl rfl⟩
  · exact (Done.noted ((write_bin_error_done _ _).go (k := .conn_swallow) (by simp))).handled

theorem process_bin_complete_sasl_auth_gated (hs : settings.sasl = true) (hg : Gated c last) (a : Answers) :
    Gated (c.process_bin_complete_sasl_auth settings it a)
      (Slot.complete last
        (if c.binary_header.keylen.toNat > it.nkey ∨ c.body_after_key > it.nbytes then none else some a.sasl)) := by
  obtain ⟨k, hinit⟩ := init_sasl_conn_cleared (c := c) hs a
  have hbody : { c with authenticated := false, sasl_conn := k }.body_after_key = c.body_after_key := rfl
  have herr (n : Int) : Gated { { c with authenticated := false, sasl_conn := k }.write_bin_error n with
      write_and_go := .conn_swallow } last :=
    ((write_bin_error_done _ n).go (by simp)).gated_of hg.protocol nofun hg.write_and_go
  simp only [process_bin_complete_sasl_auth, hinit, hbody]
  by_cases hkey : c.binary_header.keylen.toNat > it.nkey
  · simp only [hkey, true_or, ↓reduceIte]
    exact herr _
  by_cases hlen : c.body_after_key > it.nbytes
  · simp only [hkey, hlen, or_true, ↓reduceIte]
    exact herr _
  simp only [hkey, hlen, or_self, ↓reduceIte]
  cases a.sasl with
  | SASL_OK =>
      exact (write_bin_response_done { c with authenticated := true, sasl_conn := k }).gated_of hg.protocol
        (fun _ => rfl) hg.write_and_go
  | SASL_CONTINUE => exact ⟨hg.protocol, nofun, nofun, nofun⟩
  | error => exact (write_bin_error_done _ 0).gated_of hg.protocol nofun hg.write_and_go

theorem reply_done (settings : Settings) (hp : c.protocol = .binary_prot) (a : Answers) : Done c (c.complete_update_bin a) ∧
    Done c (c.process_bin_get_or_touch a) ∧ Done c (c.process_bin_stat a) ∧ Done c (c.process_bin_delete a) ∧
    Done c (c.complete_incr_bin a) ∧ Done c (c.process_bin_flush settings) := by
  have hresp := write_bin_response_done c
  have herr := write_bin_error_done c 0
  have hmem := out_of_memory_done hp
  have hgo : Done c { c with state := .conn_mwrite, write_and_go := .conn_new_cmd } :=
    ⟨rfl, rfl, by simp, .inr (by simp)⟩
  refine ⟨?_, ?_, ?_, ?_, ?_, ?_⟩
  · unfold complete_update_bin
    split
    · exact ⟨hresp.protocol, hresp.authenticated, hresp.state, hresp.write_and_go⟩
    · exact ⟨herr.protocol, herr.authenticated, herr.state, herr.write_and_go⟩
  · unfold process_bin_get_or_touch
    repeat' split
    · exact hgo
    · exact ⟨rfl, rfl, by simp, .inl rfl⟩
    · exact hgo
    · exact herr
  · unfold process_bin_stat
    split
    · exact ⟨rfl, rfl, by simp [write_and_free], .inr (by simp [write_and_free])⟩
    · exact herr
  · unfold process_bin_delete
    split
    · exact hresp
    · exact herr
  · unfold complete_incr_bin
    repeat' split
    all_goals first | exact hresp | exact herr | exact hmem
  · unfold process_bin_flush
    split
    · exact herr
    · exact hresp

theorem complete_nread_gated (hs : settings.sasl = true) (hg : Gated c last) (hst : c.state = .conn_nread) {a : Answers}
    (h : c.complete_nread_binary settings a = some c') :
    Gated c' (Slot.complete last (c.exchange (.complete_nread a))) := by
  obtain ⟨hstore, hget, hstat, hdelete, hincr, hflush⟩ := reply_done settings hg.protocol a
  have hauth (hn : (Executed.completed c.substate).needs_no_auth = false) : c.authenticated = true := by
    simpa [hn] using hg.nread hst
  cases hsub : c.substate with
  | bin_reading_set_header =>
      have hexchange : c.exchange (.complete_nread a) = none := by simp [exchange, hsub]
      have ha := hauth (by rw [hsub]; rfl)
      simp only [complete_nread_binary, hsub] at h
      rw [hexchange]
      split at h
      · obtain rfl := Option.some.inj h
        exact (process_bin_append_prepend_handled hg.protocol ha a).gated hg
      · obtain rfl := Option.some.inj h
        exact (process_bin_update_handled hg.protocol ha a).gated hg
  | bin_read_set_value =>
      have hexchange : c.exchange (.complete_nread a) = none := by simp [exchange, hsub]
      simp only [complete_nread_binary, hsub] at h
      obtain ⟨_, -, rfl⟩ := Option.map_eq_some_iff.mp h
      rw [hexchange]
      exact hstore.gated hg
  | bin_reading_sasl_auth =>
      have hexchange : c.exchange (.complete_nread a) = none := by simp [exchange, hsub]
      simp only [complete_nread_binary, hsub, Option.some.injEq] at h
      rw [hexchange, ← h]
      exact (process_bin_sasl_auth_handled a).gated hg
  | bin_reading_sasl_auth_data =>
      simp only [complete_nread_binary, hsub] at h
      obtain ⟨it, hit, rfl⟩ := Option.map_eq_some_iff.mp h
      simp only [exchange, hsub, hit, ↓reduceIte, Option.bind_some]
      exact process_bin_complete_sasl_auth_gated hs hg a
  | bin_no_state =>
      simp only [complete_nread_binary, hsub] at h
      cases h
  | bin_reading_get_key | bin_reading_touch_key | bin_reading_stat | bin_reading_del_header | bin_reading_incr_header
  | bin_read_flush_exptime =>
      have hexchange : c.exchange (.complete_nread a) = none := by simp [exchange, hsub]
      simp only [complete_nread_binary, hsub, Option.some.injEq] at h
      rw [hexchange, ← h]
      first
        | exact hget.gated hg
        | exact hstat.gated hg
        | exact hdelete.gated hg
        | exact hincr.gated hg
        | exact hflush.gated hg

/-! ## Steps -/

/-- A step that runs nothing. -/
structure Moved (c c' : Conn) : Prop where
  protocol : c'.protocol = c.protocol
  authenticated : c'.authenticated = c.authenticated
  nread : c'.state = .conn_nread → c.state = .conn_nread ∧ c'.substate = c.substate
  write_and_go : c'.write_and_go = c.write_and_go ∨ c'.write_and_go ≠ .conn_nread

theorem Moved.gated (h : Moved c c') (hg : Gated c last) : Gated c' last := by
  refine ⟨h.protocol.trans hg.protocol, fun ha => hg.authenticated (h.authenticated ▸ ha), fun hst => ?_, ?_⟩
  · obtain ⟨hst', hsub⟩ := h.nread hst
    rw [hsub, h.authenticated]
    exact hg.nread hst'
  · rcases h.write_and_go with he | hne
    · exact he ▸ hg.write_and_go
    · exact hne

theorem Done.moved (h : Done c c') : Moved c c' :=
  ⟨h.protocol, h.authenticated, fun hst => absurd hst h.state, h.write_and_go⟩

theorem nread_failed_moved (hp : c.protocol = .binary_prot) (res : ReadResult) : Moved c (c.nread_failed res) := by
  cases res with
  | data _ | eagain => exact ⟨rfl, rfl, fun h => ⟨h, rfl⟩, .inl rfl⟩
  | no_memory => exact (out_of_memory_swallow_done hp c.rlbytes).moved
  | eof | error => exact ⟨rfl, rfl, nofun, .inl rfl⟩

theorem network_read_moved (hp : c.protocol = .binary_prot) (res : ReadResult) : Moved c (c.network_read res) := by
  cases res with
  | data _ | eagain | eof | error => exact ⟨rfl, rfl, nofun, .inl rfl⟩
  | no_memory =>
      have h := (out_of_memory_done (c := { c with rbytes := 0 }) hp).go (k := .conn_closing) (by simp)
      exact ⟨h.protocol, h.authenticated, fun hst => absurd hst h.state, h.write_and_go⟩

theorem try_read_command_gated (hs : w.settings.sasl = true) (hg : Gated c last) (hst : c.state = .conn_parse_cmd)
    {a : Answers} (h : c.try_read_command w a = some c') : Gated c' last := by
  have hp := hg.protocol
  simp only [try_read_command] at h
  split at h
  · split at h
    · obtain rfl := Option.some.inj h
      exact ⟨hp, hg.authenticated, nofun, hg.write_and_go⟩
    split at h
    · obtain rfl := Option.some.inj h
      exact ⟨hp, hg.authenticated, nofun, hg.write_and_go⟩
    · obtain rfl := Option.some.inj h
      let hd := Header.at_pos w.stream c.pos
      have hg' : Gated { c with binary_header := hd, cmd := .of_opcode hd.opcode } last :=
        ⟨hp, hg.authenticated, fun h => absurd (hst.symm.trans h) (by simp), hg.write_and_go⟩
      have h := dispatch_bin_command_gated hs hg' a
      exact ⟨h.protocol, h.authenticated, h.nread, h.write_and_go⟩
  · next hascii => rw [hp] at hascii; cases hascii

theorem step_moved (hp : c.protocol = .binary_prot) (hgo : c.write_and_go ≠ .conn_nread) (h : Step w c e c')
    (hrun : ∀ a, e ≠ .try_read_command a ∧ e ≠ .complete_nread a) : Moved c c' := by
  simp only [Step] at h
  cases e with
  | complete_nread a => exact absurd rfl (hrun a).2
  | try_read_command a => exact absurd rfl (hrun a).1
  | update_event ok =>
      cases hst : c.state <;> simp only [drive_machine, hst, reduceCtorEq, Option.some.injEq] at h
      subst h
      refine ⟨rfl, rfl, ?_, .inl rfl⟩
      cases ok <;> nofun
  | try_read_network res =>
      cases hst : c.state <;> cases res <;>
        simp only [drive_machine, hst, reduceCtorEq, Option.ite_none_right_eq_some, Option.some.injEq] at h
      case conn_read.data n => exact h.2 ▸ network_read_moved hp _
      all_goals exact h ▸ network_read_moved hp _
  | reset_cmd_handler =>
      cases hst : c.state <;> simp only [drive_machine, hst, reduceCtorEq, Option.some.injEq] at h
      subst h
      refine ⟨rfl, rfl, fun hst' => ?_, .inl rfl⟩
      simp only [reset_cmd_handler] at hst'
      split at hst' <;> cases hst'
  | invalid_rlbytes =>
      cases hst : c.state <;>
        simp only [drive_machine, hst, reduceCtorEq, Option.ite_none_right_eq_some, Option.some.injEq] at h
      exact h.2 ▸ ⟨rfl, rfl, nofun, .inl rfl⟩
  | leftovers =>
      cases hst : c.state <;>
        simp only [drive_machine, hst, reduceCtorEq, Option.ite_none_right_eq_some, Option.some.injEq] at h
      all_goals exact h.2 ▸ ⟨rfl, rfl, fun h => ⟨h, rfl⟩, .inl rfl⟩
  | read res =>
      cases hst : c.state <;> cases res <;>
        simp only [drive_machine, hst, reduceCtorEq, Option.ite_none_right_eq_some, Option.some.injEq] at h
      case conn_nread.data n => exact h.2 ▸ ⟨rfl, rfl, fun h => ⟨h, rfl⟩, .inl rfl⟩
      case conn_swallow.data n => exact h.2 ▸ ⟨rfl, rfl, fun h => ⟨h, rfl⟩, .inl rfl⟩
      case conn_swallow.eagain => exact h.2 ▸ ⟨rfl, rfl, fun h => ⟨h, rfl⟩, .inl rfl⟩
      case conn_nread.eof => exact h.2 ▸ nread_failed_moved hp _
      case conn_nread.error => exact h.2 ▸ nread_failed_moved hp _
      case conn_nread.eagain => exact h.2 ▸ nread_failed_moved hp _
      all_goals exact h.2 ▸ ⟨rfl, rfl, nofun, .inl rfl⟩
  | read_into_chunked_item n res =>
      cases hst : c.state <;>
        simp only [drive_machine, hst, reduceCtorEq, Option.ite_none_right_eq_some, Option.some.injEq] at h
      obtain ⟨-, rfl⟩ := h
      have hm := nread_failed_moved (c := c.fill n) hp res
      exact ⟨hm.protocol, hm.authenticated, hm.nread, hm.write_and_go⟩
  | swallowed =>
      cases hst : c.state <;>
        simp only [drive_machine, hst, reduceCtorEq, Option.ite_none_right_eq_some, Option.some.injEq] at h
      exact h.2 ▸ ⟨rfl, rfl, nofun, .inl rfl⟩
  | transmit complete =>
      cases hst : c.state <;> cases complete <;>
        simp only [drive_machine, hst, hp, reduceCtorEq, Option.some.injEq, ↓reduceIte] at h
      case conn_write.true => exact h ▸ ⟨hp.symm, rfl, fun hgo' => absurd hgo' hgo, .inl rfl⟩
      case conn_mwrite.true => exact h ▸ ⟨hp.symm, rfl, fun hgo' => absurd hgo' hgo, .inl rfl⟩
      all_goals exact h ▸ ⟨hp.symm, rfl, nofun, .inl rfl⟩

theorem step_gated (hs : w.settings.sasl = true) (hg : Gated c last) (h : Step w c e c') :
    Gated c' (Slot.complete last (c.exchange e)) := by
  by_cases hrun : ∀ a, e ≠ .try_read_command a ∧ e ≠ .complete_nread a
  · have hnone : c.exchange e = none := by
      cases e <;> first | rfl | exact absurd rfl (hrun _).2
    rw [hnone]
    exact (step_moved hg.protocol hg.write_and_go h hrun).gated hg
  · cases e with
    | complete_nread a =>
        simp only [Step] at h
        cases hst : c.state <;> simp only [drive_machine, hst, reduceCtorEq] at h
        simp only [complete_nread, hg.protocol, Option.ite_none_right_eq_some] at h
        exact complete_nread_gated hs hg hst h.2
    | try_read_command a =>
        simp only [Step] at h
        cases hst : c.state <;> simp only [drive_machine, hst, reduceCtorEq] at h
        exact try_read_command_gated hs hg hst h
    | _ => exact absurd (fun _ => ⟨by simp, by simp⟩) hrun

theorem Gated.executed {x : Executed} (hs : w.settings.sasl = true) (hg : Gated c last) (h : Step w c e c')
    (hx : c.executed w e = some x) : x.needs_no_auth ∨ last = some .SASL_OK := by
  cases e with
  | complete_nread a =>
      obtain rfl := Option.some.inj hx
      simp only [Step] at h
      cases hst : c.state <;> simp only [drive_machine, hst, reduceCtorEq] at h
      exact (hg.nread hst).imp_right hg.authenticated
  | try_read_command a =>
      simp only [Conn.executed] at hx
      split at hx
      · cases hx
      obtain ⟨cmd, hcmd, rfl⟩ := Option.map_eq_some_iff.mp hx
      simp only [dispatched] at hcmd
      split at hcmd
      · cases hcmd
      split at hcmd
      · cases hcmd
      split at hcmd
      · cases hcmd
      · next hauth _ =>
        obtain rfl := Option.some.inj hcmd
        simp only [hs, Bool.not_eq_true', true_and, Bool.not_eq_false] at hauth
        cases hc : Cmd.of_opcode (Header.at_pos w.stream c.pos).opcode with
        | SASL_LIST_MECHS | SASL_AUTH | SASL_STEP | VERSION => exact .inl rfl
        | _ =>
            refine .inr (hg.authenticated ?_)
            simpa [is_authenticated, hc] using hauth
  | _ => cases hx

end Conn

end Memcached.Thread

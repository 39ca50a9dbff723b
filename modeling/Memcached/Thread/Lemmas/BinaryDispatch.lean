import Mathlib.Algebra.Order.Ring.Int
import Mathlib.Tactic.SplitIfs
import Memcached.Thread.Lemmas.BinaryFraming

/-!
# What a header has the connection read

`dispatch_bin_command` fixes how many bytes a request will use up. They are the `bodylen` of the header only for some
commands and lengths.
-/

namespace Memcached.Thread

/-! ## Lengths -/

/-- The bytes of the value, by the header. -/
def Header.value_length (h : Header) : Int := h.bodylen.toNat - h.keylen.toNat - h.extlen.toNat

/-- The lengths with which a command uses up exactly its body and asks for an item of exactly its value. -/
def Header.framed_cmd (settings : Settings) (h : Header) : Cmd → Prop
  | .VERSION | .FLUSH | .NOOP | .GET | .GETK | .DELETE | .INCREMENT | .DECREMENT | .QUIT | .SASL_LIST_MECHS => True
  | .SET | .ADD | .REPLACE => False
  | .STAT => h.bodylen.toNat = h.keylen.toNat
  | .TOUCH | .GAT | .GATK => h.bodylen.toNat = h.keylen.toNat + 4
  | .APPEND | .PREPEND => h.value_length + 2 < 2 ^ 31
  | .SASL_AUTH | .SASL_STEP =>
      h.value_length < 2 ^ 31 ∧
        (settings.sasl ∧ h.keylen.toNat ≤ MAX_SASL_MECH_LEN → h.value_length + 2 < 2 ^ 31)
  | _ => h.bodylen.toNat < 2 ^ 31

/-- A header whose request keeps the stream in step. -/
def Header.framed (settings : Settings) (h : Header) : Prop := h.framed_cmd settings (Cmd.of_opcode h.opcode).quiet.1

namespace Conn

/-! ## Dispatch -/

/-- What is owed is what the header says. -/
def OwesBody (settings : Settings) (c : Conn) : Prop :=
  c.owed = c.binary_header.bodylen.toNat ∧ ∀ n ∈ c.allocs_owed settings, n = c.binary_header.value_length + 2

/-- `c'` starts to read the body of the request whose header `c` has. -/
structure Dispatched (settings : Settings) (cmd : Cmd) (c c' : Conn) : Prop where
  protocol : c'.protocol = .binary_prot
  tidy : c'.Tidy
  in_request : c'.InRequest
  pos : c'.pos = c.pos
  value_allocs : c'.value_allocs = c.value_allocs
  header : c'.binary_header = c.binary_header
  key : c'.state = .conn_nread → c'.substate ≠ .bin_reading_sasl_auth_data
  framed : c'.OwesBody settings ↔ c.binary_header.framed_cmd settings cmd

section
variable {settings : Settings} {c : Conn} (hst : c.state = .conn_nread) (hext : c.binary_header.extlen.toNat = 0)
include hst hext

theorem set_owes (hsub : c.substate = .bin_reading_set_header) (hr : c.rlbytes = c.binary_header.keylen.toNat + (8 : Nat))
    (hcmd : ¬ (c.cmd = .APPEND ∨ c.cmd = .PREPEND)) : ¬ c.OwesBody settings := by
  have hb := c.binary_header.bodylen.toNat_lt
  simp only [OwesBody, owed, hst, owed_then, hsub, hr, value_length, if_neg hcmd, hext, c_int, Int.bmod]
  omega

variable (hr : c.rlbytes = c.binary_header.keylen.toNat + (0 : Nat))
  (hlen : c.binary_header.keylen.toNat ≤ c.binary_header.bodylen.toNat)
include hr hlen

theorem append_owes (hsub : c.substate = .bin_reading_set_header) (hcmd : c.cmd = .APPEND ∨ c.cmd = .PREPEND) :
    c.OwesBody settings ↔ c.binary_header.value_length + 2 < 2 ^ 31 := by
  have hb := c.binary_header.bodylen.toNat_lt
  simp only [OwesBody, owed, owed_then, allocs_owed, hst, hsub, hr, value_length, if_pos hcmd, body_after_key,
    Header.value_length, hext, List.mem_singleton, forall_eq, c_int, Int.bmod]
  omega

theorem sasl_owes (hsub : c.substate = .bin_reading_sasl_auth) :
    c.OwesBody settings ↔
      c.binary_header.value_length < 2 ^ 31 ∧ (settings.sasl ∧ c.binary_header.keylen.toNat ≤ MAX_SASL_MECH_LEN →
        c.binary_header.value_length + 2 < 2 ^ 31) := by
  have hb := c.binary_header.bodylen.toNat_lt
  by_cases hsasl : settings.sasl = true ∧ c.binary_header.keylen.toNat ≤ MAX_SASL_MECH_LEN
  · simp only [OwesBody, owed, owed_then, allocs_owed, hst, hsub, hr, hsasl, ↓reduceIte, body_after_key,
      Header.value_length, hext, List.mem_singleton, forall_eq, and_self, forall_const, c_int, Int.bmod]
    omega
  · simp only [OwesBody, owed, owed_then, allocs_owed, hst, hsub, hr, hsasl, ↓reduceIte, body_after_key,
      Header.value_length, hext, List.not_mem_nil, false_implies, implies_true, and_true, c_int, Int.bmod]
    omega

end

section
variable {settings : Settings} {c : Conn} (hp : c.protocol = .binary_prot)
include hp

theorem handle_binary_protocol_error_doomed : c.handle_binary_protocol_error.Doomed := by
  simp [handle_binary_protocol_error, write_bin_error, Doomed, hp]

variable (hs : c.sbytes ≤ 0)
include hs

omit hp hs in
theorem write_bin_response_noreply : c.write_bin_response.noreply = c.noreply := by
  unfold write_bin_response
  split <;> rfl

theorem write_bin_response_dispatched {cmd : Cmd} (hb : c.binary_header.bodylen.toNat = 0)
    (hf : c.binary_header.framed_cmd settings cmd) : Dispatched settings cmd c c.write_bin_response := by
  have h := c.write_bin_response_replied
  have hheader : c.write_bin_response.binary_header = c.binary_header := by unfold write_bin_response; split <;> rfl
  have hs' : c.write_bin_response.sbytes ≤ 0 := h.sbytes ▸ hs
  obtain hst | ⟨hst | hst, hgo⟩ := h.ends <;>
    exact ⟨h.protocol.trans hp, by simp [Tidy, *], by simp [InRequest, hst], h.pos, h.value_allocs, hheader,
      by simp [hst], by simp [OwesBody, owed, allocs_owed, *]⟩

theorem write_bin_error_dispatched {cmd : Cmd} {n : Int}
    (hf : n.toNat = c.binary_header.bodylen.toNat ↔ c.binary_header.framed_cmd settings cmd) :
    Dispatched settings cmd c (c.write_bin_error n) := by
  unfold write_bin_error
  split
  · constructor <;> simp [hp, Tidy, InRequest, OwesBody, owed, allocs_owed, hf]
  · next hn =>
    constructor <;> simp [hp, hs, Tidy, InRequest, OwesBody, owed, allocs_owed, ← hf]
    omega

theorem bin_read_key_dispatched {cmd : Cmd} {sub : BinSubstate} {extra : Nat} (ok : Bool) (hit : c.item = none)
    (hsub : sub ≠ .bin_reading_sasl_auth_data)
    (hf : { c with substate := sub, rlbytes := c.binary_header.keylen.toNat + extra, state := .conn_nread }.OwesBody settings ↔
      c.binary_header.framed_cmd settings cmd) :
    (c.bin_read_key sub extra ok).Doomed ∨ Dispatched settings cmd c (c.bin_read_key sub extra ok) := by
  cases ok with
  | false => exact .inl ⟨hp, .inl rfl⟩
  | true =>
      refine .inr ⟨hp, ?_, by simp [bin_read_key, InRequest], rfl, rfl, rfl, fun _ => hsub, hf⟩
      cases sub <;> simp [bin_read_key, Tidy, hs, hit, item_fits] at hsub ⊢

theorem dispatch_cmd_dispatched (a : Answers) (hit : c.item = none)
    (hlen : c.binary_header.keylen.toNat + c.binary_header.extlen.toNat ≤ c.binary_header.bodylen.toNat)
    (hcmd : c.cmd = c.cmd.quiet.1) :
    (c.dispatch_cmd settings a).Doomed ∨ Dispatched settings c.cmd c (c.dispatch_cmd settings a) := by
  have herr : c.handle_binary_protocol_error.Doomed := handle_binary_protocol_error_doomed hp
  have hb := c.binary_header.bodylen.toNat_lt
  cases hc : c.cmd <;> simp only [dispatch_cmd, hc]
  case VERSION | NOOP =>
    split
    · exact .inr (write_bin_response_dispatched hp hs (by omega) trivial)
    · exact .inl herr
  case SASL_LIST_MECHS =>
    split
    · next hl =>
      refine .inr ?_
      obtain ⟨b, k, hinit⟩ := init_sasl_conn_eq settings c a
      simp only [bin_list_sasl_mechs, hinit]
      repeat' split
      · exact write_bin_error_dispatched hp hs (by simp [Header.framed_cmd, body_after_key, c_int, hl])
      · have h : Dispatched settings .SASL_LIST_MECHS { c with authenticated := b, sasl_conn := k }
            (({ c with authenticated := b, sasl_conn := k } : Conn).write_bin_error 0) :=
          write_bin_error_dispatched (c := { c with authenticated := b, sasl_conn := k }) hp hs
            (by simp [Header.framed_cmd, hl])
        exact ⟨h.protocol, h.tidy, h.in_request, h.pos, h.value_allocs, h.header, h.key, h.framed⟩
      · have h : Dispatched settings .SASL_LIST_MECHS { c with authenticated := b, sasl_conn := k }
            ({ c with authenticated := b, sasl_conn := k } : Conn).write_bin_response :=
          write_bin_response_dispatched (c := { c with authenticated := b, sasl_conn := k }) hp hs hl.2.2 trivial
        exact ⟨h.protocol, h.tidy, h.in_request, h.pos, h.value_allocs, h.header, h.key, h.framed⟩
    · exact .inl herr
  case QUIT =>
    split
    · refine .inl ?_
      split
      · exact ⟨write_bin_response_replied c |>.protocol.trans hp, .inl rfl⟩
      · next hn =>
        have hn' : c.noreply = false := by simpa [write_bin_response_noreply] using hn
        exact ⟨by simp [write_bin_response, hn', hp], .inr ⟨.inr (by simp [write_bin_response, hn']), rfl⟩⟩
    · exact .inl herr
  case FLUSH | GET | GETK | DELETE | INCREMENT | DECREMENT | STAT | TOUCH | GAT | GATK =>
    split
    · refine bin_read_key_dispatched hp hs _ hit (by simp) ?_
      simp [OwesBody, owed, owed_then, allocs_owed, Header.framed_cmd, *]
      try omega
    · exact .inl herr
  case SET | ADD | REPLACE =>
    split
    · next hl =>
      exact bin_read_key_dispatched hp hs _ hit (by simp) (iff_of_false (set_owes rfl hl.1 rfl rfl (by simp [hc])) id)
    · exact .inl herr
  case APPEND | PREPEND =>
    split
    · next hl => exact bin_read_key_dispatched hp hs _ hit (by simp) (append_owes rfl hl.2 rfl (Nat.le_of_add_right_le hlen) rfl (by simp [hc]))
    · exact .inl herr
  case SASL_AUTH | SASL_STEP =>
    split
    · next hl => exact bin_read_key_dispatched hp hs _ hit (by simp) (sasl_owes rfl hl.1 rfl (Nat.le_of_add_right_le hlen) rfl)
    · exact .inl herr
  case SETQ | ADDQ | REPLACEQ | DELETEQ | INCREMENTQ | DECREMENTQ | QUITQ | FLUSHQ | APPENDQ | PREPENDQ | GETQ | GETKQ |
      GATQ | GATKQ => simp [hc, Cmd.quiet] at hcmd
  all_goals
    refine .inr (write_bin_error_dispatched hp hs ?_)
    simp only [Header.framed_cmd, c_int, Int.bmod]
    omega

omit hp hs in
theorem quiet_quiet (cmd : Cmd) : cmd.quiet.1.quiet.1 = cmd.quiet.1 := by cases cmd <;> rfl

theorem dispatch_bin_command_dispatched (settings : Settings) (a : Answers) (hit : c.item = none) :
    (c.dispatch_bin_command settings a).Doomed ∨
      0 ≤ c.binary_header.value_length ∧
        Dispatched settings c.cmd.quiet.1 c (c.dispatch_bin_command settings a) := by
  have hclose : { c.write_bin_error 0 with write_and_go := .conn_closing }.Doomed :=
    ⟨c.write_bin_error_replied.protocol.trans hp, .inr ⟨.inr rfl, rfl⟩⟩
  simp only [dispatch_bin_command]
  split_ifs with hlen hauth hkey
  · exact .inl hclose
  · exact .inl hclose
  · exact .inl (handle_binary_protocol_error_doomed (c := { c with noreply := true }) hp)
  · refine (dispatch_cmd_dispatched (c := { c with cmd := c.cmd.quiet.1, noreply := c.cmd.quiet.2 }) hp hs a hit
      (by dsimp only; omega) (quiet_quiet c.cmd).symm).imp_right fun h => ⟨?_, ?_⟩
    · simp only [Header.value_length]
      omega
    · exact ⟨h.protocol, h.tidy, h.in_request, h.pos, h.value_allocs, h.header, h.key, h.framed⟩

end

/-! ## Runs -/

section
variable {w : World} {c c' : Conn}

/-- `c'` reads the body of the request whose header is at `c.pos`. -/
structure Parsed (w : World) (c c' : Conn) : Prop where
  protocol : c'.protocol = .binary_prot
  tidy : c'.Tidy
  in_request : c'.InRequest
  pos : c'.pos = c.pos + 24
  value_allocs : c'.value_allocs = c.value_allocs
  header : c'.binary_header = Header.at_pos w.stream c.pos
  key : c'.state = .conn_nread → c'.substate ≠ .bin_reading_sasl_auth_data
  value_length : 0 ≤ (Header.at_pos w.stream c.pos).value_length
  framed : c'.OwesBody w.settings ↔ (Header.at_pos w.stream c.pos).framed w.settings

theorem try_read_command_parsed {a : Answers} (hp : c.protocol = .binary_prot) (hs : c.sbytes ≤ 0)
    (hit : c.item = none) (hlen : 24 ≤ c.rbytes) (h : c.try_read_command w a = some c') :
    c'.Doomed ∨ Parsed w c c' := by
  unfold try_read_command at h
  split at h
  case h_2 hp' => simp [hp] at hp'
  rw [if_neg (Nat.not_lt.mpr hlen)] at h
  dsimp only at h
  split_ifs at h
  · obtain rfl := Option.some.inj h
    exact .inl ⟨hp, .inl rfl⟩
  · obtain rfl := Option.some.inj h
    let c₁ := { c with
      binary_header := Header.at_pos w.stream c.pos
      cmd := .of_opcode (Header.at_pos w.stream c.pos).opcode }
    refine (dispatch_bin_command_dispatched (c := c₁) hp hs w.settings a hit).imp ?_ ?_
    · exact fun ⟨hp', hends⟩ => ⟨hp', hends⟩
    · exact fun ⟨hv, h⟩ => ⟨h.protocol, h.tidy, h.in_request, congrArg (· + 24) h.pos, h.value_allocs, h.header, h.key, hv,
        h.framed⟩

theorem Doomed.tidy (h : c.Doomed) : c.Tidy := by
  obtain ⟨-, hst | ⟨hst | hst, hgo⟩⟩ := h <;> simp [Tidy, *]

theorem tidy_step {e : Event} (hc : c.protocol = .binary_prot ∧ c.Tidy) (h : Step w c e c') :
    c'.protocol = .binary_prot ∧ c'.Tidy := by
  obtain ⟨hp, ht⟩ := hc
  have hmid (hin : c.InRequest) (he : e ≠ .reset_cmd_handler) : c'.protocol = .binary_prot ∧ c'.Tidy :=
    (step_progress hp ht hin h he).elim (fun hd => ⟨hd.1, hd.tidy⟩) fun hpr => ⟨hpr.protocol, hpr.tidy⟩
  have hmid' (hin : c.InRequest) (hst : c.state ≠ .conn_new_cmd) : c'.protocol = .binary_prot ∧ c'.Tidy := by
    refine hmid hin fun he => ?_
    subst he
    cases hst' : c.state <;> simp [Step, drive_machine, hst'] at h hst
  cases hst : c.state with
  | conn_waiting =>
      have ht' : c.sbytes ≤ 0 ∧ c.item = none ∧ c.value_allocs = [] := by simpa only [Tidy, hst] using ht
      cases e with
      | update_event ok =>
          simp only [Step, drive_machine, hst, Option.some.injEq] at h
          subst h
          cases ok <;> exact ⟨hp, by simp [Tidy, ht']⟩
      | _ => simp [Step, drive_machine, hst] at h
  | conn_read =>
      have ht' : c.sbytes ≤ 0 ∧ c.item = none ∧ c.value_allocs = [] := by simpa only [Tidy, hst] using ht
      cases e with
      | try_read_network res =>
          cases res <;> simp only [Step, drive_machine, hst, Option.ite_none_right_eq_some, Option.some.injEq] at h
          case data => exact h.2 ▸ ⟨hp, ht'⟩
          case eagain => exact h ▸ ⟨hp, ht'⟩
          case no_memory => exact h ▸ ⟨by simp [network_read, out_of_memory, hp, write_bin_error], by
            simp [network_read, out_of_memory, hp, write_bin_error, Tidy]⟩
          all_goals exact h ▸ ⟨hp, trivial⟩
      | _ => simp [Step, drive_machine, hst] at h
  | conn_parse_cmd =>
      have ht' : c.sbytes ≤ 0 ∧ c.item = none ∧ c.value_allocs = [] := by simpa only [Tidy, hst] using ht
      cases e with
      | try_read_command a =>
          simp only [Step, drive_machine, hst] at h
          rcases Nat.lt_or_ge c.rbytes 24 with hlen | hlen
          · simp only [try_read_command, hp, if_pos hlen, Option.some.injEq] at h
            exact h ▸ ⟨rfl, ht'⟩
          · exact (try_read_command_parsed hp ht'.1 ht'.2.1 hlen h).elim (fun hd => ⟨hd.1, hd.tidy⟩)
              fun hd => ⟨hd.protocol, hd.tidy⟩
      | _ => simp [Step, drive_machine, hst] at h
  | conn_new_cmd =>
      have hs : c.sbytes ≤ 0 := by simpa only [Tidy, hst] using ht
      cases e with
      | reset_cmd_handler =>
          simp only [Step, drive_machine, hst, Option.some.injEq] at h
          subst h
          refine ⟨hp, ?_⟩
          unfold reset_cmd_handler
          split <;> simp [Tidy, hs]
      | _ => simp [Step, drive_machine, hst] at h
  | _ => exact hmid' (by simp [InRequest, hst]) (by simp [hst])

theorem run_doomed {es : List Event} (hrun : Transition.Run (Step w) c es c') (hd : c.Doomed) : c'.Doomed :=
  hrun.invariant (P := Doomed) step_doomed hd

theorem run_progress {es : List Event} (hrun : Transition.Run (Step w) c es c') (hp : c.protocol = .binary_prot)
    (ht : c.Tidy) (hin : c.InRequest) (hes : .reset_cmd_handler ∉ es) : c'.Doomed ∨ Progress w.settings c c' := by
  induction hrun with
  | nil c => exact .inr (.refl hp ht hin)
  | cons hstep hrest ih =>
      obtain ⟨he, hes⟩ := not_or.mp (mt List.mem_cons.mpr hes)
      obtain hd | hpr := step_progress hp ht hin hstep (Ne.symm he)
      · exact .inl (run_doomed hrest hd)
      · exact (ih hpr.protocol hpr.tidy hpr.in_request hes).imp_right hpr.trans

theorem run_parses_nothing {es : List Event} (hrun : Transition.Run (Step w) c es c')
    (hc : c.Doomed ∨ c.protocol = .binary_prot ∧ c.Tidy ∧ c.InRequest) (hes : .reset_cmd_handler ∉ es) (a : Answers) :
    .try_read_command a ∉ es := by
  induction hrun with
  | nil c => exact List.not_mem_nil
  | @cons c c₁ _ e es hstep hrest ih =>
      obtain ⟨he, hes⟩ := not_or.mp (mt List.mem_cons.mpr hes)
      have hne : .try_read_command a ≠ e := by
        rintro rfl
        obtain ⟨-, hst | ⟨hst | hst, -⟩⟩ | ⟨-, -, hin⟩ := hc
        case inr => cases hst : c.state <;> simp [InRequest, hst, Step, drive_machine] at hin hstep
        all_goals simp [Step, drive_machine, hst] at hstep
      have hc₁ : c₁.Doomed ∨ c₁.protocol = .binary_prot ∧ c₁.Tidy ∧ c₁.InRequest := by
        obtain hd | ⟨hp, ht, hin⟩ := hc
        · exact .inl (step_doomed hd hstep)
        · exact (step_progress hp ht hin hstep (Ne.symm he)).imp_right fun h => ⟨h.protocol, h.tidy, h.in_request⟩
      exact fun hmem => (List.mem_cons.mp hmem).elim hne (ih hc₁ hes)

end

end Conn

end Memcached.Thread

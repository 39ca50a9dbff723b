import Memcached.Thread.Session

/-!
# Connections that differ in the bytes to swallow

`sbytes` is read where bytes are thrown away, and nowhere else. Handlers carry on two connections that differ in it alone,
until one has to swallow what another request left.
-/

namespace Memcached.Thread

theorem rel_map {α β : Type} {R : α → α → Prop} {R' : β → β → Prop} {f g : α → β} {x y : Option α} (h : Option.Rel R x y)
    (hfg : ∀ {a b}, R a b → R' (f a) (g b)) : Option.Rel R' (x.map f) (y.map g) := by
  cases h with
  | none => exact .none
  | some hr => exact .some (hfg hr)

theorem rel_guard {α β : Type} {R : α → β → Prop} {p q : Prop} [Decidable p] [Decidable q] {a : α} {b : β} (hpq : q ↔ p)
    (h : p → R a b) : Option.Rel R (if p then some a else none) (if q then some b else none) := by
  by_cases hp : p
  · rw [if_pos hp, if_pos (hpq.mpr hp)]
    exact .some (h hp)
  · rw [if_neg hp, if_neg fun hq => hp (hpq.mp hq)]
    exact .none

namespace Conn

variable {c d : Conn} {settings : Settings}

/-- The connections differ in `sbytes` at most, and then there is nothing to swallow on either, or none is about to. -/
def Twin (c d : Conn) : Prop :=
  ∃ v, d = { c with sbytes := v } ∧
    (v = c.sbytes ∨ c.sbytes ≤ 0 ∧ (v ≤ 0 ∨ c.write_and_go ≠ .conn_swallow ∧ c.state ≠ .conn_swallow))

theorem Twin.rfl' : Twin c c := ⟨c.sbytes, rfl, .inl rfl⟩

/-- They agree on everything else. -/
theorem Twin.field {α : Type} (h : Twin c d) (f : Conn → α) (hf : ∀ c v, f { c with sbytes := v } = f c) : f d = f c := by
  obtain ⟨v, rfl, -⟩ := h
  exact hf c v

/-- What goes on without swallowing keeps the difference. -/
theorem Twin.set (h : Twin c d) (f : Conn → Conn) (hf : ∀ c v, f { c with sbytes := v } = { f c with sbytes := v })
    (hsbytes : (f c).sbytes = c.sbytes) (hgo : (f c).write_and_go = .conn_swallow → c.write_and_go = .conn_swallow)
    (hstate : (f c).state = .conn_swallow → c.state = .conn_swallow) : Twin (f c) (f d) := by
  obtain ⟨v, rfl, hv⟩ := h
  refine ⟨v, hf c v, ?_⟩
  rw [hsbytes]
  exact hv.imp_right fun hv => ⟨hv.1, hv.2.imp_right fun hv => ⟨fun h => hv.1 (hgo h), fun h => hv.2 (hstate h)⟩⟩

theorem Twin.state (h : Twin c d) (state : ConnState) (hstate : state ≠ .conn_swallow) :
    Twin { c with state := state } { d with state := state } :=
  h.set (fun c => { c with state := state }) (fun _ _ => rfl) rfl id fun he => absurd he hstate

theorem Twin.reply (h : Twin c d) (state go : ConnState) (hstate : state ≠ .conn_swallow) (hgo : go ≠ .conn_swallow) :
    Twin { c with state := state, write_and_go := go } { d with state := state, write_and_go := go } :=
  h.set (fun c => { c with state := state, write_and_go := go }) (fun _ _ => rfl) rfl (fun he => absurd he hgo)
    fun he => absurd he hstate

theorem Twin.go (h : Twin c d) (go : ConnState) (hgo : go ≠ .conn_swallow) :
    Twin { c with write_and_go := go } { d with write_and_go := go } :=
  h.set (fun c => { c with write_and_go := go }) (fun _ _ => rfl) rfl (fun he => absurd he hgo) id

/-! ## Responses -/

theorem Twin.write_bin_error (h : Twin c d) (n : Int) : Twin (c.write_bin_error n) (d.write_bin_error n) := by
  simp only [Conn.write_bin_error]
  split
  · obtain ⟨v, rfl, -⟩ := h
    exact Twin.rfl'
  · exact h.reply .conn_mwrite .conn_new_cmd (by simp) (by simp)

/-- `write_and_go` is `conn_swallow` behind an error: there is something to swallow, or nothing on either. -/
theorem Twin.refused (h : Twin c d) {n : Int} (hn : n ≤ 0 → d.sbytes ≤ 0) :
    Twin { c.write_bin_error n with write_and_go := .conn_swallow } { d.write_bin_error n with write_and_go := .conn_swallow } := by
  obtain ⟨v, rfl, hv⟩ := h
  simp only [Conn.write_bin_error]
  split
  · exact Twin.rfl'
  · next hpos =>
    exact ⟨v, rfl, hv.imp_right fun hv => ⟨hv.1, .inl (hn (by omega))⟩⟩

theorem Twin.write_bin_response (h : Twin c d) : Twin c.write_bin_response d.write_bin_response := by
  obtain ⟨v, rfl, -⟩ := id h
  simp only [Conn.write_bin_response]
  split
  · exact h.reply .conn_mwrite .conn_new_cmd (by simp) (by simp)
  · exact h.state .conn_new_cmd (by simp)

theorem Twin.out_string (h : Twin c d) : Twin c.out_string d.out_string := by
  obtain ⟨v, rfl, -⟩ := id h
  simp only [Conn.out_string]
  split
  · exact h.set (fun c => { c with noreply := false, state := .conn_new_cmd }) (fun _ _ => rfl) rfl id (by simp)
  · exact h.reply .conn_write .conn_new_cmd (by simp) (by simp)

theorem Twin.out_of_memory (h : Twin c d) : Twin c.out_of_memory d.out_of_memory := by
  simp only [Conn.out_of_memory, h.field Conn.protocol fun _ _ => rfl]
  cases c.protocol with
  | binary_prot => exact h.write_bin_error 0
  | ascii_prot => exact h.out_string

/-- The bytes to swallow are set. -/
theorem Twin.set_sbytes (h : Twin c d) (n : Int) (go : ConnState) :
    Twin { c with sbytes := n, write_and_go := go } { d with sbytes := n, write_and_go := go } := by
  obtain ⟨v, rfl, -⟩ := h
  exact Twin.rfl'

/-! ## Dispatch -/

theorem Twin.handle_binary_protocol_error (h : Twin c d) :
    Twin c.handle_binary_protocol_error d.handle_binary_protocol_error :=
  (h.write_bin_error 0).go .conn_closing (by simp)

theorem Twin.bin_read_key (h : Twin c d) (next_substate : BinSubstate) (extra : Nat) (realloc_ok : Bool) :
    Twin (c.bin_read_key next_substate extra realloc_ok) (d.bin_read_key next_substate extra realloc_ok) :=
  h.set (·.bin_read_key next_substate extra realloc_ok) (fun _ _ => by cases realloc_ok <;> rfl)
    (by cases realloc_ok <;> rfl) (by cases realloc_ok <;> exact id) (by cases realloc_ok <;> simp [Conn.bin_read_key])

theorem Twin.init_sasl_conn (h : Twin c d) (a : Answers) :
    Twin (c.init_sasl_conn settings a) (d.init_sasl_conn settings a) := by
  simp only [Conn.init_sasl_conn]
  split
  · exact h
  · exact h.set (fun c => { c with authenticated := false, sasl_conn := c.sasl_conn || a.sasl_server_new_ok })
      (fun _ _ => rfl) rfl id id

theorem Twin.body_after_key (h : Twin c d) : d.body_after_key = c.body_after_key :=
  h.field Conn.body_after_key fun _ _ => rfl

theorem Twin.bin_list_sasl_mechs (h : Twin c d) (a : Answers) :
    Twin (c.bin_list_sasl_mechs settings a) (d.bin_list_sasl_mechs settings a) := by
  simp only [Conn.bin_list_sasl_mechs, h.body_after_key]
  split_ifs
  · exact h.write_bin_error _
  · exact (h.init_sasl_conn a).write_bin_error 0
  · exact (h.init_sasl_conn a).write_bin_response

theorem Twin.quit (h : Twin c d) : Twin (if c.noreply then { c with state := .conn_closing } else c)
    (if d.noreply then { d with state := .conn_closing } else d) := by
  obtain ⟨v, rfl, -⟩ := id h
  dsimp only
  split
  · exact h.state .conn_closing (by simp)
  · exact h

theorem Twin.dispatch_cmd (h : Twin c d) (a : Answers) :
    Twin (c.dispatch_cmd settings a) (d.dispatch_cmd settings a) := by
  have herror := h.handle_binary_protocol_error
  have hkey := fun next_substate extra => h.bin_read_key next_substate extra a.realloc_ok
  simp only [Conn.dispatch_cmd, h.field Conn.binary_header fun _ _ => rfl, h.field Conn.cmd fun _ _ => rfl]
  cases c.cmd <;> dsimp only
  all_goals first
    | exact h.write_bin_error _
    | split
  all_goals first
    | exact herror
    | exact hkey _ _
    | exact h.write_bin_response
    | exact h.bin_list_sasl_mechs a
    | exact (h.write_bin_response.go .conn_closing (by simp)).quit

theorem Twin.dispatch_bin_command (h : Twin c d) (a : Answers) :
    Twin (c.dispatch_bin_command settings a) (d.dispatch_bin_command settings a) := by
  have hquiet : Twin { c with cmd := c.cmd.quiet.1, noreply := c.cmd.quiet.2 }
      { d with cmd := d.cmd.quiet.1, noreply := d.cmd.quiet.2 } :=
    h.set (fun c => { c with cmd := c.cmd.quiet.1, noreply := c.cmd.quiet.2 }) (fun _ _ => rfl) rfl id id
  have hlong : Twin { c with noreply := true } { d with noreply := true } :=
    h.set (fun c => { c with noreply := true }) (fun _ _ => rfl) rfl id id
  have hauth : d.is_authenticated = c.is_authenticated := h.field Conn.is_authenticated fun _ _ => rfl
  obtain ⟨v, rfl, -⟩ := id h
  simp only [Conn.dispatch_bin_command, hauth]
  split_ifs
  · exact (h.write_bin_error 0).go .conn_closing (by simp)
  · exact (h.write_bin_error 0).go .conn_closing (by simp)
  · exact hlong.handle_binary_protocol_error
  · exact hquiet.dispatch_cmd a

/-! ## Handlers -/

/-- A request is refused whose body has nothing to swallow, and `write_and_go` is `conn_swallow` all the same. -/
def SwallowsNothing (settings : Settings) (c : Conn) (a : Answers) : Prop :=
  c.protocol = .binary_prot ∧
    match c.substate with
    | .bin_reading_set_header =>
        a.item_alloc = none ∧ a.item_size_ok = false ∧
          (if c.cmd = .APPEND ∨ c.cmd = .PREPEND then c.body_after_key
          else c_int (c.binary_header.bodylen.toNat -
            (c.binary_header.keylen.toNat + c.binary_header.extlen.toNat : Int))) ≤ 0
    | .bin_reading_sasl_auth =>
        settings.sasl ∧ (c.binary_header.keylen.toNat > MAX_SASL_MECH_LEN ∨ a.item_alloc ≠ some false) ∧ c.body_after_key ≤ 0
    | .bin_reading_sasl_auth_data =>
        (∃ it ∈ c.item, c.binary_header.keylen.toNat > it.nkey ∨ c.body_after_key > it.nbytes) ∧ c.body_after_key ≤ 0
    | _ => False

/-- The value of a request is read next, or refused. -/
theorem Twin.alloc (h : Twin c d) {vlen : Int} (a : Answers) (cmd : Cmd)
    (hvlen : a.item_alloc = none → a.item_size_ok = false → vlen ≤ 0 → d.sbytes ≤ 0) :
    Twin (match a.item_alloc with
        | none => { (if !a.item_size_ok then c.write_bin_error vlen else { c.out_of_memory with sbytes := vlen }) with
            write_and_go := .conn_swallow }
        | some chunked => { c.alloc_value (c_int (vlen + 2)) chunked with
            cmd := cmd, rlbytes := vlen, substate := .bin_read_set_value })
      (match a.item_alloc with
        | none => { (if !a.item_size_ok then d.write_bin_error vlen else { d.out_of_memory with sbytes := vlen }) with
            write_and_go := .conn_swallow }
        | some chunked => { d.alloc_value (c_int (vlen + 2)) chunked with
            cmd := cmd, rlbytes := vlen, substate := .bin_read_set_value }) := by
  cases halloc : a.item_alloc with
  | none =>
      dsimp only
      split
      · next hsize => exact h.refused fun hle => hvlen halloc (by simpa using hsize) hle
      · exact h.out_of_memory.set_sbytes vlen .conn_swallow
  | some chunked =>
      exact h.set (fun c => { c.alloc_value (c_int (vlen + 2)) chunked with
        cmd := cmd, rlbytes := vlen, substate := .bin_read_set_value }) (fun _ _ => rfl) rfl id (by simp [alloc_value])

theorem Twin.noted (h : Twin c d) (n : Int) :
    Twin { c with value_allocs := n :: c.value_allocs } { d with value_allocs := n :: d.value_allocs } :=
  h.set (fun c => { c with value_allocs := n :: c.value_allocs }) (fun _ _ => rfl) rfl id id

theorem Twin.process_bin_update (h : Twin c d) (a : Answers)
    (hsafe : a.item_alloc = none → a.item_size_ok = false → c_int (c.binary_header.bodylen.toNat -
      (c.binary_header.keylen.toNat + c.binary_header.extlen.toNat : Int)) ≤ 0 → d.sbytes ≤ 0) :
    Twin (c.process_bin_update a) (d.process_bin_update a) := by
  obtain ⟨v, rfl, -⟩ := id h
  exact (h.noted _).alloc a _ hsafe

theorem Twin.process_bin_append_prepend (h : Twin c d) (a : Answers)
    (hsafe : a.item_alloc = none → a.item_size_ok = false → c.body_after_key ≤ 0 → d.sbytes ≤ 0) :
    Twin (c.process_bin_append_prepend a) (d.process_bin_append_prepend a) := by
  obtain ⟨v, rfl, -⟩ := id h
  exact (h.noted _).alloc a _ hsafe

theorem Twin.complete_update_bin (h : Twin c d) (a : Answers) :
    Twin (c.complete_update_bin a) (d.complete_update_bin a) := by
  have hdone {c d : Conn} (h : Twin c d) : Twin { c with item := none } { d with item := none } :=
    h.set (fun c => { c with item := none }) (fun _ _ => rfl) rfl id id
  simp only [Conn.complete_update_bin]
  split
  · exact hdone h.write_bin_response
  · exact hdone (h.write_bin_error 0)

theorem Twin.process_bin_get_or_touch (h : Twin c d) (a : Answers) :
    Twin (c.process_bin_get_or_touch a) (d.process_bin_get_or_touch a) := by
  obtain ⟨v, rfl, -⟩ := id h
  simp only [Conn.process_bin_get_or_touch]
  split_ifs
  · exact h.reply .conn_mwrite .conn_new_cmd (by simp) (by simp)
  · exact h.state .conn_new_cmd (by simp)
  · exact h.reply .conn_mwrite .conn_new_cmd (by simp) (by simp)
  · exact h.write_bin_error 0

theorem Twin.write_and_free (h : Twin c d) : Twin c.write_and_free d.write_and_free :=
  h.reply .conn_write .conn_new_cmd (by simp) (by simp)

theorem Twin.process_bin_stat (h : Twin c d) (a : Answers) : Twin (c.process_bin_stat a) (d.process_bin_stat a) := by
  simp only [Conn.process_bin_stat]
  split
  · exact h.write_and_free
  · exact h.write_bin_error 0

theorem Twin.process_bin_delete (h : Twin c d) (a : Answers) :
    Twin (c.process_bin_delete a) (d.process_bin_delete a) := by
  simp only [Conn.process_bin_delete]
  split
  · exact h.write_bin_response
  · exact h.write_bin_error 0

theorem Twin.complete_incr_bin (h : Twin c d) (a : Answers) :
    Twin (c.complete_incr_bin a) (d.complete_incr_bin a) := by
  simp only [Conn.complete_incr_bin]
  cases a.add_delta with
  | OK => exact h.write_bin_response
  | NON_NUMERIC => exact h.write_bin_error 0
  | DELTA_ITEM_CAS_MISMATCH => exact h.write_bin_error 0
  | EOM => exact h.out_of_memory
  | DELTA_ITEM_NOT_FOUND =>
      dsimp only
      split_ifs
      · exact h.write_bin_error 0
      · exact h.out_of_memory
      · exact h.write_bin_response
      · exact h.write_bin_error 0

theorem Twin.process_bin_flush (h : Twin c d) :
    Twin (c.process_bin_flush settings) (d.process_bin_flush settings) := by
  simp only [Conn.process_bin_flush]
  split
  · exact h.write_bin_error 0
  · exact h.write_bin_response

theorem Twin.process_bin_sasl_auth (h : Twin c d) (a : Answers)
    (hsafe : settings.sasl = true → c.binary_header.keylen.toNat > MAX_SASL_MECH_LEN ∨ a.item_alloc ≠ some false →
      c.body_after_key ≤ 0 → d.sbytes ≤ 0) :
    Twin (c.process_bin_sasl_auth settings a) (d.process_bin_sasl_auth settings a) := by
  have hkey := h.body_after_key
  obtain ⟨v, rfl, -⟩ := id h
  simp only [Conn.process_bin_sasl_auth, hkey]
  split_ifs with hsasl hlong
  · exact h.write_bin_error _
  · exact h.refused (hsafe (by simpa using hsasl) (.inl hlong))
  · have h := h.noted (c_int (c.body_after_key + 2))
    have hrefused (hne : a.item_alloc ≠ some false) := h.refused (hsafe (by simpa using hsasl) (.inr hne))
    cases halloc : a.item_alloc with
    | none => exact hrefused (by simp [halloc])
    | some chunked =>
        cases chunked with
        | true => exact hrefused (by simp [halloc])
        | false =>
            exact h.set (fun c' => { c'.alloc_value (c_int (c.body_after_key + 2)) false with
              rlbytes := c.body_after_key, substate := .bin_reading_sasl_auth_data }) (fun _ _ => rfl) rfl id
              (by simp [alloc_value])

theorem Twin.process_bin_complete_sasl_auth (h : Twin c d) (it : Item) (a : Answers)
    (hsafe : c.binary_header.keylen.toNat > it.nkey ∨ c.body_after_key > it.nbytes → c.body_after_key ≤ 0 → d.sbytes ≤ 0) :
    Twin (c.process_bin_complete_sasl_auth settings it a) (d.process_bin_complete_sasl_auth settings it a) := by
  have hinit : Twin (c.init_sasl_conn settings a) (d.init_sasl_conn settings a) := h.init_sasl_conn a
  have hheader : (c.init_sasl_conn settings a).binary_header = c.binary_header := by
    simp only [Conn.init_sasl_conn]
    split <;> rfl
  have hsbytes : (d.init_sasl_conn settings a).sbytes = d.sbytes := by
    simp only [Conn.init_sasl_conn]
    split <;> rfl
  have hkey : (c.init_sasl_conn settings a).body_after_key = c.body_after_key := by
    rw [Conn.body_after_key, hheader, Conn.body_after_key]
  simp only [Conn.process_bin_complete_sasl_auth]
  generalize c.init_sasl_conn settings a = c' at *
  generalize d.init_sasl_conn settings a = d' at *
  rw [← hsbytes, ← hheader, ← hkey] at hsafe
  rw [hinit.body_after_key]
  obtain ⟨v, rfl, -⟩ := id hinit
  split_ifs with hlong hvalue
  · exact hinit.refused (hsafe (.inl hlong))
  · exact hinit.refused (hsafe (.inr hvalue))
  · cases a.sasl with
    | SASL_OK =>
        exact (hinit.set (fun c => { c with authenticated := true }) (fun _ _ => rfl) rfl id id).write_bin_response
    | SASL_CONTINUE => exact hinit.reply .conn_mwrite .conn_new_cmd (by simp) (by simp)
    | error => exact hinit.write_bin_error 0

/-- The handlers of the binary protocol. -/
theorem Twin.complete_nread_binary (h : Twin c d) (a : Answers) (hp : c.protocol = .binary_prot)
    (hsafe : SwallowsNothing settings c a → d.sbytes ≤ 0) :
    Option.Rel Twin (c.complete_nread_binary settings a) (d.complete_nread_binary settings a) := by
  have hsub : d.substate = c.substate := h.field Conn.substate fun _ _ => rfl
  have hitem : d.item = c.item := h.field Conn.item fun _ _ => rfl
  have hcmd : d.cmd = c.cmd := h.field Conn.cmd fun _ _ => rfl
  simp only [Conn.complete_nread_binary, hsub, hitem, hcmd]
  cases hsubstate : c.substate with
  | bin_no_state => exact .none
  | bin_reading_set_header =>
      dsimp only
      split
      · next happend =>
        exact .some (h.process_bin_append_prepend a fun halloc hsize hvlen =>
          hsafe ⟨hp, by simp [hsubstate, halloc, hsize, happend, hvlen]⟩)
      · next happend =>
        exact .some (h.process_bin_update a fun halloc hsize hvlen =>
          hsafe ⟨hp, by simp [hsubstate, halloc, hsize, happend]; exact hvlen⟩)
  | bin_read_set_value =>
      cases c.item with
      | none => exact .none
      | some it => exact .some (h.complete_update_bin a)
  | bin_reading_get_key => exact .some (h.process_bin_get_or_touch a)
  | bin_reading_touch_key => exact .some (h.process_bin_get_or_touch a)
  | bin_reading_stat => exact .some (h.process_bin_stat a)
  | bin_reading_del_header => exact .some (h.process_bin_delete a)
  | bin_reading_incr_header => exact .some (h.complete_incr_bin a)
  | bin_read_flush_exptime => exact .some h.process_bin_flush
  | bin_reading_sasl_auth =>
      exact .some (h.process_bin_sasl_auth a fun hsasl hrefused hvlen =>
        hsafe ⟨hp, by simp only [hsubstate]; exact ⟨hsasl, hrefused, hvlen⟩⟩)
  | bin_reading_sasl_auth_data =>
      cases hit : c.item with
      | none => exact .none
      | some it =>
          exact .some (h.process_bin_complete_sasl_auth it a fun hrefused hvlen =>
            hsafe ⟨hp, by simp only [hsubstate]; exact ⟨⟨it, hit, hrefused⟩, hvlen⟩⟩)

theorem Twin.read_block (h : Twin c d) (nkey : Nat) (vlen : Int) (comm : Comm) (a : Answers) :
    Twin (c.read_block nkey vlen comm a) (d.read_block nkey vlen comm a) := by
  have h := h.noted vlen
  simp only [Conn.read_block]
  cases a.item_alloc with
  | none =>
      dsimp only
      split
      · exact h.out_string.set_sbytes vlen .conn_swallow
      · exact h.out_of_memory.set_sbytes vlen .conn_swallow
  | some chunked =>
      exact h.set (fun c => { c with
        item := some { nkey := nkey, nbytes := vlen, chunked := chunked }
        rlbytes := vlen
        cmd := .nread comm
        state := .conn_nread }) (fun _ _ => rfl) rfl id (by simp)

/-- The storage commands. -/
theorem Twin.process_command (h : Twin c d) (numbers : Numbers) (command : List UInt8) (a : Answers) :
    Option.Rel Twin (c.process_command numbers command a) (d.process_command numbers command a) := by
  have hnoreply (tokens : List (List UInt8)) : Twin (c.set_noreply_maybe tokens) (d.set_noreply_maybe tokens) := by
    simp only [Conn.set_noreply_maybe]
    split
    · exact h.set (fun c => { c with noreply := true }) (fun _ _ => rfl) rfl id id
    · exact h
  simp only [Conn.process_command]
  cases update_command (tokenize_command command) with
  | none => exact .none
  | some update =>
      refine .some ?_
      have h := hnoreply (tokenize_command command)
      simp only [Conn.process_update_command]
      split_ifs
      · exact h.out_string
      · split <;> exact h.out_string
      · split
        · split
          · exact h.out_string
          · exact h.read_block _ _ _ a
        · exact h.out_string

theorem Twin.complete_nread_ascii (h : Twin c d) (a : Answers) :
    Option.Rel Twin (c.complete_nread_ascii a) (d.complete_nread_ascii a) := by
  have hitem : d.item = c.item := h.field Conn.item fun _ _ => rfl
  have hdone {c d : Conn} (h : Twin c d) : Twin { c with item := none } { d with item := none } :=
    h.set (fun c => { c with item := none }) (fun _ _ => rfl) rfl id id
  simp only [Conn.complete_nread_ascii, hitem]
  cases c.item with
  | none => exact .none
  | some it =>
      dsimp only
      split_ifs
      · exact .none
      · exact .some (hdone h.out_string)
      · cases a.store_item with
        | TOO_LARGE => exact .some (hdone h)
        | NO_MEMORY => exact .some (hdone h)
        | _ => exact .some (hdone h.out_string)

theorem Twin.process_reply (h : Twin c d) (reply : Reply) :
    Twin (Input.process_reply c reply) (Input.process_reply d reply) := by
  cases reply with
  | out_string noreply =>
      exact (h.set (fun c => { c with noreply := c.noreply || noreply }) (fun _ _ => rfl) rfl id id).out_string
  | conn_mwrite => exact h.state .conn_mwrite (by simp)
  | write_and_free => exact h.write_and_free
  | conn_closing => exact h.state .conn_closing (by simp)
  | conn_watch => exact h.state .conn_new_cmd (by simp)

/-! ## Steps -/

theorem Twin.network_read (h : Twin c d) (res : ReadResult) : Twin (c.network_read res) (d.network_read res) := by
  cases res with
  | data res =>
      exact h.set (fun c => { c with rbytes := c.rbytes + res, state := .conn_parse_cmd }) (fun _ _ => rfl) rfl id (by simp)
  | eagain => exact h.state .conn_waiting (by simp)
  | no_memory =>
      exact (h.set (fun c => { c with rbytes := 0 }) (fun _ _ => rfl) rfl id id).out_of_memory.go .conn_closing (by simp)
  | eof => exact h.state .conn_closing (by simp)
  | error => exact h.state .conn_closing (by simp)

theorem Twin.nread_failed (h : Twin c d) (res : ReadResult) : Twin (c.nread_failed res) (d.nread_failed res) := by
  cases res with
  | data res => exact h
  | eagain => exact h
  | no_memory =>
      have hrl : d.rlbytes = c.rlbytes := h.field Conn.rlbytes fun _ _ => rfl
      simp only [Conn.nread_failed, hrl]
      exact h.out_of_memory.set_sbytes _ _
  | eof => exact h.state .conn_closing (by simp)
  | error => exact h.state .conn_closing (by simp)

theorem Twin.fill (h : Twin c d) (n : Nat) : Twin (c.fill n) (d.fill n) :=
  h.set (·.fill n) (fun _ _ => rfl) rfl id id

theorem Twin.command_line (h : Twin c d) (stream : Nat → UInt8) : d.command_line stream = c.command_line stream :=
  h.field (·.command_line stream) fun _ _ => rfl

/-- A whole request. -/
theorem Twin.try_read_command (h : Twin c d) (w : World) (a : Answers) :
    Option.Rel Twin (c.try_read_command w a) (d.try_read_command w a) := by
  have hline := h.command_line w.stream
  have hcommand (command : List UInt8) := h.process_command w.numbers command a
  obtain ⟨v, rfl, -⟩ := id h
  simp only [Conn.try_read_command, hline]
  split
  · split_ifs
    · exact .some (h.state .conn_waiting (by simp))
    · exact .some (h.set (fun c => { c with binary_header := Header.at_pos w.stream c.pos, state := .conn_closing })
        (fun _ _ => rfl) rfl id (by simp))
    · have hheader := h.set (fun c => { c with
        binary_header := Header.at_pos w.stream c.pos
        cmd := .of_opcode (Header.at_pos w.stream c.pos).opcode }) (fun _ _ => rfl) rfl id id
      exact .some ((hheader.dispatch_bin_command a).set (fun c => { c with rbytes := c.rbytes - 24, pos := c.pos + 24 })
        (fun _ _ => rfl) rfl id id)
  · cases c.command_line w.stream with
    | none => exact .some (h.state _ (by split <;> simp))
    | some line =>
        exact rel_map (hcommand line.1) fun h => h.set (fun c => { c with rbytes := c.rbytes - (line.2 - c.pos), pos := line.2 })
          (fun _ _ => rfl) rfl id id

/-- Where bytes are thrown away, the two do not differ, or neither throws any away. -/
theorem Twin.swallowing (h : Twin c d) (hstate : c.state = .conn_swallow) : d = c ∨ c.sbytes ≤ 0 ∧ d.sbytes ≤ 0 := by
  obtain ⟨v, rfl, hv⟩ := h
  rcases hv with rfl | ⟨hc, hv | hv⟩
  · exact .inl rfl
  · exact .inr ⟨hc, hv⟩
  · exact absurd hstate hv.2

theorem rel_refl (x : Option Conn) : Option.Rel Twin x x := by
  cases x with
  | none => exact .none
  | some c => exact .some Twin.rfl'

theorem Twin.drive_swallow (h : Twin c d) {w : World} (e : Event) (hstate : c.state = .conn_swallow) :
    Option.Rel Twin (c.drive_machine w e) (d.drive_machine w e) := by
  rcases h.swallowing hstate with rfl | ⟨hc, hd⟩
  · exact rel_refl _
  · have hdstate : d.state = .conn_swallow := (h.field Conn.state fun _ _ => rfl).trans hstate
    have hcpos : ¬ 0 < c.sbytes := by omega
    have hdpos : ¬ 0 < d.sbytes := by omega
    cases e with
    | swallowed =>
        simp only [Conn.drive_machine, hstate, hdstate, hc, hd, if_true]
        exact .some (h.state .conn_new_cmd (by simp))
    | read res =>
        cases res <;> simp only [Conn.drive_machine, hstate, hdstate, hcpos, hdpos, false_and, if_false] <;> exact .none
    | leftovers =>
        simp only [Conn.drive_machine, hstate, hdstate, hcpos, hdpos, false_and, if_false]
        exact .none
    | _ =>
        simp only [Conn.drive_machine, hstate, hdstate]
        exact .none

theorem Twin.complete_nread (h : Twin c d) (w : World) (a : Answers)
    (hsafe : SwallowsNothing w.settings c a → d.sbytes ≤ 0) :
    Option.Rel Twin (c.complete_nread w a) (d.complete_nread w a) := by
  have hprotocol : d.protocol = c.protocol := h.field Conn.protocol fun _ _ => rfl
  simp only [Conn.complete_nread, hprotocol]
  cases hp : c.protocol with
  | ascii_prot => exact h.complete_nread_ascii a
  | binary_prot => exact h.complete_nread_binary a hp hsafe

theorem rel_ite {p : Prop} [Decidable p] (h : Twin c d) :
    Option.Rel Twin (if p then some c else none) (if p then some d else none) := by
  split
  · exact .some h
  · exact .none

/-- What is sent is followed by `write_and_go`. -/
theorem Twin.follow (h : Twin c d) :
    Twin { c with state := c.write_and_go } { d with state := d.write_and_go } := by
  obtain ⟨v, rfl, hv⟩ := h
  exact ⟨v, rfl, hv.imp_right fun hv => ⟨hv.1, hv.2.imp_right fun hgo => ⟨hgo.1, hgo.1⟩⟩⟩

/-- A step, unless it has to swallow what is left of an earlier request. -/
theorem Twin.drive_machine (h : Twin c d) {w : World} (e : Event)
    (hsafe : ∀ a, e = .complete_nread a → SwallowsNothing w.settings c a → d.sbytes ≤ 0) :
    Option.Rel Twin (c.drive_machine w e) (d.drive_machine w e) := by
  by_cases hswallow : c.state = .conn_swallow
  · exact h.drive_swallow e hswallow
  obtain ⟨v, rfl, -⟩ := id h
  obtain ⟨protocol, state, go, substate, cmd, noreply, authenticated, sasl_conn, header, pos, rbytes, rlbytes, sbytes, item,
    allocs⟩ := c
  cases state with
  | conn_swallow => exact absurd rfl hswallow
  | conn_new_cmd =>
      cases e with
      | reset_cmd_handler =>
          exact .some (h.set (·.reset_cmd_handler) (fun _ _ => rfl) rfl id
            (by simp only [Conn.reset_cmd_handler]; split <;> simp))
      | _ => exact .none
  | conn_waiting =>
      cases e with
      | update_event ok => exact .some (h.state (if ok then .conn_read else .conn_closing) (by cases ok <;> simp))
      | _ => exact .none
  | conn_read =>
      cases e with
      | try_read_network res =>
          cases res with
          | data res => exact rel_ite (h.network_read (.data res))
          | _ => exact .some (h.network_read _)
      | _ => exact .none
  | conn_parse_cmd =>
      cases e with
      | try_read_command a => exact h.try_read_command w a
      | _ => exact .none
  | conn_nread =>
      cases e with
      | complete_nread a =>
          simp only [Conn.drive_machine]
          split
          · exact h.complete_nread w a (hsafe a rfl)
          · exact .none
      | invalid_rlbytes => exact rel_ite (h.state .conn_closing (by simp))
      | leftovers => exact rel_ite (h.fill _)
      | read res =>
          cases res with
          | data res => exact rel_ite (h.fill res)
          | no_memory => exact .none
          | _ => exact rel_ite (h.nread_failed _)
      | read_into_chunked_item consumed res => exact rel_ite ((h.fill consumed).nread_failed res)
      | _ => exact .none
  | conn_write =>
      cases e with
      | transmit complete =>
          cases complete with
          | true => exact .some h.follow
          | false => exact .some (h.state .conn_closing (by simp))
      | _ => exact .none
  | conn_mwrite =>
      cases e with
      | transmit complete =>
          cases complete with
          | true =>
              cases protocol with
              | binary_prot => exact .some h.follow
              | ascii_prot => exact .some (h.state .conn_new_cmd (by simp))
          | false => exact .some (h.state .conn_closing (by simp))
      | _ => exact .none
  | conn_closing => cases e <;> exact .none

end Conn

end Memcached.Thread

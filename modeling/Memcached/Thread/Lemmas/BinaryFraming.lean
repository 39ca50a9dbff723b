import Memcached.Thread.Lemmas.BinaryHandlers

/-!
# The bytes a binary request still owes

In every state of a request, the connection owes the stream a number of bytes and the allocator a number of calls.
One step pays some of each; a connection about to close pays no more.
-/

namespace Memcached.Thread.Conn

/-! ## Accounts -/

/-- The `vlen` of `process_bin_update` and of `process_bin_append_prepend`. -/
def value_length (c : Conn) : Int :=
  if c.cmd = .APPEND ∨ c.cmd = .PREPEND then c.body_after_key
  else c_int (c.binary_header.bodylen.toNat - (c.binary_header.keylen.toNat + c.binary_header.extlen.toNat : Int))

/-- The bytes to be read after those `conn_nread` is waiting for. -/
def owed_then (c : Conn) : Nat :=
  match c.substate with
  | .bin_reading_set_header => c.value_length.toNat
  | .bin_reading_sasl_auth => c.body_after_key.toNat
  | _ => 0

/-- The bytes of the request that are still to be used up. -/
def owed (c : Conn) : Nat :=
  match c.state with
  | .conn_nread => c.rlbytes.toNat + c.owed_then
  | .conn_swallow => c.sbytes.toNat
  | .conn_write | .conn_mwrite => if c.write_and_go = .conn_swallow then c.sbytes.toNat else 0
  | _ => 0

/-- The value lengths still to be handed to `item_alloc`. -/
def allocs_owed (settings : Settings) (c : Conn) : List Int :=
  match c.state, c.substate with
  | .conn_nread, .bin_reading_set_header => [c_int (c.value_length + 2)]
  | .conn_nread, .bin_reading_sasl_auth =>
      if settings.sasl ∧ c.binary_header.keylen.toNat ≤ MAX_SASL_MECH_LEN then [c_int (c.body_after_key + 2)] else []
  | _, _ => []

/-- The request ends with the connection closed. -/
def Doomed (c : Conn) : Prop :=
  c.protocol = .binary_prot ∧
    (c.state = .conn_closing ∨ (c.state = .conn_write ∨ c.state = .conn_mwrite) ∧ c.write_and_go = .conn_closing)

/-- The item that a substate may find. -/
def item_fits (c : Conn) : Prop :=
  match c.substate with
  | .bin_read_set_value => True
  | .bin_reading_sasl_auth_data =>
      ∀ it ∈ c.item, it.chunked = false ∧ it.nbytes = c_int (c.body_after_key + 2) ∧
        it.nkey = c.binary_header.keylen.toNat
  | _ => c.item = none

/-- Nothing is left over of the last request when one begins, and nothing is to be swallowed while it is read. -/
def Tidy (c : Conn) : Prop :=
  match c.state with
  | .conn_new_cmd => c.sbytes ≤ 0
  | .conn_waiting | .conn_read | .conn_parse_cmd => c.sbytes ≤ 0 ∧ c.item = none ∧ c.value_allocs = []
  | .conn_nread => c.sbytes ≤ 0 ∧ c.item_fits
  | .conn_write | .conn_mwrite =>
      c.write_and_go = .conn_closing ∨ c.write_and_go = .conn_swallow ∨ c.write_and_go = .conn_new_cmd ∧ c.sbytes ≤ 0
  | .conn_swallow | .conn_closing => True

/-- A request has been parsed, and the next one has not begun. -/
def InRequest (c : Conn) : Prop :=
  match c.state with
  | .conn_waiting | .conn_read | .conn_parse_cmd => False
  | _ => True

/-- A SASL value that is read is no longer than its item. -/
def SaslFits (settings : Settings) (c : Conn) : Prop :=
  c.state = .conn_nread →
    c.substate = .bin_reading_sasl_auth ∧ settings.sasl ∧ c.binary_header.keylen.toNat ≤ MAX_SASL_MECH_LEN ∨
      c.substate = .bin_reading_sasl_auth_data →
    c.body_after_key ≤ c_int (c.body_after_key + 2)

/-- From `c` to `c'` the request goes on, and what is paid is no longer owed. -/
structure Progress (settings : Settings) (c c' : Conn) : Prop where
  protocol : c'.protocol = .binary_prot
  tidy : c'.Tidy
  in_request : c'.InRequest
  allocs : c'.allocs_owed settings ++ c'.value_allocs = c.allocs_owed settings ++ c.value_allocs
  fits : c.SaslFits settings → c'.SaslFits settings
  pos : c.SaslFits settings → c'.pos + c'.owed = c.pos + c.owed

section
variable {settings : Settings} {c c₁ c' : Conn}

/-! ## Ends of a request -/

theorem Replied.progress (h : Replied c c') (hp : c.protocol = .binary_prot) (hs : c.sbytes ≤ 0)
    (ho : c.owed = 0) (ha : c.allocs_owed settings = []) : Progress settings c c' := by
  have hp' := h.protocol.trans hp
  have hs' : c'.sbytes ≤ 0 := by rw [h.sbytes]; exact hs
  obtain hst | ⟨hst, hgo⟩ := h.ends
  · constructor <;> simp [hp', hst, Tidy, InRequest, SaslFits, allocs_owed, owed, h.value_allocs, h.pos, hs']
    · simpa [allocs_owed] using ha
    · exact fun _ => by simpa [owed] using ho
  · constructor <;> rcases hst with hst | hst <;>
      simp [hp', hst, hgo, Tidy, InRequest, SaslFits, allocs_owed, owed, h.value_allocs, h.pos, hs']
    · simpa [allocs_owed] using ha
    · simpa [allocs_owed] using ha
    · exact fun _ => by simpa [owed] using ho
    · exact fun _ => by simpa [owed] using ho

theorem Swallows.progress {n : Int} (h : Swallows c₁ n c') (hp : c₁.protocol = .binary_prot) (hpos : c₁.pos = c.pos)
    (ha : c₁.value_allocs = c.allocs_owed settings ++ c.value_allocs) (ho : c.SaslFits settings → c.owed = n.toNat) :
    Progress settings c c' := by
  have hp' := h.protocol.trans hp
  have ha' := h.value_allocs.trans ha
  have hpos' := h.pos.trans hpos
  obtain ⟨hgo, hs⟩ | ⟨hgo, hs, hn⟩ := h.goes
  · constructor <;> simp [hp', h.state, hgo, Tidy, InRequest, SaslFits, ha', hpos']
    · simp [allocs_owed, h.state]
    · exact fun hf => by rw [show c.owed = n.toNat from ho hf]; simp [owed, h.state, hgo, hs]
  · constructor <;> simp [hp', h.state, hgo, hs, Tidy, InRequest, SaslFits, ha', hpos']
    · simp [allocs_owed, h.state]
    · exact fun hf => by rw [show c.owed = n.toNat from ho hf]; simp [owed, h.state, hgo]; omega

/-! ## Handlers -/

section
variable (hst : c.state = .conn_nread) (hr : c.rlbytes = 0)
include hst hr

theorem owed_eq_then : c.owed = c.owed_then := by simp [owed, hst, hr]

theorem alloc_value_progress {n : Int} {chunked : Bool} {sub : BinSubstate} {cmd : Cmd} (hp : c.protocol = .binary_prot)
    (hs : c.sbytes ≤ 0) (ha : c.allocs_owed settings = [c_int (n + 2)]) (ho : c.owed_then = n.toNat)
    (hsub : sub = .bin_read_set_value ∨
      sub = .bin_reading_sasl_auth_data ∧ chunked = false ∧ n = c.body_after_key ∧ c.substate = .bin_reading_sasl_auth ∧
        settings.sasl ∧ c.binary_header.keylen.toNat ≤ MAX_SASL_MECH_LEN) :
    Progress settings c { { c with value_allocs := c_int (n + 2) :: c.value_allocs }.alloc_value (c_int (n + 2)) chunked
      with cmd := cmd, rlbytes := n, substate := sub } := by
  have ho' : c.owed = n.toNat := (owed_eq_then hst hr).trans ho
  obtain rfl | ⟨rfl, rfl, rfl, hsub⟩ := hsub
  · constructor
    case allocs => rw [ha]; rfl
    case pos => exact fun _ => by rw [ho']; simp [alloc_value, owed, owed_then]
    all_goals simp [alloc_value, hp, hs, Tidy, InRequest, SaslFits, item_fits]
  · constructor
    case allocs => rw [ha]; rfl
    case pos => exact fun _ => by rw [ho']; simp [alloc_value, owed, owed_then]
    case fits => exact fun hf _ _ => hf hst (.inl hsub)
    all_goals simp [alloc_value, hp, hs, Tidy, InRequest, item_fits, body_after_key]

/-- `process_bin_update` and `process_bin_append_prepend` differ in how they count the value and in the command. -/
theorem process_bin_update_progress (a : Answers) (hp : c.protocol = .binary_prot) (hs : c.sbytes ≤ 0)
    (hsub : c.substate = .bin_reading_set_header) (hcmd : ¬ (c.cmd = .APPEND ∨ c.cmd = .PREPEND)) :
    Progress settings c (c.process_bin_update a) := by
  have hlen : c.value_length =
      c_int (c.binary_header.bodylen.toNat - (c.binary_header.keylen.toNat + c.binary_header.extlen.toNat : Int)) := by
    simp only [value_length, if_neg hcmd]
  have ha : c.allocs_owed settings = [c_int (c.value_length + 2)] := by simp [allocs_owed, hst, hsub]
  have ho : c.owed_then = c.value_length.toNat := by simp [owed_then, hsub]
  have ho' := (owed_eq_then hst hr).trans ho
  rw [hlen] at ha ho ho'
  unfold process_bin_update
  split
  · split
    · exact (write_bin_error_swallows (by exact hs) _).conn_swallow.progress hp rfl (by rw [ha]; rfl) fun _ => ho'
    · exact (out_of_memory_swallows (by exact hp) _).progress hp rfl (by rw [ha]; rfl) fun _ => ho'
  · exact alloc_value_progress hst hr hp hs ha ho (.inl rfl)

theorem process_bin_append_prepend_progress (a : Answers) (hp : c.protocol = .binary_prot) (hs : c.sbytes ≤ 0)
    (hsub : c.substate = .bin_reading_set_header) (hcmd : c.cmd = .APPEND ∨ c.cmd = .PREPEND) :
    Progress settings c (c.process_bin_append_prepend a) := by
  have hlen : c.value_length = c.body_after_key := by simp only [value_length, if_pos hcmd]
  have ha : c.allocs_owed settings = [c_int (c.value_length + 2)] := by simp [allocs_owed, hst, hsub]
  have ho : c.owed_then = c.value_length.toNat := by simp [owed_then, hsub]
  have ho' := (owed_eq_then hst hr).trans ho
  rw [hlen] at ha ho ho'
  unfold process_bin_append_prepend
  split
  · split
    · exact (write_bin_error_swallows (by exact hs) _).conn_swallow.progress hp rfl (by rw [ha]; rfl) fun _ => ho'
    · exact (out_of_memory_swallows (by exact hp) _).progress hp rfl (by rw [ha]; rfl) fun _ => ho'
  · exact alloc_value_progress hst hr hp hs ha ho (.inl rfl)

theorem process_bin_sasl_auth_progress (a : Answers) (hp : c.protocol = .binary_prot) (hs : c.sbytes ≤ 0)
    (hsub : c.substate = .bin_reading_sasl_auth) : Progress settings c (c.process_bin_sasl_auth settings a) := by
  have ho : c.owed_then = c.body_after_key.toNat := by simp [owed_then, hsub]
  have ho' := (owed_eq_then hst hr).trans ho
  have hswallows := write_bin_error_swallows hs c.body_after_key
  unfold process_bin_sasl_auth
  split
  · next h => exact hswallows.progress hp rfl (by simp_all [allocs_owed]) fun _ => ho'
  split
  · next h => exact hswallows.conn_swallow.progress hp rfl (by simp_all [allocs_owed]) fun _ => ho'
  · next h h' =>
    have ha : c.allocs_owed settings = [c_int (c.body_after_key + 2)] := by simp_all [allocs_owed]
    split
    · exact alloc_value_progress hst hr hp hs ha ho (.inr ⟨rfl, rfl, rfl, hsub, by simpa using h, by omega⟩)
    · exact (write_bin_error_swallows (by exact hs) _).conn_swallow.progress hp rfl (by rw [ha]; rfl) fun _ => ho'

theorem process_bin_complete_sasl_auth_progress {it : Item} (a : Answers) (hp : c.protocol = .binary_prot)
    (hs : c.sbytes ≤ 0) (hsub : c.substate = .bin_reading_sasl_auth_data) (hit : c.item = some it)
    (hfits : c.item_fits) : Progress settings c (c.process_bin_complete_sasl_auth settings it a) := by
  obtain ⟨-, hnbytes, hnkey⟩ : it.chunked = false ∧ it.nbytes = c_int (c.body_after_key + 2) ∧
      it.nkey = c.binary_header.keylen.toNat := by simpa [item_fits, hsub, hit] using hfits
  have ha : c.allocs_owed settings = [] := by simp [allocs_owed, hst, hsub]
  have ho : c.owed = 0 := by simp [owed, hst, hr, owed_then, hsub]
  obtain ⟨b, k, hinit⟩ := init_sasl_conn_eq settings c a
  have hbody : { c with authenticated := b, sasl_conn := k }.body_after_key = c.body_after_key := rfl
  simp only [process_bin_complete_sasl_auth, hinit, hbody, hnkey, hnbytes, gt_iff_lt, lt_irrefl, ↓reduceIte]
  split
  · next h =>
    refine (write_bin_error_swallows (by exact hs) _).conn_swallow.progress hp rfl (by rw [ha]; rfl) fun hf => ?_
    exact absurd (hf hst (.inr hsub)) (Int.not_le.mpr h)
  split
  · have h := write_bin_response_replied { c with authenticated := true, sasl_conn := k }
    exact Replied.progress ⟨h.protocol, h.pos, h.value_allocs, h.sbytes, h.ends⟩ hp hs ho ha
  · exact Replied.progress ⟨rfl, rfl, rfl, rfl, .inr ⟨.inr rfl, rfl⟩⟩ hp hs ho ha
  · have h := write_bin_error_replied { c with authenticated := b, sasl_conn := k }
    exact Replied.progress ⟨h.protocol, h.pos, h.value_allocs, h.sbytes, h.ends⟩ hp hs ho ha

theorem complete_nread_binary_progress {a : Answers} (hp : c.protocol = .binary_prot) (hs : c.sbytes ≤ 0)
    (hfits : c.item_fits) (h : c.complete_nread_binary settings a = some c') : Progress settings c c' := by
  have hends : ∀ {c'}, Replied c c' → c.owed_then = 0 → c.allocs_owed settings = [] → Progress settings c c' :=
    fun h ho ha => h.progress hp hs ((owed_eq_then hst hr).trans ho) ha
  unfold complete_nread_binary at h
  split at h
  case h_1 hsub =>
    split at h
    · next hcmd =>
      obtain rfl := Option.some.inj h
      exact process_bin_append_prepend_progress hst hr a hp hs hsub hcmd
    · next hcmd =>
      obtain rfl := Option.some.inj h
      exact process_bin_update_progress hst hr a hp hs hsub hcmd
  case h_2 hsub =>
    obtain ⟨it, -, rfl⟩ := Option.map_eq_some_iff.mp h
    exact hends (complete_update_bin_replied a) (by simp [owed_then, hsub]) (by simp [allocs_owed, hsub])
  case h_9 hsub =>
    obtain rfl := Option.some.inj h
    exact process_bin_sasl_auth_progress hst hr a hp hs hsub
  case h_10 hsub =>
    obtain ⟨it, hit, rfl⟩ := Option.map_eq_some_iff.mp h
    exact process_bin_complete_sasl_auth_progress hst hr a hp hs hsub hit hfits
  case h_11 hsub => cases h
  all_goals
    next hsub =>
    obtain rfl := Option.some.inj h
    refine hends ?_ (by simp [owed_then, hsub]) (by simp [allocs_owed, hsub])
    first
      | exact process_bin_get_or_touch_replied a
      | exact process_bin_stat_replied a
      | exact process_bin_delete_replied a
      | exact complete_incr_bin_replied a hp
      | exact process_bin_flush_replied settings

end

/-! ## Steps -/

theorem Progress.refl (hp : c.protocol = .binary_prot) (ht : c.Tidy) (hin : c.InRequest) : Progress settings c c :=
  ⟨hp, ht, hin, rfl, id, fun _ => rfl⟩

theorem Progress.trans (h : Progress settings c c₁) (h' : Progress settings c₁ c') : Progress settings c c' where
  protocol := h'.protocol
  tidy := h'.tidy
  in_request := h'.in_request
  allocs := h'.allocs.trans h.allocs
  fits := h'.fits ∘ h.fits
  pos := fun hf => (h'.pos (h.fits hf)).trans (h.pos hf)

theorem fill_progress {n : Nat} (hst : c.state = .conn_nread) (hp : c.protocol = .binary_prot) (ht : c.Tidy)
    (hn : (n : Int) ≤ c.rlbytes) : Progress settings c (c.fill n) where
  protocol := hp
  tidy := by
    have ht' : c.sbytes ≤ 0 ∧ c.item_fits := by simpa only [Tidy, hst] using ht
    simp only [Tidy, show (c.fill n).state = .conn_nread from hst]
    exact ht'
  in_request := by simp [InRequest, fill, hst]
  allocs := rfl
  fits := id
  pos := fun _ => by
    have hthen : (c.fill n).owed_then = c.owed_then := rfl
    simp only [owed, hst, show (c.fill n).state = .conn_nread from hst, hthen]
    simp only [fill]
    omega

theorem swallow_progress {n : Nat} (hst : c.state = .conn_swallow) (hp : c.protocol = .binary_prot)
    (hn : (n : Int) ≤ c.sbytes) : Progress settings c (c.swallow n) where
  protocol := hp
  tidy := by simp [Tidy, swallow, hst]
  in_request := by simp [InRequest, swallow, hst]
  allocs := by simp [allocs_owed, swallow, hst]
  fits := id
  pos := fun _ => by
    simp only [owed, hst, show (c.swallow n).state = .conn_swallow from hst]
    simp only [swallow]
    omega

/-- Only the value of an item is read in chunks: after it nothing is owed. -/
theorem nread_failed_progress {res : ReadResult} (hst : c.state = .conn_nread) (hp : c.protocol = .binary_prot)
    (ht : c.Tidy) (hres : res = .no_memory → c.is_chunked) :
    (c.nread_failed res).Doomed ∨ Progress settings c (c.nread_failed res) := by
  have ht' : c.sbytes ≤ 0 ∧ c.item_fits := by simpa only [Tidy, hst] using ht
  have hin : c.InRequest := by simp [InRequest, hst]
  cases res with
  | data _ => exact .inr (.refl hp ht hin)
  | eagain => exact .inr (.refl hp ht hin)
  | eof => exact .inl ⟨hp, .inl rfl⟩
  | error => exact .inl ⟨hp, .inl rfl⟩
  | no_memory =>
      obtain ⟨it, hit, hch⟩ : ∃ it, c.item = some it ∧ it.chunked := by
        simpa [is_chunked, Option.any_eq_true] using hres rfl
      have hsub : c.substate = .bin_read_set_value := by
        have hfits := ht'.2
        unfold item_fits at hfits
        split at hfits
        · assumption
        · simp [(hfits it hit).1] at hch
        · simp [hfits] at hit
      exact .inr ((out_of_memory_swallows hp c.rlbytes).progress hp rfl (by simp [allocs_owed, hsub])
        fun _ => by simp [owed, hst, owed_then, hsub])

theorem step_doomed {w : World} {e : Event} (hc : c.Doomed) (h : Step w c e c') : c'.Doomed := by
  simp only [Step] at h
  obtain ⟨hp, hst | ⟨hst | hst, hgo⟩⟩ := hc
  · simp [drive_machine, hst] at h
  · cases e <;> simp [drive_machine, hst] at h
    next complete =>
    cases complete <;> simp at h <;> subst h
    · exact ⟨hp, .inl rfl⟩
    · exact ⟨hp, .inl hgo⟩
  · cases e <;> simp [drive_machine, hst] at h
    next complete =>
    cases complete <;> simp [hp] at h <;> subst h
    · exact ⟨rfl, .inl rfl⟩
    · exact ⟨rfl, .inl hgo⟩

theorem transmitted_progress (hst : c.state = .conn_write ∨ c.state = .conn_mwrite) (hp : c.protocol = .binary_prot)
    (ht : c.Tidy) : { c with state := c.write_and_go }.Doomed ∨ Progress settings c { c with state := c.write_and_go } := by
  have ht' : c.write_and_go = .conn_closing ∨ c.write_and_go = .conn_swallow ∨
      c.write_and_go = .conn_new_cmd ∧ c.sbytes ≤ 0 := by rcases hst with hst | hst <;> simpa only [Tidy, hst] using ht
  obtain hgo | hgo | ⟨hgo, hs⟩ := ht'
  · exact .inl ⟨hp, .inl hgo⟩
  · refine .inr ?_
    constructor <;> rcases hst with hst | hst <;> simp [hgo, hp, Tidy, InRequest, SaslFits, allocs_owed, owed, hst]
  · refine .inr ?_
    constructor <;> rcases hst with hst | hst <;> simp [hgo, hp, hs, Tidy, InRequest, SaslFits, allocs_owed, owed, hst]

/-- A request goes on with every step until the next one begins, unless it is doomed. -/
theorem step_progress {w : World} {e : Event} (hp : c.protocol = .binary_prot) (ht : c.Tidy) (hin : c.InRequest)
    (h : Step w c e c') (he : e ≠ .reset_cmd_handler) : c'.Doomed ∨ Progress w.settings c c' := by
  cases hst : c.state with
  | conn_waiting => simp [InRequest, hst] at hin
  | conn_read => simp [InRequest, hst] at hin
  | conn_parse_cmd => simp [InRequest, hst] at hin
  | conn_closing => exact .inl (step_doomed ⟨hp, .inl hst⟩ h)
  | conn_new_cmd => cases e <;> simp [Step, drive_machine, hst] at h he
  | conn_nread =>
      have ht' : c.sbytes ≤ 0 ∧ c.item_fits := by simpa only [Tidy, hst] using ht
      cases e with
      | complete_nread a =>
          simp only [Step, drive_machine, hst, complete_nread, hp, Option.ite_none_right_eq_some] at h
          exact .inr (complete_nread_binary_progress hst h.1 hp ht'.1 ht'.2 h.2)
      | invalid_rlbytes =>
          simp only [Step, drive_machine, hst, Option.ite_none_right_eq_some, Option.some.injEq] at h
          exact .inl (h.2 ▸ ⟨hp, .inl rfl⟩)
      | leftovers =>
          simp only [Step, drive_machine, hst, Option.ite_none_right_eq_some, Option.some.injEq] at h
          obtain ⟨⟨hr, -, -⟩, rfl⟩ := h
          exact .inr (fill_progress hst hp ht (by omega))
      | read res =>
          cases res with
          | data n =>
              simp only [Step, drive_machine, hst, Option.ite_none_right_eq_some, Option.some.injEq] at h
              obtain ⟨⟨-, -, -, -, hn⟩, rfl⟩ := h
              exact .inr (fill_progress hst hp ht hn)
          | no_memory => simp [Step, drive_machine, hst] at h
          | _ =>
              simp only [Step, drive_machine, hst, Option.ite_none_right_eq_some, Option.some.injEq] at h
              obtain ⟨-, rfl⟩ := h
              exact nread_failed_progress hst hp ht nofun
      | read_into_chunked_item n res =>
          simp only [Step, drive_machine, hst, Option.ite_none_right_eq_some, Option.some.injEq] at h
          obtain ⟨⟨-, hch, hn, -⟩, rfl⟩ := h
          have hfill : Progress w.settings c (c.fill n) := fill_progress hst hp ht hn
          exact (nread_failed_progress (c := c.fill n) hst hp hfill.tidy fun _ => hch).imp_right hfill.trans
      | _ => simp [Step, drive_machine, hst] at h
  | conn_swallow =>
      cases e with
      | swallowed =>
          simp only [Step, drive_machine, hst, Option.ite_none_right_eq_some, Option.some.injEq] at h
          obtain ⟨hs, rfl⟩ := h
          refine .inr ?_
          constructor <;> simp [hp, hs, Tidy, InRequest, SaslFits, allocs_owed, owed, hst]
      | leftovers =>
          simp only [Step, drive_machine, hst, Option.ite_none_right_eq_some, Option.some.injEq] at h
          obtain ⟨⟨hs, -⟩, rfl⟩ := h
          exact .inr (swallow_progress hst hp (by omega))
      | read res =>
          cases res <;> simp only [Step, drive_machine, hst, Option.ite_none_right_eq_some, Option.some.injEq] at h
          case data n => exact .inr (h.2 ▸ swallow_progress hst hp h.1.2.2.2)
          case eagain => exact .inr (h.2 ▸ .refl hp ht hin)
          all_goals exact .inl (h.2 ▸ ⟨hp, .inl rfl⟩)
      | _ => simp [Step, drive_machine, hst] at h
  | conn_write =>
      cases e with
      | transmit complete =>
          cases complete <;> simp only [Step, drive_machine, hst, Option.some.injEq] at h <;> subst h
          · exact .inl ⟨hp, .inl rfl⟩
          · exact transmitted_progress (.inl hst) hp ht
      | _ => simp [Step, drive_machine, hst] at h
  | conn_mwrite =>
      cases e with
      | transmit complete =>
          cases complete <;> simp only [Step, drive_machine, hst, Option.some.injEq] at h <;> subst h
          · exact .inl ⟨hp, .inl rfl⟩
          · rw [if_pos hp]
            exact transmitted_progress (.inr hst) hp ht
      | _ => simp [Step, drive_machine, hst] at h

end

end Memcached.Thread.Conn

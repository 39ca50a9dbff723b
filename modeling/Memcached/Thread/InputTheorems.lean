import Memcached.Thread.Lemmas.Input

/-!
# The input buffer over whole runs

On a TCP connection, from its beginning on: what is unread lies in the buffer, and is the part of the stream that comes next.
-/

namespace Memcached.Thread.Input

open Transition Conn

variable {host : Host} {b b' : Input} {e : InputEvent} {es : List InputEvent} {c' : Conn} {n ITEM_data : Nat}

/-! ## Pointers -/

/-- Where `ritem` points while a body is read: at the next bytes of the buffer, or at the value of an item, outside it. Of an
item in chunks nothing is asked: `read_into_chunked_item` moves `ritem`. -/
def Aimed (b : Input) : Prop :=
  match b.conn.item with
  | none =>
      b.conn.protocol = .binary_prot ∧ b.ritem = b.rcurr ∧ b.ritem + b.conn.rlbytes.toNat ≤ b.rbuf + b.rsize ∨
        b.conn.protocol = .ascii_prot ∧ b.conn.rlbytes ≤ 0
  | some it => it.chunked = true ∨ b.rbuf + b.rsize < b.ritem ∨ b.ritem + b.conn.rlbytes.toNat ≤ b.rbuf

/-- The invariant of a TCP connection. -/
structure Within (b : Input) : Prop extends Bounded b where
  is_tcp : b.is_udp = false
  goes : b.conn.Goes
  bare : b.conn.state = .conn_waiting ∨ b.conn.state = .conn_read ∨ b.conn.state = .conn_parse_cmd → b.conn.item = none
  aimed : b.conn.state = .conn_nread → b.Aimed

theorem Within.of_answering (h : b.Bounded) (htcp : b.is_udp = false) (hanswering : b.conn.Answering) (hgoes : b.conn.Goes) :
    b.Within where
  toBounded := h
  is_tcp := htcp
  goes := hgoes
  bare hstate := by
    unfold Answering at hanswering
    rcases hstate with hs | hs | hs <;> simp [hs] at hanswering
  aimed hstate := by simp [Answering, hstate] at hanswering

/-- Where nothing is read, only the state may change. -/
theorem Within.set_state (h : b.Within) {state : ConnState}
    (hstate : state = .conn_closing ∨ state = .conn_new_cmd ∨ state = b.conn.write_and_go) :
    (b.conn_set_state state).Within := by
  refine .of_answering ⟨h.rsize_pos, h.rbuf_le, h.fits⟩ h.is_tcp ?_ h.goes
  rcases hstate with rfl | rfl | rfl
  · exact .inr (.inr (.inr (.inr rfl)))
  · exact .inl rfl
  · rcases h.goes with hgo | hgo | hgo <;> simp [Answering, conn_set_state, hgo]

/-- A response, or a value that goes to an item with data outside the buffer. -/
theorem fill_item_within (h : b.Bounded) (htcp : b.is_udp = false) {c : Conn} (hconn : Settled c b.conn ∨ Filling c b.conn)
    (hfill : b.fill_item ITEM_data = some b') : b'.Within ∧ b'.unread = b.unread ∧ b'.conn = b.conn := by
  unfold fill_item at hfill
  split at hfill
  · next hitem =>
    simp only [Option.ite_none_right_eq_some, Option.some.injEq] at hfill
    obtain ⟨hplace, rfl⟩ := hfill
    obtain hgoes : b.conn.Goes := hconn.elim (·.goes) (·.goes)
    refine ⟨⟨⟨h.rsize_pos, h.rbuf_le, h.fits⟩, htcp, hgoes, ?_, fun _ => ?_⟩, rfl, rfl⟩
    · intro hstate
      simp [hitem.1] at hstate
    · obtain ⟨it, hit⟩ := Option.isSome_iff_exists.mp hitem.2
      simpa [Aimed, hit, is_chunked] using hplace
  · next hno =>
    cases hfill
    refine ⟨?_, rfl, rfl⟩
    rcases hconn with hsettled | hfilling
    · exact .of_answering h htcp hsettled.answering hsettled.goes
    · exact absurd ⟨hfilling.state, hfilling.item⟩ hno

theorem skip_unread (hn : n ≤ b.conn.rbytes) : (b.skip n).unread = b.unread.drop n := (Memory.drop_read hn).symm

/-- `n` bytes come off the front. -/
theorem skip_bounded (h : b.Bounded) (hn : n ≤ b.conn.rbytes) :
    (b.skip n).Bounded ∧ Reads b.unread b.conn.pos [] (b.skip n).unread (b.skip n).conn.pos := by
  have hle := h.rbuf_le
  have hfits := h.fits
  refine ⟨⟨h.rsize_pos, by simp only [skip]; omega, by simp only [skip]; omega⟩, ?_⟩
  rw [skip_unread hn]
  exact .pass_over (by rw [unread_length]; exact hn)

/-! ## Requests -/

/-- What a step keeps and reads. -/
structure Advances (b : Input) (got : List UInt8) (b' : Input) : Prop where
  within : b'.Within
  reads : Reads b.unread b.conn.pos got b'.unread b'.conn.pos

/-- The buffer `b` with its bytes untouched, and what a handler makes of the connection. -/
theorem handled (h : b.Bounded) (hstill : Still b.conn c') :
    ({ b with conn := c' } : Input).Bounded ∧ ({ b with conn := c' } : Input).unread = b.unread := by
  obtain ⟨-, hrbytes⟩ := hstill
  refine ⟨⟨h.rsize_pos, h.rbuf_le, ?_⟩, ?_⟩
  · simpa only [hrbytes] using h.fits
  · simp only [unread, hrbytes]

theorem out_of_memory_item (c : Conn) : c.out_of_memory.item = c.item := by
  simp only [Conn.out_of_memory, Conn.write_bin_error, Conn.out_string]
  repeat' split
  all_goals rfl

/-- After `dispatch_bin_command`, the header is passed over. -/
theorem dispatched_advances (h : b.Bounded) (htcp : b.is_udp = false) (hbinary : b.conn.protocol = .binary_prot)
    (hbare : b.conn.item = none) (hheader : 24 ≤ b.conn.rbytes) (hconn : Settled b.conn c' ∨ Reading b.conn c')
    (newm : Option Nat) (hb' : b' = (if c'.state = .conn_nread then ({ b with conn := c' } : Input).bin_read_key newm
      else { b with conn := c' }).skip 24) : Advances b [] b' := by
  have hstill : Still b.conn c' := hconn.elim (·.still) (·.still)
  obtain ⟨hbounded, hunread⟩ := handled h hstill
  have hroom : 24 ≤ c'.rbytes := by rw [hstill.2]; exact hheader
  have hreads {b₁ : Input} (hb₁ : b₁.unread = b.unread) (hpos : b₁.conn.pos = b.conn.pos) (hbounded : b₁.Bounded)
      (hroom : 24 ≤ b₁.conn.rbytes) :
      (b₁.skip 24).Bounded ∧ Reads b.unread b.conn.pos [] (b₁.skip 24).unread (b₁.skip 24).conn.pos := by
    rw [← hb₁, ← hpos]
    exact skip_bounded hbounded hroom
  rcases hconn with hsettled | hreading
  · have hno : c'.state ≠ .conn_nread := by
      intro hstate
      simpa [Answering, hstate] using hsettled.answering
    rw [if_neg hno] at hb'
    obtain ⟨hskip, hskipped⟩ := hreads hunread hstill.1 hbounded hroom
    rw [hb']
    exact ⟨.of_answering hskip htcp hsettled.answering hsettled.goes, hskipped⟩
  · rw [if_pos hreading.state] at hb'
    generalize hkey : ({ b with conn := c' } : Input).bin_read_key newm = b₁ at hb'
    rcases bin_read_key_room hbounded hroom hkey.symm with hclosing | ⟨hhoused, hritem, hlast⟩
    · have hclosed : (({ b with conn := c' } : Input).conn_set_state .conn_closing).Bounded :=
        ⟨hbounded.rsize_pos, hbounded.rbuf_le, hbounded.fits⟩
      have hkept : (({ b with conn := c' } : Input).conn_set_state .conn_closing).unread = b.unread := hunread
      obtain ⟨hskip, hskipped⟩ := hreads hkept hstill.1 hclosed hroom
      rw [hb', hclosing]
      exact ⟨.of_answering hskip htcp (.inr (.inr (.inr (.inr rfl)))) hreading.goes, hskipped⟩
    · have hconn : b₁.conn = c' := hhoused.conn
      obtain ⟨hskip, hskipped⟩ := hreads (hhoused.unread.trans hunread) (by rw [hconn, hstill.1]) hhoused.bounded
        (by rw [hconn]; exact hroom)
      rw [hb']
      refine ⟨⟨hskip, hhoused.is_udp.trans htcp, ?_, ?_, fun _ => ?_⟩, hskipped⟩
      · simp only [skip, hconn]
        exact hreading.goes
      · intro hstate
        simp [skip, hconn, hreading.state] at hstate
      · have hit : c'.item = none := hreading.item.trans hbare
        simp only [Aimed, skip, hconn, hit]
        exact .inl ⟨hreading.protocol.trans hbinary, hritem, hlast⟩

theorem try_read_header_advances (h : b.Within) (hbinary : b.conn.protocol = .binary_prot) (hbare : b.conn.item = none)
    (p : Parse) : Advances b [] (b.try_read_header host p) := by
  have hsame {b₁ : Input} (hhoused : Rehoused b b₁) (hgoes : b₁.conn.Goes) {state : ConnState} {c : Conn}
      (hc : Still b.conn c ∧ c.item = none ∧ c.Goes) (hstate : state = .conn_waiting ∨ state = .conn_closing) :
      Advances b [] (({ b₁ with conn := c } : Input).conn_set_state state) := by
    obtain ⟨hstill, hitem, hgoes⟩ := hc
    have hstill' : Still b₁.conn c := by rw [hhoused.conn]; exact hstill
    obtain ⟨hbounded, hunread⟩ := handled hhoused.bounded hstill'
    refine ⟨⟨⟨hbounded.rsize_pos, hbounded.rbuf_le, hbounded.fits⟩, hhoused.is_udp.trans h.is_tcp, hgoes, fun _ => hitem, ?_⟩, ?_⟩
    · rcases hstate with rfl | rfl <;> simp [conn_set_state]
    · have hread : (({ b₁ with conn := c } : Input).conn_set_state state).unread = b.unread := hunread.trans hhoused.unread
      have hpos : (({ b₁ with conn := c } : Input).conn_set_state state).conn.pos = b.conn.pos := hstill.1
      rw [hread, hpos]
      exact .refl
  unfold try_read_header
  dsimp only
  split
  · exact hsame (.refl h.toBounded) h.goes ⟨.refl, hbare, h.goes⟩ (.inl rfl)
  next hheader =>
  have haligned : Rehoused b (if host.NEED_ALIGN ∧ b.rcurr % 8 ≠ 0 then b.pack else b) := by
    split
    · exact pack_rehoused h.toBounded
    · exact .refl h.toBounded
  generalize (if host.NEED_ALIGN ∧ b.rcurr % 8 ≠ 0 then b.pack else b) = b₁ at haligned ⊢
  have hgoes : b₁.conn.Goes := by rw [haligned.conn]; exact h.goes
  have hbare₁ : b₁.conn.item = none := by rw [haligned.conn]; exact hbare
  have hnoted : Still b.conn { b₁.conn with binary_header := Header.at_pos b₁.mem b₁.rcurr } := by
    rw [haligned.conn]
    exact .refl
  split
  · exact hsame haligned hgoes ⟨hnoted, hbare₁, hgoes⟩ (.inr rfl)
  split
  · have hmemory : Settled { b₁.conn with binary_header := Header.at_pos b₁.mem b₁.rcurr }
        ({ b₁.conn with binary_header := Header.at_pos b₁.mem b₁.rcurr } : Conn).out_of_memory := out_of_memory_settled hgoes
    refine hsame haligned hgoes ⟨hnoted.trans hmemory.still, ?_, hmemory.goes⟩ (.inl rfl)
    rw [out_of_memory_item]
    exact hbare₁
  · have hdispatch := @dispatch_bin_command_reading
      { b₁.conn with
        binary_header := Header.at_pos b₁.mem b₁.rcurr
        cmd := .of_opcode (Header.at_pos b₁.mem b₁.rcurr).opcode } host.settings { p.answers with realloc_ok := true } hgoes
    generalize Conn.dispatch_bin_command host.settings _ _ = c' at hdispatch ⊢
    have hconn : Settled b₁.conn c' ∨ Reading b₁.conn c' := by
      rcases hdispatch with hs | hr
      · exact .inl ⟨hs.answering, hs.goes, hs.still⟩
      · exact .inr ⟨hr.state, hr.item, hr.protocol, hr.goes, hr.still⟩
    have hadvances := dispatched_advances haligned.bounded (haligned.is_udp.trans h.is_tcp)
      (by rw [haligned.conn]; exact hbinary) hbare₁ (by rw [haligned.conn]; omega) hconn p.realloc rfl
    exact ⟨hadvances.within, by rw [← haligned.unread, ← haligned.conn]; exact hadvances.reads⟩

theorem command_line_cont {c : Conn} {stream : Nat → UInt8} {command : List UInt8} {cont : Nat}
    (h : c.command_line stream = some (command, cont)) : c.pos < cont ∧ cont ≤ c.pos + c.rbytes := by
  obtain ⟨i, hi, hline⟩ := Option.map_eq_some_iff.mp h
  have hmem := List.mem_range.mp (List.mem_of_find?_eq_some hi)
  obtain rfl : c.pos + i + 1 = cont := (Prod.mk.inj hline).2
  omega

theorem process_command_line (host : Host) (h : b.conn.Goes) (command : List UInt8) (p : Parse) :
    Settled b.conn (process_command host b.conn command p) ∨ Filling b.conn (process_command host b.conn command p) := by
  unfold process_command
  split
  · exact .inl (out_of_memory_settled h)
  · cases hcommand : b.conn.process_command host.numbers command p.answers with
    | none => exact .inl (process_reply_settled h _)
    | some c' => exact process_command_filling h hcommand

theorem try_read_line_advances (h : b.Within) (hbare : b.conn.item = none) {p : Parse}
    (hline : b.try_read_line host p = some b') : Advances b [] b' := by
  unfold try_read_line at hline
  split at hline
  · cases hline
    refine ⟨⟨⟨h.rsize_pos, h.rbuf_le, h.fits⟩, h.is_tcp, h.goes, fun _ => hbare, ?_⟩, .refl⟩
    intro hstate
    simp only [conn_set_state] at hstate
    split at hstate <;> cases hstate
  · next command cont hcommand =>
    obtain ⟨hlt, hcont⟩ := command_line_cont hcommand
    dsimp only at hlt hcont
    simp only [Option.ite_none_right_eq_some, Option.map_eq_some_iff] at hline
    obtain ⟨hlength, b₁, hfill, rfl⟩ := hline
    have hconn := process_command_line host h.goes command p
    generalize process_command host b.conn command p = c' at hconn hfill
    have hstill : Still b.conn c' := hconn.elim (·.still) (·.still)
    have hbounded : ({ b with mem := Memory.write b.mem b.rcurr p.line, conn := c' } : Input).Bounded :=
      ⟨h.rsize_pos, h.rbuf_le, by simpa only [hstill.2] using h.fits⟩
    obtain ⟨hwithin, hunread, hsame⟩ := fill_item_within hbounded h.is_tcp hconn hfill
    have hroom : cont - b.rcurr ≤ b₁.conn.rbytes := by
      rw [hsame]
      dsimp only
      rw [hstill.2]
      omega
    obtain ⟨hskip, hskipped⟩ := skip_bounded hwithin.toBounded hroom
    refine ⟨⟨hskip, hwithin.is_tcp, hwithin.goes, hwithin.bare, ?_⟩, ?_⟩
    · intro hstate
      have haimed := hwithin.aimed hstate
      rcases hconn with hsettled | hfilling
      · have hno : c'.state = .conn_nread := by simpa only [skip, hsame] using hstate
        exact absurd hsettled.answering (by simp [Answering, hno])
      · obtain ⟨it, hit⟩ := Option.isSome_iff_exists.mp hfilling.item
        simpa [Aimed, skip, hsame, hit] using haimed
    · have hfront : (Memory.read (Memory.write b.mem b.rcurr p.line) b.rcurr b.conn.rbytes).drop (cont - b.rcurr) =
          b.unread.drop (cont - b.rcurr) := by
        have hle : cont - b.rcurr ≤ b.conn.rbytes := by omega
        rw [unread, Memory.drop_read hle, Memory.drop_read hle, Memory.read_write_of_apart (.inr (by omega))]
      have hread : (b₁.skip (cont - b.rcurr)).unread = b.unread.drop (cont - b.rcurr) := by
        rw [skip_unread hroom, hunread, ← hfront]
        simp only [unread, hstill.2]
      have hpos : (b₁.skip (cont - b.rcurr)).conn.pos = b.conn.pos + (cont - b.rcurr) := by
        simp only [skip, hsame, hstill.1]
      rw [hread, hpos]
      exact .pass_over (by rw [unread_length]; omega)

theorem try_read_command_advances (h : b.Within) (hstate : b.conn.state = .conn_parse_cmd) {p : Parse}
    (hcommand : b.try_read_command host p = some b') : Advances b [] b' := by
  have hbare : b.choose_protocol.conn.item = none ∧ b.choose_protocol.unread = b.unread ∧
      b.choose_protocol.conn.pos = b.conn.pos ∧ b.choose_protocol.Within := by
    unfold choose_protocol
    have hitem := h.bare (.inr (.inr hstate))
    split
    · refine ⟨hitem, rfl, rfl, ⟨h.rsize_pos, h.rbuf_le, h.fits⟩, h.is_tcp, h.goes, h.bare, ?_⟩
      intro hreading
      rw [hstate] at hreading
      cases hreading
    · exact ⟨hitem, rfl, rfl, h⟩
  obtain ⟨hitem, hunread, hpos, hwithin⟩ := hbare
  have hadvances : Advances b.choose_protocol [] b' := by
    unfold try_read_command at hcommand
    cases hprotocol : b.choose_protocol.conn.protocol with
    | binary_prot =>
        simp only [hprotocol, Option.some.injEq] at hcommand
        rw [← hcommand]
        exact try_read_header_advances hwithin hprotocol hitem p
    | ascii_prot =>
        simp only [hprotocol] at hcommand
        exact try_read_line_advances hwithin hitem hcommand
  exact ⟨hadvances.within, by rw [← hunread, ← hpos]; exact hadvances.reads⟩

/-! ## Bodies -/

/-- What a handler brings into host order has been passed over. -/
def Converts (host : Host) (b : Input) : Prop :=
  ∀ field ∈ body_fields b.conn, host.binary_get_request b + 24 + field.1 + field.2 ≤ b.rcurr

theorem fix_byteorder_mem (h : Converts host b) {q : Nat} (hq : b.rcurr ≤ q) : (b.fix_byteorder host).mem q = b.mem q := by
  have hfold (fields : List (Nat × Nat)) (mem : Nat → UInt8)
      (hfields : ∀ field ∈ fields, host.binary_get_request b + 24 + field.1 + field.2 ≤ b.rcurr) :
      fields.foldl (fun mem field => Memory.reverse mem (host.binary_get_request b + 24 + field.1) field.2) mem q = mem q := by
    induction fields generalizing mem with
    | nil => rfl
    | cons field fields ih =>
        have hfield := hfields field List.mem_cons_self
        rw [List.foldl_cons, ih _ fun f hf => hfields f (List.mem_cons_of_mem _ hf)]
        exact Memory.reverse_of_apart (.inr (by omega))
  exact hfold _ _ h

theorem complete_nread_within (h : b.Within) (hstate : b.conn.state = .conn_nread) (hdone : b.conn.rlbytes = 0) {a : Answers}
    (hcomplete : b.complete_nread host a ITEM_data = some b') :
    b'.Within ∧ b'.conn.pos = b.conn.pos ∧ (Converts host b → b'.unread = b.unread) := by
  obtain ⟨c', hhandler, hfill⟩ := Option.bind_eq_some_iff.mp hcomplete
  have hread (hstill : Still b.conn c') (hconverts : Converts host b) :
      ({ b.fix_byteorder host with conn := c' } : Input).unread = b.unread := by
    simp only [unread, hstill.2]
    exact Memory.read_congr fun i _ => fix_byteorder_mem hconverts (Nat.le_add_right _ _)
  have hbounded (hstill : Still b.conn c') : ({ b.fix_byteorder host with conn := c' } : Input).Bounded :=
    ⟨h.rsize_pos, h.rbuf_le, by simp only [hstill.2]; exact h.fits⟩
  have hfilled (hconn : Settled b.conn c' ∨ Filling b.conn c') :
      b'.Within ∧ b'.conn.pos = b.conn.pos ∧ (Converts host b → b'.unread = b.unread) := by
    have hstill : Still b.conn c' := hconn.elim (·.still) (·.still)
    obtain ⟨hwithin, hunread, hsame⟩ := fill_item_within (hbounded hstill) h.is_tcp hconn hfill
    exact ⟨hwithin, by rw [hsame]; exact hstill.1, fun hconverts => hunread.trans (hread hstill hconverts)⟩
  cases hprotocol : b.conn.protocol with
  | binary_prot =>
      rw [hprotocol] at hhandler
      exact hfilled (complete_nread_binary_filling h.goes hhandler)
  | ascii_prot =>
      rw [hprotocol] at hhandler
      rcases complete_nread_ascii_settled h.goes hhandler with hsettled | rfl
      · exact hfilled (.inl hsettled)
      · -- nothing is written, and the connection waits in `conn_nread` with nothing to read
        have hno : ¬ (b.conn.state = .conn_nread ∧ (none : Option Item).isSome) := by simp
        simp only [fill_item] at hfill
        rw [if_neg hno] at hfill
        cases hfill
        refine ⟨⟨hbounded .refl, h.is_tcp, h.goes, ?_, fun _ => ?_⟩, rfl, hread .refl⟩
        · intro hbare
          dsimp only at hbare
          simp [hstate] at hbare
        · exact .inr ⟨hprotocol, by dsimp only; omega⟩

/-- What is read next goes to where `ritem` points, and nowhere else in the buffer. -/
theorem aimed_apart (h : b.Within) (hstate : b.conn.state = .conn_nread) (hplain : b.conn.is_chunked = false)
    (hmore : 0 < b.conn.rlbytes) :
    (b.conn.item = none ∧ b.conn.protocol = .binary_prot ∧ b.ritem = b.rcurr ∧
        b.ritem + b.conn.rlbytes.toNat ≤ b.rbuf + b.rsize) ∨
      b.ritem ≠ b.rcurr ∧ b.conn.item.isSome ∧
        (b.rbuf + b.rsize < b.ritem ∨ b.ritem + b.conn.rlbytes.toNat ≤ b.rbuf) := by
  have haimed := h.aimed hstate
  have hle := h.rbuf_le
  have hfits := h.fits
  cases hit : b.conn.item with
  | none =>
      simp only [Aimed, hit] at haimed
      rcases haimed with haimed | ⟨-, hno⟩
      · exact .inl ⟨rfl, haimed⟩
      · omega
  | some it =>
      have hno : it.chunked = false := by simpa [is_chunked, hit] using hplain
      simp only [Aimed, hit, hno, Bool.false_eq_true, false_or] at haimed
      exact .inr ⟨by omega, rfl, haimed⟩

/-- `ritem` is as far on as the bytes that were filled in. -/
theorem fill_aimed {k : Nat} (h : b.Within) (hstate : b.conn.state = .conn_nread) (hplain : b.conn.is_chunked = false)
    (hmore : 0 < b.conn.rlbytes) (hn : (n : Int) ≤ b.conn.rlbytes) (hconn : b'.conn = b.conn.fill n)
    (hbuf : b'.rbuf = b.rbuf ∧ b'.rsize = b.rsize) (hritem : b'.ritem = b.ritem + n) (hrcurr : b'.rcurr = b.rcurr + k)
    (hkey : b.ritem = b.rcurr → k = n) : b'.Aimed := by
  obtain ⟨hrbuf, hrsize⟩ := hbuf
  rcases aimed_apart h hstate hplain hmore with ⟨hit, hbinary, hsame, hlast⟩ | ⟨-, hsome, hplace⟩
  · have hk := hkey hsame
    simp only [Aimed, hconn, fill, hit]
    exact .inl ⟨hbinary, by omega, by omega⟩
  · obtain ⟨it, hit⟩ := Option.isSome_iff_exists.mp hsome
    simp only [Aimed, hconn, fill, hit]
    right
    omega

theorem nread_leftovers_advances (h : b.Within) (hstate : b.conn.state = .conn_nread) (hplain : b.conn.is_chunked = false)
    (hmore : 0 < b.conn.rlbytes) (hn : n ≤ b.conn.rbytes) (hrl : (n : Int) ≤ b.conn.rlbytes) :
    Advances b [] (b.nread_leftovers n) := by
  have hle := h.rbuf_le
  have hfits := h.fits
  refine ⟨⟨⟨h.rsize_pos, Nat.le_add_right_of_le hle, ?_⟩, h.is_tcp, h.goes, ?_, fun _ => ?_⟩, ?_⟩
  · simp only [nread_leftovers, fill]
    omega
  · intro hbare
    simp [nread_leftovers, fill, hstate] at hbare
  · exact fill_aimed h hstate hplain hmore hrl rfl ⟨rfl, rfl⟩ rfl rfl fun _ => rfl
  · have hread : (b.nread_leftovers n).unread = b.unread.drop n := by
      rw [unread, unread, Memory.drop_read hn]
      refine Memory.read_congr fun i hi => ?_
      simp only [nread_leftovers]
      split
      · next hmoved =>
        rcases aimed_apart h hstate hplain hmore with ⟨-, -, hsame, -⟩ | ⟨-, -, hplace⟩
        · exact absurd hsame hmoved
        · have hi : i < b.conn.rbytes - n := hi
          simp only [Memory.move]
          rw [if_neg (by omega)]
      · rfl
    rw [hread]
    exact .pass_over (by rw [unread_length]; exact hn)

theorem nread_socket_advances (h : b.Within) (hstate : b.conn.state = .conn_nread) (hplain : b.conn.is_chunked = false)
    (hmore : 0 < b.conn.rlbytes) (hempty : b.conn.rbytes = 0) {bytes : List UInt8}
    (hrl : (bytes.length : Int) ≤ b.conn.rlbytes) : Advances b bytes (b.nread_socket bytes) := by
  have hle := h.rbuf_le
  have hfits := h.fits
  have hplace : (b.nread_socket bytes).rcurr = b.rcurr + if b.rcurr = b.ritem then bytes.length else 0 := by
    simp only [nread_socket]
    split <;> rfl
  refine ⟨⟨⟨h.rsize_pos, ?_, ?_⟩, h.is_tcp, h.goes, ?_, fun _ => ?_⟩, ?_⟩
  · rw [hplace]
    exact Nat.le_add_right_of_le hle
  · rw [hplace]
    simp only [nread_socket, fill, hempty]
    rcases aimed_apart h hstate hplain hmore with ⟨-, -, hsame, hlast⟩ | ⟨hne, -, -⟩
    · rw [if_pos hsame.symm]
      omega
    · rw [if_neg (Ne.symm hne)]
      omega
  · intro hbare
    simp [nread_socket, fill, hstate] at hbare
  · exact fill_aimed h hstate hplain hmore hrl rfl ⟨rfl, rfl⟩ rfl hplace fun hsame => if_pos hsame.symm
  · have hnone : b.unread = [] := by rw [unread, hempty, Memory.read_zero]
    have hnone' : (b.nread_socket bytes).unread = [] := by simp [unread, nread_socket, fill, hempty]
    rw [hnone, hnone']
    exact .through

theorem read_into_chunked_item_advances (h : b.Within) (hchunked : b.conn.is_chunked = true) {leftover : Nat}
    {direct : List UInt8} {res : ReadResult} (hleft : leftover ≤ b.conn.rbytes)
    (hdirect : direct ≠ [] → leftover = b.conn.rbytes) (hstate : b.conn.state = .conn_nread)
    (hb' : b' = { b with
      rcurr := b.rcurr + leftover
      conn := (b.conn.fill (leftover + direct.length)).nread_failed res }) : Advances b direct b' := by
  have hle := h.rbuf_le
  have hfits := h.fits
  have hfilled : Still (b.conn.fill (leftover + direct.length)) ((b.conn.fill (leftover + direct.length)).nread_failed res) ∧
      ((b.conn.fill (leftover + direct.length)).nread_failed res).Goes ∧
      (((b.conn.fill (leftover + direct.length)).nread_failed res).Answering ∨
        (b.conn.fill (leftover + direct.length)).nread_failed res = b.conn.fill (leftover + direct.length)) := by
    have hgoes : (b.conn.fill (leftover + direct.length)).Goes := h.goes
    cases res with
    | data _ | eagain => exact ⟨.refl, hgoes, .inr rfl⟩
    | no_memory =>
        have hmemory := out_of_memory_settled hgoes
        exact ⟨hmemory.still, .inr (.inl rfl), .inl hmemory.answering⟩
    | eof | error => exact ⟨.refl, hgoes, .inl (.inr (.inr (.inr (.inr rfl))))⟩
  generalize (b.conn.fill (leftover + direct.length)).nread_failed res = c' at hfilled hb'
  obtain ⟨hstill, hgoes, hconn⟩ := hfilled
  have hrbytes : c'.rbytes = b.conn.rbytes - (leftover + direct.length) := hstill.2
  have hpos : c'.pos = b.conn.pos + (leftover + direct.length) := hstill.1
  have hbounded : b'.Bounded := by
    subst hb'
    refine ⟨h.rsize_pos, Nat.le_add_right_of_le hle, ?_⟩
    dsimp only
    omega
  subst hb'
  refine ⟨?_, ?_⟩
  · rcases hconn with hanswering | rfl
    · exact .of_answering hbounded h.is_tcp hanswering hgoes
    · refine ⟨hbounded, h.is_tcp, hgoes, ?_, fun _ => ?_⟩
      · intro hbare
        simp [fill, hstate] at hbare
      · obtain ⟨it, hit, hno⟩ : ∃ it, b.conn.item = some it ∧ it.chunked = true := by
          simpa [is_chunked, Option.any_eq_true] using hchunked
        simp only [Aimed, fill, hit]
        exact .inl hno
  · have hfront : Reads b.unread b.conn.pos [] (b.unread.drop leftover) (b.conn.pos + leftover) :=
      .pass_over (by rw [unread_length]; exact hleft)
    have hread : ({ b with rcurr := b.rcurr + leftover, conn := c' } : Input).unread =
        Memory.read b.mem (b.rcurr + leftover) (b.conn.rbytes - (leftover + direct.length)) := by
      rw [← hrbytes]
      rfl
    have hrest : Reads (b.unread.drop leftover) (b.conn.pos + leftover) direct
        ({ b with rcurr := b.rcurr + leftover, conn := c' } : Input).unread c'.pos := by
      rw [hread, hpos, unread, Memory.drop_read hleft]
      cases direct with
      | nil => exact .refl
      | cons byte direct =>
          have hall : leftover = b.conn.rbytes := hdirect (by simp)
          rw [hall, Nat.sub_self, Nat.sub_eq_zero_of_le (Nat.le_add_right _ _), ← Nat.add_assoc]
          exact .through
    exact hfront.trans hrest

/-- Bytes that are thrown away come off the front, or never come into the buffer. -/
theorem swallow_advances (h : b.Within) (hstate : b.conn.state = .conn_swallow) (bytes : List UInt8) {mem : Nat → UInt8}
    (hleft : n ≤ b.conn.rbytes) (hbytes : bytes = [] ∧ mem = b.mem ∨ b.conn.rbytes = 0)
    (hb' : b' = { b with mem := mem, rcurr := b.rcurr + n, conn := b.conn.swallow (n + bytes.length) }) :
    Advances b bytes b' := by
  have hle := h.rbuf_le
  have hfits := h.fits
  subst hb'
  refine ⟨.of_answering ⟨h.rsize_pos, Nat.le_add_right_of_le hle, ?_⟩ h.is_tcp (.inr (.inl hstate)) h.goes, ?_⟩
  · simp only [swallow]
    omega
  rcases hbytes with ⟨rfl, rfl⟩ | hempty
  · have hread : ({ b with rcurr := b.rcurr + n, conn := b.conn.swallow n } : Input).unread = b.unread.drop n :=
      (Memory.drop_read hleft).symm
    simp only [List.length_nil, Nat.add_zero]
    rw [hread]
    exact .pass_over (by rw [unread_length]; exact hleft)
  · obtain rfl : n = 0 := by omega
    have hnone : b.unread = [] := by rw [unread, hempty, Memory.read_zero]
    have hnone' : ({ b with mem := mem, rcurr := b.rcurr + 0, conn := b.conn.swallow (0 + bytes.length) } : Input).unread = [] := by
      simp [unread, swallow, hempty]
    rw [hnone, hnone', Nat.zero_add]
    exact .through

/-! ## Steps -/

/-- Nothing that is unread is given up: there is memory for the buffer, a handler changes what has been passed over, and
the connection is the same. -/
def Keeps (host : Host) (b : Input) : InputEvent → Prop
  | .try_read_network calls => .realloc none ∉ calls
  | .complete_nread _ _ => Converts host b
  | .conn_new _ _ => False
  | _ => True

theorem conn_read_within {res : TryReadResult} (h : b.Within) (hstate : b.conn.state = .conn_read) (hbounded : b'.Bounded)
    (hudp : b'.is_udp = b.is_udp) {got : List UInt8} (hgot : Got b .READ_NO_DATA_RECEIVED got b' res) :
    (conn_read (b', res)).Within ∧
      (res ≠ .READ_MEMORY_ERROR → Reads b.unread b.conn.pos got (conn_read (b', res)).unread (conn_read (b', res)).conn.pos) := by
  have htcp := hudp.trans h.is_tcp
  have hbare := h.bare (.inr (.inl hstate))
  have hset {state : ConnState} (hconn : b'.conn.item = none ∧ b'.conn.Goes) (hstate : state ≠ .conn_nread) :
      (b'.conn_set_state state).Within :=
    ⟨⟨hbounded.rsize_pos, hbounded.rbuf_le, hbounded.fits⟩, htcp, hconn.2, fun _ => hconn.1, fun hreading => absurd hreading hstate⟩
  have htaken {state : ConnState} (hconn : b'.conn = { b.conn with rbytes := b.conn.rbytes + got.length })
      (hunread : b'.unread = b.unread ++ got) :
      Reads b.unread b.conn.pos got (b'.conn_set_state state).unread (b'.conn_set_state state).conn.pos := by
    have hread : (b'.conn_set_state state).unread = b.unread ++ got := hunread
    have hpos : (b'.conn_set_state state).conn.pos = b.conn.pos := by simp only [conn_set_state, hconn]
    rw [hread, hpos]
    exact .take_in
  cases hgot with
  | no_memory hconn =>
      have hconn : (conn_read (b', .READ_MEMORY_ERROR)).conn = b.conn.network_read .no_memory := hconn
      refine ⟨.of_answering hbounded htcp ?_ ?_, fun hno => absurd rfl hno⟩
      · have hmemory := out_of_memory_settled (c := { b.conn with rbytes := 0 }) h.goes
        rw [hconn]
        exact hmemory.answering
      · rw [hconn]
        exact .inr (.inr rfl)
  | error hconn hunread => exact ⟨hset (by rw [hconn]; exact ⟨hbare, h.goes⟩) (by simp), fun _ => htaken hconn hunread⟩
  | data hconn hunread => exact ⟨hset (by rw [hconn]; exact ⟨hbare, h.goes⟩) (by simp), fun _ => htaken hconn hunread⟩
  | no_data hconn hunread hnone =>
      subst hnone
      exact ⟨hset (by rw [hconn]; exact ⟨hbare, h.goes⟩) (by simp),
        fun _ => htaken (by rw [hconn]; rfl) (by rw [hunread, List.append_nil])⟩

theorem reset_cmd_handler_advances (h : b.Within) (hsize : 0 < host.DATA_BUFFER_SIZE) (realloc : Option Nat) :
    Advances b [] (b.reset_cmd_handler host realloc) := by
  have hhoused : Rehoused b (b.conn_shrink host realloc) := conn_shrink_rehoused h.toBounded hsize
  have hstill : Still (b.conn_shrink host realloc).conn (b.conn_shrink host realloc).conn.reset_cmd_handler := .refl
  obtain ⟨hbounded, hunread⟩ := handled hhoused.bounded hstill
  have hgoes : (b.conn_shrink host realloc).conn.reset_cmd_handler.Goes := by
    rw [hhoused.conn]
    exact h.goes
  refine ⟨⟨hbounded, hhoused.is_udp.trans h.is_tcp, hgoes, fun _ => rfl, fun hreading => ?_⟩, ?_⟩
  · simp only [reset_cmd_handler, Conn.reset_cmd_handler] at hreading
    split at hreading <;> cases hreading
  · have hread : (b.reset_cmd_handler host realloc).unread = b.unread := hunread.trans hhoused.unread
    have hpos : (b.reset_cmd_handler host realloc).conn.pos = b.conn.pos := by
      simp only [reset_cmd_handler, Conn.reset_cmd_handler, hhoused.conn]
    rw [hread, hpos]
    exact .refl

theorem step_within (hsize : 0 < host.DATA_BUFFER_SIZE) (h : b.Within) (hstep : Step host b e b') :
    b'.Within ∧ (Keeps host b e → Reads b.unread b.conn.pos e.got b'.unread b'.conn.pos) := by
  have hclosing : Advances b [] (b.conn_set_state .conn_closing) := ⟨h.set_state (.inl rfl), .refl⟩
  have hdone {got : List UInt8} {b' : Input} (hadvances : Advances b got b') :
      b'.Within ∧ (Keeps host b e → Reads b.unread b.conn.pos got b'.unread b'.conn.pos) :=
    ⟨hadvances.within, fun _ => hadvances.reads⟩
  have htcp := h.is_tcp
  unfold Step drive_machine at hstep
  dsimp only at hstep
  cases hstate : b.conn.state <;> cases e <;>
    simp only [hstate, reduceCtorEq, Option.ite_none_right_eq_some, Option.some.injEq] at hstep
  case conn_waiting.update_event ok =>
    subst hstep
    refine hdone ⟨⟨⟨h.rsize_pos, h.rbuf_le, h.fits⟩, h.is_tcp, h.goes, fun _ => h.bare (.inl hstate), ?_⟩, .refl⟩
    cases ok <;> simp [conn_set_state]
  case conn_read.try_read_network calls =>
    simp only [htcp, Bool.false_eq_true, if_false, Option.map_eq_some_iff] at hstep
    obtain ⟨⟨b₁, res⟩, hread, rfl⟩ := hstep
    obtain ⟨hbounded, hudp, hgot, hwhy⟩ := try_read_network_got h.toBounded hread
    obtain ⟨hwithin, hreads⟩ := conn_read_within h hstate hbounded hudp hgot
    exact ⟨hwithin, fun hkeeps => hreads fun hmemory => hkeeps (hwhy hmemory)⟩
  case conn_read.try_read_udp res => simp [htcp] at hstep
  case conn_parse_cmd.try_read_command p => exact hdone (try_read_command_advances h hstate hstep)
  case conn_new_cmd.reset_cmd_handler realloc =>
    subst hstep
    exact hdone (reset_cmd_handler_advances h hsize realloc)
  case conn_new_cmd.conn_yield ok =>
    subst hstep
    split
    · exact hdone hclosing
    · exact hdone ⟨h, .refl⟩
  case conn_nread.complete_nread a ITEM_data =>
    obtain ⟨hrl, hstep⟩ := hstep
    obtain ⟨hwithin, hpos, hunread⟩ := complete_nread_within h hstate hrl hstep
    refine ⟨hwithin, fun hkeeps => ?_⟩
    rw [hunread hkeeps, hpos]
    exact .refl
  case conn_nread.invalid_rlbytes =>
    obtain ⟨-, rfl⟩ := hstep
    exact hdone hclosing
  case conn_nread.leftovers =>
    obtain ⟨⟨hmore, hplain, -⟩, rfl⟩ := hstep
    exact hdone (nread_leftovers_advances h hstate (by simpa using hplain) hmore (Nat.min_le_left _ _) (by omega))
  case conn_nread.read res =>
    cases res <;> simp only [Option.ite_none_right_eq_some, Option.some.injEq] at hstep
    case data bytes =>
      obtain ⟨⟨hmore, hplain, hempty, -, hrl⟩, rfl⟩ := hstep
      exact hdone (nread_socket_advances h hstate (by simpa using hplain) hmore hempty hrl)
    case eagain =>
      obtain ⟨-, rfl⟩ := hstep
      exact hdone ⟨h, .refl⟩
    case eof | error =>
      obtain ⟨-, rfl⟩ := hstep
      exact hdone hclosing
  case conn_nread.update_event ok =>
    cases ok <;> cases hstep
    exact hdone hclosing
  case conn_nread.read_into_chunked_item leftover direct res =>
    obtain ⟨⟨-, hchunked, -, hleft, hdirect, -⟩, hb'⟩ := hstep
    exact hdone (read_into_chunked_item_advances h hchunked hleft hdirect hstate hb'.symm)
  case conn_swallow.swallowed =>
    obtain ⟨-, rfl⟩ := hstep
    exact hdone ⟨h.set_state (.inr (.inl rfl)), .refl⟩
  case conn_swallow.leftovers =>
    obtain ⟨-, rfl⟩ := hstep
    exact hdone (swallow_advances h hstate [] (Nat.min_le_left _ _) (.inl ⟨rfl, rfl⟩) rfl)
  case conn_swallow.read res =>
    cases res <;> simp only [Option.ite_none_right_eq_some, Option.some.injEq] at hstep
    case data bytes =>
      obtain ⟨⟨-, hempty, -, -⟩, rfl⟩ := hstep
      exact hdone (swallow_advances h hstate _ (Nat.zero_le _) (.inr hempty) (by rw [Nat.zero_add]; rfl))
    case eagain =>
      obtain ⟨-, rfl⟩ := hstep
      exact hdone ⟨h, .refl⟩
    case eof | error =>
      obtain ⟨-, rfl⟩ := hstep
      exact hdone hclosing
  case conn_swallow.update_event ok =>
    cases ok <;> cases hstep
    exact hdone hclosing
  case conn_write.transmit res =>
    cases res <;> cases hstep
    · exact hdone ⟨h.set_state (.inr (.inr rfl)), .refl⟩
    · exact hdone ⟨h, .refl⟩
    · simp only [htcp]
      exact hdone hclosing
    · exact hdone hclosing
  case conn_mwrite.transmit res =>
    cases res <;> cases hstep
    · split
      · exact hdone ⟨h.set_state (.inr (.inr rfl)), .refl⟩
      · exact hdone ⟨h.set_state (.inr (.inl rfl)), .refl⟩
    · exact hdone ⟨h, .refl⟩
    · simp only [htcp]
      exact hdone hclosing
    · exact hdone hclosing
  case conn_closing.conn_cleanup => simp [htcp] at hstep
  case conn_closing.conn_new negotiating protocol =>
    simp only [htcp, Bool.false_eq_true, if_false, Option.some.injEq] at hstep
    subst hstep
    exact ⟨.of_answering ⟨h.rsize_pos, Nat.le_refl _, by simp [conn_new]⟩ h.is_tcp (.inl rfl) (.inl rfl), fun hno => hno.elim⟩

/-! ## Runs -/

/-- A TCP connection that begins, with an empty buffer. -/
structure Opened (b : Input) : Prop where
  is_tcp : b.is_udp = false
  state : b.conn.state = .conn_new_cmd
  write_and_go : b.conn.write_and_go = .conn_new_cmd
  rbytes : b.conn.rbytes = 0
  rcurr : b.rcurr = b.rbuf
  rsize_pos : 0 < b.rsize

theorem Opened.within (h : b.Opened) : b.Within :=
  .of_answering ⟨h.rsize_pos, h.rcurr.ge, by rw [h.rcurr, h.rbytes]; omega⟩ h.is_tcp (.inl h.state) (.inl h.write_and_go)

theorem Opened.unread (h : b.Opened) : b.unread = [] := by rw [Input.unread, h.rbytes, Memory.read_zero]

/-- A step in which nothing unread is given up. -/
def KeepingStep (host : Host) (b : Input) (e : InputEvent) (b' : Input) : Prop := Step host b e b' ∧ Keeps host b e

instance : Decidable (Converts host b) := inferInstanceAs (Decidable (∀ field ∈ body_fields b.conn, _))

instance : Decidable (Keeps host b e) := by
  cases e <;> simp only [Keeps] <;> infer_instance

/-- A binary connection with a buffer of 32 bytes. -/
def small_buffer : Input where
  conn := binary_conn
  is_udp := false
  negotiating := false
  mem := fun _ => 0
  rbuf := 100
  rsize := 32
  rcurr := 100
  ritem := 0

def small_host : Host where
  DATA_BUFFER_SIZE := 32
  READ_BUFFER_HIGHWAT := 48
  NEED_ALIGN := true
  binary_get_request := fun b => b.rcurr - b.conn.binary_header.bodylen.toNat - 24
  settings := { sasl := false, flush_enabled := true }
  numbers := { safe_strtoul := fun _ => none, safe_strtol := fun _ => none, safe_strtoull := fun _ => none }

/-- GET of a key of forty bytes, for which the buffer is moved and grown, and shrunk when the next request is read. -/
def long_key : List UInt8 :=
  [0x80, 0, 0, 40, 0, 0, 0, 0, 0, 0, 0, 40] ++ List.replicate 12 0 ++ List.replicate 40 'k'.toUInt8

def long_key_read : List InputEvent :=
  let parse : Parse := ⟨.good, true, some 400, [], .conn_closing, 0⟩
  [.reset_cmd_handler none, .update_event true, .try_read_network [.read (.data (long_key.take 28))],
    .try_read_command parse, .leftovers, .read (.data (long_key.drop 28)), .complete_nread .good 0, .transmit .COMPLETE,
    .reset_cmd_handler (some 700)]

theorem small_buffer_opened : small_buffer.Opened := ⟨rfl, rfl, rfl, rfl, rfl, by decide⟩

theorem long_key_run : ∃ b, Run (KeepingStep small_host) small_buffer long_key_read b ∧ b.rbuf = 700 := by
  have htaken : (long_key_read.foldlM (fun b e => if Keeps small_host b e then b.drive_machine small_host e else none)
      small_buffer).any fun b => b.rbuf = 700 := by decide +kernel
  obtain ⟨b, hb, hrbuf⟩ := (Option.any_eq_true _ _).mp htaken
  exact ⟨b, Run.of_guarded_foldlM hb, by simpa using hrbuf⟩

/-- Whatever is read, parsed, grown, shrunk or closed, the pointers of a connection are where they may be. -/
theorem reachable_within {b₀ : Input} (hsize : 0 < host.DATA_BUFFER_SIZE) (h₀ : b₀.Opened) (hrun : Run (Step host) b₀ es b) :
    b.Within :=
  hrun.invariant (P := Within) (fun h hstep => (step_within hsize h hstep).1) h₀.within

theorem reachable_within_small : ∃ b : Input, b.rbuf = 700 ∧ b.Within := by
  obtain ⟨b, hrun, hrbuf⟩ := long_key_run
  exact ⟨b, hrbuf, reachable_within (by decide) small_buffer_opened (hrun.mono And.left)⟩

/-- What is unread is what has come in, from the place of the connection on. -/
theorem unread_is_stream {b₀ : Input} (hsize : 0 < host.DATA_BUFFER_SIZE) (h₀ : b₀.Opened)
    (hrun : Run (KeepingStep host) b₀ es b) :
    b.unread = (es.flatMap InputEvent.got).drop (b.conn.pos - b₀.conn.pos) ∧
      b.conn.pos + b.conn.rbytes = b₀.conn.pos + (es.flatMap InputEvent.got).length := by
  have hall := hrun.reads (P := Within) (fun hwithin hstep =>
    (step_within hsize hwithin hstep.1).imp_right fun h => h hstep.2) h₀.within
  have hlength := hall.2.length
  have hreads := hall.2.unread
  rw [h₀.unread, List.nil_append] at hreads
  rw [unread_length, h₀.unread] at hlength
  exact ⟨hreads, by simpa using hlength⟩

theorem unread_is_stream_small : ∃ b : Input, b.rbuf = 700 ∧ b.conn.pos + b.conn.rbytes = 64 := by
  obtain ⟨b, hrun, hrbuf⟩ := long_key_run
  exact ⟨b, hrbuf, (unread_is_stream (by decide) small_buffer_opened hrun).2⟩

end Memcached.Thread.Input

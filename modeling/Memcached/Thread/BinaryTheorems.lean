import Memcached.Thread.Lemmas.BinaryDispatch

/-!
# Framing of binary requests

A request with a body of `bodylen` bytes should use up its 24 byte header and its body, and nothing else, before the
next byte is taken for the start of a header.
-/

namespace Memcached.Thread

open Transition

/-- From the header `h` at `p` on, the run `es` to `c` used up the request, asked `item_alloc` for nothing but the value
and its CRLF, and parsed nothing but the header. -/
def Framed (h : Header) (p : Nat) (es : List Event) (c : Conn) : Prop :=
  c.pos = p + 24 + h.bodylen.toNat ∧ (∀ n ∈ c.value_allocs, n = h.value_length + 2 ∧ 0 ≤ h.value_length) ∧
    ∀ a, .try_read_command a ∉ es.tail

/-- Whatever the other modules answer and however the stream comes in, a request that leaves the connection open is
framed if and only if its header is: SET, ADD and REPLACE never are. -/
theorem request_framed (w : World) {es₀ es : List Event} {c c' : Conn} (hreach : Run (Step w) Conn.binary_conn es₀ c)
    (hparse : c.state = .conn_parse_cmd) (hlen : 24 ≤ c.rbytes) (hrun : Run (Step w) c es c')
    (hes : .reset_cmd_handler ∉ es) (hdone : c'.state = .conn_new_cmd) :
    Framed (Header.at_pos w.stream c.pos) c.pos es c' ↔ (Header.at_pos w.stream c.pos).framed w.settings := by
  have hready : c.protocol = .binary_prot ∧ c.Tidy :=
    hreach.invariant (P := fun c => c.protocol = .binary_prot ∧ c.Tidy) Conn.tidy_step ⟨rfl, Int.le_refl 0⟩
  obtain ⟨hp, ht⟩ := hready
  have ht' : c.sbytes ≤ 0 ∧ c.item = none ∧ c.value_allocs = [] := by simpa only [Conn.Tidy, hparse] using ht
  obtain ⟨hs, hit, hallocs⟩ := ht'
  have hopen : ¬ c'.Doomed := fun hd => by simp [Conn.Doomed, hdone] at hd
  cases hrun with
  | nil => simp [hparse] at hdone
  | @cons _ c₁ _ e es hstep hrest =>
      obtain ⟨-, hes⟩ := not_or.mp (mt List.mem_cons.mpr hes)
      have hparsed : Conn.Parsed w c c₁ := by
        cases e <;> simp only [Step, Conn.drive_machine, hparse, reduceCtorEq] at hstep
        exact (Conn.try_read_command_parsed hp hs hit hlen hstep).resolve_left fun hd => hopen (Conn.run_doomed hrest hd)
      have hprogress := (Conn.run_progress hrest hparsed.protocol hparsed.tidy hparsed.in_request hes).resolve_left hopen
      have honce := Conn.run_parses_nothing hrest (.inr ⟨hparsed.protocol, hparsed.tidy, hparsed.in_request⟩) hes
      have hvalue : c'.value_allocs = c₁.allocs_owed w.settings := by
        have h := hprogress.allocs
        simpa [Conn.allocs_owed, hdone, hparsed.value_allocs, hallocs] using h
      have howed : c'.owed = 0 := by simp [Conn.owed, hdone]
      have hlength := hparsed.value_length
      rw [← hparsed.framed, Conn.OwesBody, Framed, hvalue, hparsed.header]
      by_cases hfits : c₁.SaslFits w.settings
      · have hpos := hprogress.pos hfits
        rw [howed, hparsed.pos] at hpos
        exact ⟨fun h => ⟨by omega, fun n hn => (h.2.1 n hn).1⟩, fun h =>
          ⟨by omega, fun n hn => ⟨h.2 n hn, hlength⟩, honce⟩⟩
      · -- the length of the item overflows, and on neither side is it the value's
        obtain ⟨hread, hsub | hsub, hover⟩ : c₁.state = .conn_nread ∧ (_ ∨ _) ∧ ¬ _ := by
          simpa only [Conn.SaslFits, Classical.not_imp] using hfits
        · have hallocs₁ : c₁.allocs_owed w.settings = [c_int (c₁.body_after_key + 2)] := by
            simp [Conn.allocs_owed, hread, hsub]
          have hneg : c_int (c₁.body_after_key + 2) < 0 := by
            simp only [Conn.body_after_key, c_int, Int.bmod] at hover ⊢
            omega
          have hne : ¬ ∀ n ∈ c₁.allocs_owed w.settings, n = (Header.at_pos w.stream c.pos).value_length + 2 := by
            simp only [hallocs₁, List.mem_singleton, forall_eq]
            omega
          exact iff_of_false (fun h => hne fun n hn => (h.2.1 n hn).1) fun h => hne h.2
        · exact absurd hsub (hparsed.key hread)

/-! ## Two requests -/

/-- A stream that begins with a request of this opcode, key and body lengths, without extras, then zeros. -/
def one_request (opcode keylen bodylen : UInt8) : World where
  stream := fun i => [0x80, opcode, 0, keylen, 0, 0, 0, 0, 0, 0, 0, bodylen].getD i 0
  settings := { sasl := false, flush_enabled := true }
  numbers := { safe_strtoul := fun _ => none, safe_strtol := fun _ => none, safe_strtoull := fun _ => none }

def arrival : List Event := [.reset_cmd_handler, .update_event true, .try_read_network (.data 64)]

/-- SET of a one byte key and an eight byte value. -/
def set_request : List Event :=
  [.try_read_command .good, .leftovers, .complete_nread .good, .leftovers, .complete_nread .good, .transmit true]

/-- GET of a one byte key. -/
def get_request : List Event := [.try_read_command .good, .leftovers, .complete_nread .good, .transmit true]

/-- The eight bytes of extras that SET reads and does not count are missing from the next request. -/
theorem request_misframed : ∃ (w : World) (c c' : Conn),
    Run (Step w) Conn.binary_conn arrival c ∧ c.state = .conn_parse_cmd ∧ 24 ≤ c.rbytes ∧
      Run (Step w) c set_request c' ∧ c'.state = .conn_new_cmd ∧
      ¬ Framed (Header.at_pos w.stream c.pos) c.pos set_request c' := by
  let w := one_request 1 1 9
  let c := Conn.binary_conn.after w arrival
  refine ⟨w, c, c.after w set_request, Conn.after_run (by decide), by decide, by decide,
    Conn.after_run (by decide +kernel), by decide +kernel, fun h => absurd h.1 (by decide +kernel)⟩

theorem request_framed_witness :
    let w := one_request 0 1 1
    let c := Conn.binary_conn.after w arrival
    Framed (Header.at_pos w.stream c.pos) c.pos get_request (c.after w get_request) ↔
      (Header.at_pos w.stream c.pos).framed w.settings :=
  request_framed _ (Conn.after_run (by decide)) (by decide) (by decide) (Conn.after_run (by decide +kernel))
    (by decide) (by decide +kernel)

end Memcached.Thread

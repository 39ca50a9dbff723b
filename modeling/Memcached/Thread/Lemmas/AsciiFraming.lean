import Mathlib.Tactic.SplitIfs
import Memcached.Thread.DriveMachine

/-!
# The bytes a data block still owes

After a storage command line the connection owes the stream the data block, until it has read or swallowed it. Only a
failed allocation while `noreply` is set makes it forget the debt.
-/

namespace Memcached.Thread

/-- `item_alloc` for the value failed, or `read_into_chunked_item` got no further chunk. -/
def Event.alloc_fails : Event → Prop
  | .try_read_command a => a.item_alloc = none
  | .read_into_chunked_item _ res => res = .no_memory
  | _ => False

namespace Conn

/-! ## Accounts -/

/-- The bytes of the data block that are still to be used up. -/
def block_owed (c : Conn) : Nat :=
  match c.state with
  | .conn_nread => c.rlbytes.toNat
  | .conn_swallow => c.sbytes.toNat
  | .conn_write => if c.write_and_go = .conn_swallow then c.sbytes.toNat else 0
  | _ => 0

/-- The connection is after a storage command line that was read with this `noreply`. -/
structure InBlock (noreply : Bool) (c : Conn) : Prop where
  protocol : c.protocol = .ascii_prot
  state : c.state = .conn_nread ∧ c.noreply = noreply ∨ c.state = .conn_swallow ∨ c.state = .conn_new_cmd ∨
    c.state = .conn_write ∧ (c.write_and_go = .conn_swallow ∨ c.write_and_go = .conn_new_cmd)

/-- What a step does to the debt: it ends it with the connection, it pays, or it forgets it. -/
inductive Pays (noreply : Bool) (c : Conn) (e : Event) (c' : Conn) : Prop
  | closed (state : c'.state = .conn_closing)
  | paid (in_block : InBlock noreply c') (pos : c'.pos + c'.block_owed = c.pos + c.block_owed)
      (grant : ¬ (noreply ∧ e.alloc_fails))
  | lost (state : c'.state = .conn_new_cmd) (pos : c'.pos < c.pos + c.block_owed) (refusal : noreply ∧ e.alloc_fails)

section
variable {noreply : Bool} {c c' : Conn} {e : Event}

/-! ## Replies -/

/-- With `noreply` the reply is left out, and the state is that of the next command. -/
theorem out_string_noreply (h : c.noreply = true) : c.out_string.state = .conn_new_cmd ∧ c.out_string.pos = c.pos := by
  simp [out_string, h]

theorem out_string_paid (b : Bool) (hp : c.protocol = .ascii_prot) :
    InBlock b c.out_string ∧ c.out_string.block_owed = 0 ∧ c.out_string.pos = c.pos := by
  unfold out_string
  split
  · exact ⟨⟨hp, .inr (.inr (.inl rfl))⟩, rfl, rfl⟩
  · exact ⟨⟨hp, .inr (.inr (.inr ⟨rfl, .inr rfl⟩))⟩, rfl, rfl⟩

theorem out_string_swallow (b : Bool) (hp : c.protocol = .ascii_prot) (h : c.noreply = false) {n : Int} {c' : Conn}
    (hc : c' = { c.out_string with write_and_go := .conn_swallow, sbytes := n }) :
    InBlock b c' ∧ c'.block_owed = n.toNat ∧ c'.pos = c.pos := by
  subst hc
  exact ⟨⟨by simp [out_string, h, hp], .inr (.inr (.inr ⟨by simp [out_string, h], .inl rfl⟩))⟩,
    by simp [block_owed, out_string, h], by simp [out_string, h]⟩

/-! ## Steps -/

theorem complete_nread_ascii_pays {a : Answers} (hin : InBlock noreply c) (hst : c.state = .conn_nread)
    (hr : c.rlbytes = 0) (h : c.complete_nread_ascii a = some c') : Pays noreply c (.complete_nread a) c' := by
  have howed : c.block_owed = 0 := by simp [block_owed, hst, hr]
  have hreply : Pays noreply c (.complete_nread a) { c.out_string with item := none } := by
    obtain ⟨hin', howed', hpos'⟩ := out_string_paid noreply hin.protocol
    exact .paid ⟨hin'.protocol, hin'.state⟩ (by rw [howed]; exact congrArg₂ (· + ·) hpos' howed') nofun
  unfold complete_nread_ascii at h
  split at h
  · cases h
  split_ifs at h
  · obtain rfl := Option.some.inj h
    exact hreply
  cases hs : a.store_item <;> simp only [hs, Option.some.injEq] at h <;> subst h
  case TOO_LARGE | NO_MEMORY => exact .paid ⟨hin.protocol, hin.state⟩ rfl nofun
  all_goals exact hreply

theorem fill_paid {n : Nat} (hin : InBlock noreply c) (hst : c.state = .conn_nread) (hn : (n : Int) ≤ c.rlbytes) :
    InBlock noreply (c.fill n) ∧ (c.fill n).pos + (c.fill n).block_owed = c.pos + c.block_owed := by
  refine ⟨⟨hin.protocol, hin.state⟩, ?_⟩
  simp only [block_owed, hst, fill]
  omega

theorem swallow_paid {n : Nat} (hin : InBlock noreply c) (hst : c.state = .conn_swallow) (hn : (n : Int) ≤ c.sbytes) :
    InBlock noreply (c.swallow n) ∧ (c.swallow n).pos + (c.swallow n).block_owed = c.pos + c.block_owed := by
  refine ⟨⟨hin.protocol, hin.state⟩, ?_⟩
  simp only [block_owed, hst, swallow]
  omega

/-- A read without data: only a missing chunk matters, and then what is left of the block is swallowed after the reply,
if there is one. -/
theorem nread_failed_pays {n : Nat} {res : ReadResult} (hin : InBlock noreply c) (hst : c.state = .conn_nread)
    (hnr : c.noreply = noreply) (hn : (n : Int) ≤ c.rlbytes) (hmissing : res = .no_memory → (n : Int) < c.rlbytes)
    (he : e.alloc_fails ↔ res = .no_memory) : Pays noreply c e ((c.fill n).nread_failed res) := by
  obtain ⟨hfill, hpos⟩ := fill_paid hin hst hn
  cases res with
  | data _ => exact .paid hfill hpos (by simp [he])
  | eagain => exact .paid hfill hpos (by simp [he])
  | eof => exact .closed rfl
  | error => exact .closed rfl
  | no_memory =>
      have hlt := hmissing rfl
      have hout : (c.fill n).out_of_memory = (c.fill n).out_string := by
        simp only [out_of_memory, show (c.fill n).protocol = .ascii_prot from hin.protocol]
      simp only [nread_failed, hout]
      cases hreply : noreply with
      | true =>
          have h := out_string_noreply (c := c.fill n) (hnr.trans hreply)
          refine .lost h.1 ?_ ⟨rfl, he.mpr rfl⟩
          rw [show _ = c.pos + n from h.2]
          simp only [block_owed, hst]
          omega
      | false =>
          obtain ⟨hin', howed, hpos'⟩ :=
            out_string_swallow false (c := c.fill n) hin.protocol (hnr.trans hreply) rfl
          refine .paid hin' ?_ nofun
          rw [howed, hpos', ← hpos]
          simp only [block_owed, show (c.fill n).state = .conn_nread from hst]

/-- One step pays the debt, unless an allocation fails and no reply is wanted. -/
theorem step_pays {w : World} (hin : InBlock noreply c) (h : Step w c e c') (he : e ≠ .reset_cmd_handler) :
    Pays noreply c e c' := by
  obtain ⟨hst, hnr⟩ | hst | hst | ⟨hst, hgo⟩ := hin.state
  · cases e with
    | complete_nread a =>
        simp only [Step, drive_machine, hst, complete_nread, hin.protocol, Option.ite_none_right_eq_some] at h
        exact complete_nread_ascii_pays hin hst h.1 h.2
    | invalid_rlbytes =>
        simp only [Step, drive_machine, hst, Option.ite_none_right_eq_some, Option.some.injEq] at h
        exact .closed (by rw [← h.2])
    | leftovers =>
        simp only [Step, drive_machine, hst, Option.ite_none_right_eq_some, Option.some.injEq] at h
        obtain ⟨⟨hr, -, -⟩, rfl⟩ := h
        obtain ⟨hin', hpos⟩ := fill_paid hin hst (n := min c.rbytes c.rlbytes.toNat) (by omega)
        exact .paid hin' hpos nofun
    | read res =>
        cases res with
        | data n =>
            simp only [Step, drive_machine, hst, Option.ite_none_right_eq_some, Option.some.injEq] at h
            obtain ⟨⟨-, -, -, -, hn⟩, rfl⟩ := h
            obtain ⟨hin', hpos⟩ := fill_paid hin hst hn
            exact .paid hin' hpos nofun
        | no_memory => simp [Step, drive_machine, hst] at h
        | eagain =>
            simp only [Step, drive_machine, hst, Option.ite_none_right_eq_some, Option.some.injEq] at h
            exact h.2 ▸ .paid hin rfl nofun
        | _ =>
            simp only [Step, drive_machine, hst, Option.ite_none_right_eq_some, Option.some.injEq] at h
            exact .closed (by rw [← h.2]; rfl)
    | read_into_chunked_item n res =>
        simp only [Step, drive_machine, hst, Option.ite_none_right_eq_some, Option.some.injEq] at h
        obtain ⟨⟨-, -, hn, hmissing⟩, rfl⟩ := h
        exact nread_failed_pays hin hst hnr hn hmissing Iff.rfl
    | _ => simp [Step, drive_machine, hst] at h
  · cases e with
    | swallowed =>
        simp only [Step, drive_machine, hst, Option.ite_none_right_eq_some, Option.some.injEq] at h
        obtain ⟨hs, rfl⟩ := h
        exact .paid ⟨hin.protocol, .inr (.inr (.inl rfl))⟩ (by simp [block_owed, hst]; omega) nofun
    | leftovers =>
        simp only [Step, drive_machine, hst, Option.ite_none_right_eq_some, Option.some.injEq] at h
        obtain ⟨⟨hs, -⟩, rfl⟩ := h
        obtain ⟨hin', hpos⟩ := swallow_paid hin hst (n := min c.rbytes c.sbytes.toNat) (by omega)
        exact .paid hin' hpos nofun
    | read res =>
        cases res <;> simp only [Step, drive_machine, hst, Option.ite_none_right_eq_some, Option.some.injEq] at h
        case data n =>
          obtain ⟨⟨-, -, -, hn⟩, rfl⟩ := h
          obtain ⟨hin', hpos⟩ := swallow_paid hin hst hn
          exact .paid hin' hpos nofun
        case eagain => exact h.2 ▸ .paid hin rfl nofun
        all_goals exact .closed (by rw [← h.2])
    | _ => simp [Step, drive_machine, hst] at h
  · cases e <;> simp [Step, drive_machine, hst] at h he
  · cases e with
    | transmit complete =>
        cases complete <;> simp only [Step, drive_machine, hst, Option.some.injEq] at h <;> subst h
        · exact .closed rfl
        · obtain hgo | hgo := hgo
          · exact .paid ⟨hin.protocol, .inr (.inl hgo)⟩ (by simp [block_owed, hst, hgo]) nofun
          · exact .paid ⟨hin.protocol, .inr (.inr (.inl hgo))⟩ (by simp [block_owed, hst, hgo]) nofun
    | _ => simp [Step, drive_machine, hst] at h

/-! ## Runs -/

/-- Nothing follows the end of a request but the next one, and nothing the end of a connection. -/
theorem run_stops {w : World} {es : List Event} (hrun : Transition.Run (Step w) c es c')
    (hst : c.state = .conn_new_cmd ∨ c.state = .conn_closing) (hes : .reset_cmd_handler ∉ es) : es = [] ∧ c' = c := by
  cases hrun with
  | nil => exact ⟨rfl, rfl⟩
  | @cons _ _ _ e _ hstep _ =>
      obtain ⟨he, -⟩ := not_or.mp (mt List.mem_cons.mpr hes)
      rcases hst with hst | hst <;> cases e <;> simp [Step, drive_machine, hst] at hstep he

/-- At the end of a request the debt is paid, unless an allocation failed and no reply was wanted; in between nothing is
parsed. -/
theorem run_pays {w : World} {es : List Event} (hrun : Transition.Run (Step w) c es c') (hin : InBlock noreply c)
    (hes : .reset_cmd_handler ∉ es) (hdone : c'.state = .conn_new_cmd) :
    (c'.pos = c.pos + c.block_owed ↔ ¬ (noreply ∧ ∃ e ∈ es, e.alloc_fails)) ∧ c'.pos ≤ c.pos + c.block_owed ∧
      ∀ a, .try_read_command a ∉ es := by
  induction hrun with
  | nil c => simp [block_owed, hdone]
  | @cons c c₁ c' e es hstep hrest ih =>
      obtain ⟨he, hes⟩ := not_or.mp (mt List.mem_cons.mpr hes)
      have hparse (a : Answers) : .try_read_command a ≠ e := by
        rintro rfl
        obtain ⟨hst, -⟩ | hst | hst | ⟨hst, -⟩ := hin.state <;> simp [Step, drive_machine, hst] at hstep
      have hpays := step_pays hin hstep (Ne.symm he)
      cases hpays with
      | closed hst =>
          obtain ⟨-, rfl⟩ := run_stops hrest (.inr hst) hes
          simp [hst] at hdone
      | paid hin' hpos hgrant =>
          obtain ⟨ih, hle, hparses⟩ := ih hin' hes hdone
          refine ⟨?_, hpos ▸ hle, fun a hmem => (List.mem_cons.mp hmem).elim (hparse a) (hparses a)⟩
          rw [← hpos, ih]
          grind
      | lost hst hpos hrefusal =>
          obtain ⟨rfl, rfl⟩ := run_stops hrest (.inl hst) hes
          refine ⟨iff_of_false (by omega) fun h => h ⟨hrefusal.1, e, by simp, hrefusal.2⟩, by omega, fun a hmem => ?_⟩
          exact hparse a (List.mem_singleton.mp hmem)

end

end Conn

end Memcached.Thread

import Memcached.Thread.Lemmas.SaslGate

/-!
# The SASL gate

With SASL on, whatever order requests, exchanges, closes and new connections come in, a connection runs a command
that is neither a SASL command nor VERSION only if the last exchange completed on it ended with SASL_OK.
-/

namespace Memcached.Thread

open Function (update update_self update_of_ne)
open Transition (Run)

variable {w : ServerWorld} {conns conns' : Nat → Option Slot}

/-- Every open connection is gated. -/
def AllGated (conns : Nat → Option Slot) : Prop :=
  ∀ sfd k, conns sfd = some k → k.closed = false → k.conn.Gated k.last_exchange

theorem AllGated.update {sfd : Nat} {k : Slot} (h : AllGated conns)
    (hk : k.closed = false → k.conn.Gated k.last_exchange) : AllGated (update conns sfd (some k)) := by
  intro fd l hl
  by_cases hfd : fd = sfd
  · subst hfd
    rw [update_self] at hl
    obtain rfl := Option.some.inj hl
    exact hk
  · rw [update_of_ne hfd] at hl
    exact h fd l hl

theorem conn_new_gated (c : Conn) : c.conn_new.Gated none := ⟨rfl, nofun, nofun, nofun⟩

theorem accept_gated {stream : Nat → UInt8} {o : Option Slot} {k : Slot} (h : ServerWorld.accept stream o = some k) :
    k.conn.Gated k.last_exchange := by
  cases o with
  | none =>
      obtain rfl := Option.some.inj h
      exact conn_new_gated _
  | some l =>
      simp only [ServerWorld.accept, Option.ite_none_right_eq_some, Option.some.injEq] at h
      obtain ⟨-, rfl⟩ := h
      exact conn_new_gated _

theorem drive_gated {k k' : Slot} {e : Event} (hs : w.settings.sasl = true) (hk : k.conn.Gated k.last_exchange)
    (h : w.drive k e = some k') : k'.conn.Gated k'.last_exchange := by
  simp only [ServerWorld.drive] at h
  split at h
  · cases h
  · obtain ⟨c, hc, rfl⟩ := Option.map_eq_some_iff.mp h
    exact Conn.step_gated (w := w.world k) hs hk hc

theorem server_step_gated {e : ServerEvent} (hs : w.settings.sasl = true) (hall : AllGated conns)
    (h : ServerStep w conns e conns') : AllGated conns' := by
  simp only [ServerStep] at h
  cases e with
  | accept sfd stream =>
      obtain ⟨k, hk, rfl⟩ := Option.map_eq_some_iff.mp h
      exact hall.update fun _ => accept_gated hk
  | drive sfd e =>
      obtain ⟨k', hk', rfl⟩ := Option.map_eq_some_iff.mp h
      obtain ⟨k, hk, hdrive⟩ := Option.bind_eq_some_iff.mp hk'
      refine hall.update fun _ => drive_gated hs (hall sfd k hk ?_) hdrive
      simp only [ServerWorld.drive] at hdrive
      split at hdrive
      · cases hdrive
      · next hopen => simpa using hopen
  | conn_close_idle sfd =>
      obtain ⟨k', hk', rfl⟩ := Option.map_eq_some_iff.mp h
      obtain ⟨k, hk, hidle⟩ := Option.bind_eq_some_iff.mp hk'
      simp only [ServerWorld.conn_close_idle, Option.ite_none_right_eq_some, Option.some.injEq] at hidle
      obtain ⟨⟨hopen, -⟩, rfl⟩ := hidle
      have hg := hall sfd k hk hopen
      exact hall.update fun _ => ⟨hg.protocol, hg.authenticated, nofun, hg.write_and_go⟩
  | conn_close sfd =>
      obtain ⟨k', hk', rfl⟩ := Option.map_eq_some_iff.mp h
      obtain ⟨k, hk, hclose⟩ := Option.bind_eq_some_iff.mp hk'
      simp only [ServerWorld.conn_close, Option.ite_none_right_eq_some, Option.some.injEq] at hclose
      obtain ⟨-, rfl⟩ := hclose
      exact hall.update fun hopen => by cases hopen

/-! ## The gate -/

theorem sasl_gate (hs : w.settings.sasl = true) {es : List ServerEvent} (hrun : Run (ServerStep w) (fun _ => none) es conns)
    {sfd : Nat} {k k' : Slot} {e : Event} (hk : conns sfd = some k) (hstep : w.drive k e = some k') {x : Executed}
    (hx : k.conn.executed (w.world k) e = some x) : x.needs_no_auth ∨ k.last_exchange = some .SASL_OK := by
  have hall : AllGated conns :=
    hrun.invariant (P := AllGated) (fun hall h => server_step_gated hs hall h) fun _ _ h => by cases h
  simp only [ServerWorld.drive] at hstep
  split at hstep
  · cases hstep
  · next hopen =>
    obtain ⟨c, hc, -⟩ := Option.map_eq_some_iff.mp hstep
    exact (hall sfd k hk (by simpa using hopen)).executed (w := w.world k) hs hc hx

/-! ## A connection that authenticates -/

def sasl_world : ServerWorld where
  settings := { sasl := true, flush_enabled := true }
  numbers := { safe_strtoul := fun _ => none, safe_strtol := fun _ => none, safe_strtoull := fun _ => none }

/-- SASL_AUTH with a mechanism of five bytes, then GET of a key of one byte. -/
def auth_then_get (i : Nat) : UInt8 :=
  let auth : List UInt8 := [0x80, 0x21, 0, 5, 0, 0, 0, 0, 0, 0, 0, 5]
  let get : List UInt8 := [0x80, 0, 0, 1, 0, 0, 0, 0, 0, 0, 0, 1]
  (auth ++ List.replicate 17 0 ++ get).getD i 0

/-- The descriptor was used before; the client authenticates. -/
def authenticating : List ServerEvent :=
  [.accept 7 auth_then_get, .drive 7 .reset_cmd_handler, .drive 7 (.update_event false), .conn_close 7,
    .accept 7 auth_then_get, .drive 7 .reset_cmd_handler, .drive 7 (.update_event true),
    .drive 7 (.try_read_network (.data 64)), .drive 7 (.try_read_command .good), .drive 7 .leftovers,
    .drive 7 (.complete_nread .good), .drive 7 (.complete_nread .good), .drive 7 (.transmit true),
    .drive 7 .reset_cmd_handler]

theorem sasl_gate_witness : ∃ conns k k', Run (ServerStep sasl_world) (fun _ => none) authenticating conns ∧
    conns 7 = some k ∧ sasl_world.drive k (.try_read_command .good) = some k' ∧
    ((Executed.dispatched .GET).needs_no_auth ∨ k.last_exchange = some .SASL_OK) := by
  have hsome : ((authenticating.foldlM sasl_world.step fun _ => none).bind fun conns =>
      (conns 7).bind fun k => (sasl_world.drive k (.try_read_command .good)).bind fun _ =>
        if k.conn.executed (sasl_world.world k) (.try_read_command .good) = some (.dispatched .GET) then some () else
          none).isSome := by decide +kernel
  obtain ⟨_, h⟩ := Option.isSome_iff_exists.mp hsome
  obtain ⟨conns, hconns, h⟩ := Option.bind_eq_some_iff.mp h
  obtain ⟨k, hk, h⟩ := Option.bind_eq_some_iff.mp h
  obtain ⟨k', hk', h⟩ := Option.bind_eq_some_iff.mp h
  have hx := (Option.ite_none_right_eq_some.mp h).1
  exact ⟨conns, k, k', .of_foldlM hconns, hk, hk', sasl_gate rfl (.of_foldlM hconns) hk hk' hx⟩

end Memcached.Thread

import Memcached.Network.Lemmas.Counting

/-!
# `curr_conns` is the number of open connections

Every step keeps the count, but for two: a `redispatch_conn` that runs out of memory closes its connection without
counting it off, and `conn_close_idle` counts off a connection that `conn_new` did not count.
-/

namespace Memcached.Network

open Function (update update_self update_of_ne)
open Transition (Run)

section
variable {settings : ConnSettings} {s t : Sockets} {c sfd : Nat} {e : SocketEvent}

open Sockets

/-- The steps that count what they do: `redispatch_conn` has its item, and what `conn_close_idle` closes is open. -/
def Sockets.Counts (settings : ConnSettings) (s : Sockets) : SocketEvent → Prop
  | .redispatch_conn _ item => item = true
  | .conn_close_idle c =>
      s.kicks settings c = true → (s.conn c).transport = .udp_transport ∨ c ∈ s.connections
  | _ => True

theorem Counted.set_conn (h : Counted s) (hside : c ∉ s.lent ++ s.returning) (k : Conn) :
    Counted { s with conn := update s.conn c k } :=
  h.keep rfl h.nodup h.is_open rfl rfl (.refl _) fun x hx hwatch =>
    (congrArg Conn.state (update_of_ne (fun he : x = c => hside (he ▸ hx)) ..)).trans hwatch

instance Sockets.Counts.decide (settings : ConnSettings) (s : Sockets) : (e : SocketEvent) → Decidable (s.Counts settings e)
  | .redispatch_conn _ item => inferInstanceAs (Decidable (item = true))
  | .conn_close_idle c => inferInstanceAs (Decidable
      (s.kicks settings c = true → (s.conn c).transport = .udp_transport ∨ c ∈ s.connections))
  | .listen .. | .bind_udp .. | .accept .. | .process .. | .drive .. | .closing _ | .lend _ | .conn_timeout _ | .tick _ =>
      isTrue trivial

theorem Counted.drive_closing (h : Counted s) (hc : (s.conn c).transport = .udp_transport ∨ c ∈ s.connections)
    (hside : c ∉ s.lent ++ s.returning) : Counted (s.drive_closing c) := by
  rw [Sockets.drive_closing]
  split
  next => exact h.set_conn hside _
  next hudp => exact h.conn_close (hc.resolve_left hudp) hside

theorem Counted.not_side (h : Counted s) (hc : s.events c = true) : c ∉ s.lent ++ s.returning :=
  fun hin => nomatch hc.symm.trans (h.side c hin).2.1

theorem Counted.step (h : Counted s) (hcounts : s.Counts settings e) (hstep : s.step settings e = some t) :
    Counted t := by
  cases e with
  | listen sfd transport =>
      rw [Sockets.step] at hstep
      split at hstep
      next hsfd =>
        obtain ⟨⟨t', b⟩, hmade, rfl⟩ := Option.map_eq_some_iff.mp hstep
        obtain rfl := conn_new_ok hmade
        obtain ⟨hopened, hqueued, hlent, hconn, hcurr, hevents⟩ := conn_new_cases hmade
        have hwaiting : t'.waiting = s.waiting := congrArg (List.filterMap _) hqueued
        have hreturning : t'.returning = s.returning := congrArg (List.filterMap _) hqueued
        have hout : sfd ∉ s.waiting := fun hin => hsfd.1 (h.is_open sfd hin)
        refine h.made (fun hin => hsfd.1 (mem_connections.mp hin).1) ?_ (hwaiting ▸ h.nodup) ?_ hcurr hevents
          (by rw [hlent, hreturning]) fun x hx => congrArg Conn.state (hconn x hx)
        · rw [connections, connections, hopened, hwaiting, Finset.filter_insert, if_pos hout]
        · intro x hx
          rw [hopened]
          exact Finset.mem_insert_of_mem (h.is_open x (hwaiting ▸ hx))
      next => cases hstep
  | bind_udp sfd item =>
      rw [Sockets.step] at hstep
      split at hstep
      next hsfd =>
        cases hstep
        exact h.dispatch_conn_new hsfd
      next => cases hstep
  | accept c sfd item =>
      rw [Sockets.step] at hstep
      split at hstep
      next hc =>
        cases hstep
        rw [Sockets.accept]
        dsimp only
        split
        · exact @Counted.dispatch_conn_new s sfd .conn_new_cmd .tcp_transport false h hc.2.2
        · exact h.dispatch_conn_new hc.2.2
      next => cases hstep
  | process w q r =>
      rw [Sockets.step] at hstep
      split at hstep
      next hq =>
        cases q with
        | new_conn sfd init_state transport => exact h.process_new hq hstep
        | redispatch c =>
            cases hstep
            exact h.process_redispatch hq
      next => cases hstep
  | drive c state last_cmd_time io_wraplist =>
      rw [Sockets.step] at hstep
      split at hstep
      next hc =>
        cases hstep
        exact h.set_conn (h.not_side hc.1) _
      next => cases hstep
  | closing c =>
      rw [Sockets.step] at hstep
      split at hstep
      next hc =>
        cases hstep
        exact h.drive_closing (.inr (h.events c hc.1)) (h.not_side hc.1)
      next => cases hstep
  | lend c =>
      rw [Sockets.step] at hstep
      split at hstep
      next hc =>
        cases hstep
        exact h.lend hc.1
      next => cases hstep
  | redispatch_conn c item =>
      rw [Sockets.step] at hstep
      split at hstep
      next hc =>
        cases hstep
        obtain rfl : item = true := hcounts
        exact h.redispatch hc
      next => cases hstep
  | conn_timeout c =>
      rw [Sockets.step, Sockets.conn_timeout] at hstep
      split at hstep
      · split at hstep
        · cases hstep
          exact h.keep rfl h.nodup h.is_open rfl rfl (.refl _) fun _ _ hwatch => hwatch
        · cases hstep
      · cases hstep
        exact h
  | conn_close_idle c =>
      rw [Sockets.step] at hstep
      split at hstep
      next hc =>
        cases hstep
        have h' : Counted { s with timeouts := s.timeouts.erase c } :=
          h.keep rfl h.nodup h.is_open rfl rfl (.refl _) fun _ _ hwatch => hwatch
        rw [Sockets.conn_close_idle]
        split
        next hkicks =>
          refine h'.drive_closing (hcounts hkicks) fun hin => ?_
          have hwatch := (h.side c hin).2.2
          simp [kicks, at_rest, hwatch] at hkicks
        next => exact h'
      next => cases hstep
  | tick now =>
      cases hstep
      exact h.keep rfl h.nodup h.is_open rfl rfl (.refl _) fun _ _ hwatch => hwatch

theorem Counted.step_counts (h : Counted s) (hstep : s.step settings e = some t)
    (ht : t.curr_conns = t.connections.card) : s.Counts settings e := by
  have hcount := h.count
  cases e with
  | redispatch_conn c item =>
      rw [Sockets.step] at hstep
      split at hstep
      next hc =>
        cases hstep
        cases item with
        | true => rfl
        | false =>
            have hcard := Finset.card_erase_add_one (h.side c (List.mem_append_left _ hc)).1
            have hconnections : (s.redispatch_conn c false).connections = s.connections.erase c := Finset.filter_erase ..
            rw [hconnections] at ht
            change s.curr_conns = _ at ht
            omega
      next => cases hstep
  | conn_close_idle c =>
      intro hkicks
      rw [Sockets.step] at hstep
      split at hstep
      next hc =>
        cases hstep
        by_contra hnot
        rw [not_or] at hnot
        have hconnections : ({ s with timeouts := s.timeouts.erase c }.conn_close c).connections = s.connections :=
          (Finset.filter_erase ..).trans (Finset.erase_eq_of_notMem hnot.2)
        have hkicks' : kicks settings { s with timeouts := s.timeouts.erase c } c = true := hkicks
        rw [Sockets.conn_close_idle, if_pos hkicks', Sockets.drive_closing, if_neg hnot.1, hconnections] at ht
        change s.curr_conns - 1 = _ at ht
        omega
      next => cases hstep
  | _ => trivial

/-- In every state of a run whose steps count, `curr_conns` is the number of open connections, the limit is tested
against it, and the next step keeps it exactly if it counts. -/
theorem curr_conns_counts {es : List SocketEvent}
    (h : Run (fun s e t => s.step settings e = some t ∧ s.Counts settings e) Sockets.init es s) :
    s.curr_conns = s.connections.card ∧
      s.full settings = (settings.maxconns_fast &&
        decide ((s.connections.card : Int) + settings.reserved_fds ≥ settings.maxconns - 1)) ∧
      ∀ e t, s.step settings e = some t → (t.curr_conns = t.connections.card ↔ s.Counts settings e) := by
  have hinit : Counted Sockets.init :=
    ⟨rfl, List.nodup_nil, fun _ hx => (nomatch hx), fun _ hx => (nomatch hx), List.nodup_nil, fun _ hx => (nomatch hx)⟩
  have hs : Counted s := h.invariant (P := Counted) (fun hs hstep => hs.step hstep.2 hstep.1) hinit
  exact ⟨hs.count, by rw [full, hs.count], fun e t hstep =>
    ⟨hs.step_counts hstep, fun hcounts => (hs.step hcounts hstep).count⟩⟩

end

def two_conns : ConnSettings := ⟨1024, true, 5, 60⟩

/-- A client is accepted, lent to a side thread, given back, and closed after it was idle; another stays. -/
def conns_run : List SocketEvent :=
  [.listen 3 .tcp_transport, .accept 3 4 true, .accept 3 5 true, .accept 3 6 false,
    .process 0 (.new_conn 4 .conn_new_cmd .tcp_transport) .ok, .process 1 (.new_conn 5 .conn_new_cmd .tcp_transport) .ok,
    .lend 4, .redispatch_conn 4 true, .process 0 (.redispatch 4) .ok, .tick 100, .conn_timeout 4, .conn_close_idle 4]

theorem curr_conns_counts_witness : ∃ s,
    Run (fun s e t => s.step two_conns e = some t ∧ s.Counts two_conns e) Sockets.init conns_run s ∧
      s.curr_conns = s.connections.card ∧ s.connections = {3, 5} := by
  have hrun : (conns_run.foldlM (fun (s : Sockets) e => if s.Counts two_conns e then s.step two_conns e else none)
      Sockets.init).map Sockets.connections = some {3, 5} := by decide
  obtain ⟨s, hs, hconnections⟩ := Option.map_eq_some_iff.mp hrun
  have hcounting : Run (fun s e t => s.step two_conns e = some t ∧ s.Counts two_conns e) Sockets.init conns_run s := by
    refine (Run.of_foldlM hs).mono fun {s e t} h => ?_
    split at h
    next hcounts => exact ⟨h, hcounts⟩
    next => cases h
  exact ⟨s, hcounting, (curr_conns_counts hcounting).1, hconnections⟩

/-- A client is lent to a side thread, which finds no item to give it back with. -/
def lost_run : List SocketEvent :=
  [.listen 3 .tcp_transport, .accept 3 4 true, .process 0 (.new_conn 4 .conn_new_cmd .tcp_transport) .ok, .lend 4,
    .redispatch_conn 4 false]

theorem closed_conn_counted : ∃ s, Run (fun s e t => s.step two_conns e = some t) Sockets.init lost_run s ∧
    s.curr_conns = 2 ∧ s.connections = {3} := by
  have hrun : (lost_run.foldlM (Sockets.step two_conns) Sockets.init).map
      (fun s => (s.curr_conns, s.connections)) = some (2, {3}) := by decide
  obtain ⟨s, hs, hcount⟩ := Option.map_eq_some_iff.mp hrun
  exact ⟨s, .of_foldlM hs, congrArg Prod.fst hcount, congrArg Prod.snd hcount⟩

end Memcached.Network

import Mathlib.Data.List.Perm.Lattice
import Memcached.Network.Conns

/-!
# What is counted

A socket is on a queue, or it is a connection; a connection is with its worker, or with one side thread, or on its way
back. `curr_conns` counts the connections.
-/

namespace Memcached.Network

open Function (update update_self update_of_ne)

namespace Sockets

/-- The connections on their way back from a side thread. -/
def returning (s : Sockets) : List Nat :=
  s.queued.filterMap fun
    | .new_conn .. => none
    | .redispatch c => some c

end Sockets

structure Counted (s : Sockets) : Prop where
  count : s.curr_conns = s.connections.card
  nodup : s.waiting.Nodup
  is_open : ∀ sfd ∈ s.waiting, sfd ∈ s.opened
  events : ∀ c, s.events c = true → c ∈ s.connections
  apart : (s.lent ++ s.returning).Nodup
  side : ∀ c ∈ s.lent ++ s.returning, c ∈ s.connections ∧ s.events c = false ∧ (s.conn c).state = .conn_watch

section
variable {s t : Sockets} {c sfd : Nat} {q : Queued} {init_state : conn_states} {transport : network_transport} {r : Made}

open Sockets

theorem mem_connections : c ∈ s.connections ↔ c ∈ s.opened ∧ c ∉ s.waiting := by
  rw [connections, Finset.mem_filter]

theorem Counted.keep (h : Counted s) (hconnections : t.connections = s.connections) (hnodup : t.waiting.Nodup)
    (hopen : ∀ x ∈ t.waiting, x ∈ t.opened) (hcurr : t.curr_conns = s.curr_conns) (hevents : t.events = s.events)
    (hsides : (t.lent ++ t.returning).Perm (s.lent ++ s.returning))
    (hstate : ∀ c ∈ s.lent ++ s.returning, (s.conn c).state = .conn_watch → (t.conn c).state = .conn_watch) :
    Counted t := by
  constructor
  · rw [hcurr, hconnections]
    exact h.count
  · exact hnodup
  · exact hopen
  · rw [hevents, hconnections]
    exact h.events
  · exact hsides.nodup_iff.mpr h.apart
  · intro c hc
    obtain ⟨hconn, hev, hwatch⟩ := h.side c (hsides.mem_iff.mp hc)
    rw [hconnections, hevents]
    exact ⟨hconn, hev, hstate c (hsides.mem_iff.mp hc) hwatch⟩

theorem Counted.conn_close (h : Counted s) (hc : c ∈ s.connections) (hside : c ∉ s.lent ++ s.returning) :
    Counted (s.conn_close c) := by
  have hconnections : (s.conn_close c).connections = s.connections.erase c := Finset.filter_erase ..
  have hne {x : Nat} (hx : x ∈ s.waiting) : x ≠ c := fun he => (mem_connections.mp hc).2 (he ▸ hx)
  constructor
  · rw [hconnections]
    have hcard := Finset.card_erase_add_one hc
    have hcount := h.count
    change s.curr_conns - 1 = _
    omega
  · exact h.nodup
  · intro x hx
    exact Finset.mem_erase.mpr ⟨hne hx, h.is_open x hx⟩
  · intro x hx
    rw [hconnections]
    by_cases he : x = c
    · subst he
      simp [Sockets.conn_close, close, set_state] at hx
    · rw [show (s.conn_close c).events x = s.events x from update_of_ne he ..] at hx
      exact Finset.mem_erase.mpr ⟨he, h.events x hx⟩
  · exact h.apart
  · intro x hx
    have he : x ≠ c := fun he => hside (he ▸ hx)
    obtain ⟨hconn, hevents, hstate⟩ := h.side x hx
    rw [hconnections]
    refine ⟨Finset.mem_erase.mpr ⟨he, hconn⟩, ?_, ?_⟩
    · exact (update_of_ne he ..).trans hevents
    · exact (congrArg Conn.state (update_of_ne he ..)).trans hstate

theorem Counted.made (h : Counted s) (hnew : sfd ∉ s.connections)
    (hconnections : t.connections = insert sfd s.connections) (hnodup : t.waiting.Nodup)
    (hopen : ∀ x ∈ t.waiting, x ∈ t.opened) (hcurr : t.curr_conns = s.curr_conns + 1)
    (hevents : t.events = update s.events sfd true) (hsides : (t.lent ++ t.returning).Perm (s.lent ++ s.returning))
    (hstate : ∀ x ≠ sfd, (t.conn x).state = (s.conn x).state) : Counted t := by
  constructor
  · rw [hcurr, hconnections, Finset.card_insert_of_notMem hnew, h.count, Nat.cast_add, Nat.cast_one]
  · exact hnodup
  · exact hopen
  · intro x hx
    rw [hconnections]
    by_cases he : x = sfd
    · exact he ▸ Finset.mem_insert_self ..
    · rw [hevents, update_of_ne he] at hx
      exact Finset.mem_insert_of_mem (h.events x hx)
  · exact hsides.nodup_iff.mpr h.apart
  · intro x hx
    obtain ⟨hconn, hev, hst⟩ := h.side x (hsides.mem_iff.mp hx)
    have he : x ≠ sfd := fun he => hnew (he ▸ hconn)
    rw [hconnections, hevents, update_of_ne he, hstate x he]
    exact ⟨Finset.mem_insert_of_mem hconn, hev, hst⟩

/-- What `conn_new` did: it made the connection, or it wrote to the `conn` at most. -/
theorem conn_new_cases {b : Bool} (h : s.conn_new sfd init_state transport r = some (t, b)) :
    t.opened = s.opened ∧ t.queued = s.queued ∧ t.lent = s.lent ∧ (∀ x ≠ sfd, t.conn x = s.conn x) ∧
      t.curr_conns = (if b then s.curr_conns + 1 else s.curr_conns) ∧
      t.events = if b then update s.events sfd true else s.events := by
  rw [conn_new] at h
  split at h
  · cases h
    exact ⟨rfl, rfl, rfl, fun _ _ => rfl, rfl, rfl⟩
  split at h
  · cases h
    exact ⟨rfl, rfl, rfl, fun _ _ => rfl, rfl, rfl⟩
  cases r with
  | ok =>
      cases h
      exact ⟨rfl, rfl, rfl, fun x hx => update_of_ne hx .., rfl, rfl⟩
  | event_add_failed =>
      cases h
      exact ⟨rfl, rfl, rfl, fun x hx => update_of_ne hx .., rfl, rfl⟩
  | no_conn => cases h
  | no_buffers => cases h

theorem conn_new_ok {b : Bool} (h : s.conn_new sfd init_state transport .ok = some (t, b)) : b = true := by
  rw [conn_new, if_neg (fun h => nomatch h.2), if_neg (fun h => nomatch h.2)] at h
  exact (congrArg Prod.snd (Option.some.inj h)).symm

/-! ## The queues -/

theorem Counted.enqueue (h : Counted s) (hsfd : sfd ∉ s.opened) : Counted { s with
    opened := insert sfd s.opened
    queued := s.queued ++ [.new_conn sfd init_state transport] } := by
  have hwaiting : waiting { s with
      opened := insert sfd s.opened
      queued := s.queued ++ [.new_conn sfd init_state transport] } = s.waiting ++ [sfd] := List.filterMap_append ..
  have hreturning : returning { s with
      opened := insert sfd s.opened
      queued := s.queued ++ [.new_conn sfd init_state transport] } = s.returning := by
    rw [returning, List.filterMap_append, List.filterMap_cons_none rfl, List.filterMap_nil, List.append_nil, returning]
  refine h.keep ?_ ?_ ?_ rfl rfl (by rw [hreturning]) fun _ _ hwatch => hwatch
  · ext x
    rw [mem_connections, mem_connections, hwaiting, List.mem_append, List.mem_singleton, Finset.mem_insert]
    constructor
    · rintro ⟨rfl | hx, hnot⟩
      · exact absurd (.inr rfl) hnot
      · exact ⟨hx, fun hw => hnot (.inl hw)⟩
    · rintro ⟨hx, hnot⟩
      refine ⟨.inr hx, ?_⟩
      rintro (hw | rfl)
      · exact hnot hw
      · exact hsfd hx
  · rw [hwaiting, List.nodup_append]
    refine ⟨h.nodup, List.nodup_singleton sfd, fun x hx y hy he => ?_⟩
    rw [List.mem_singleton.mp hy] at he
    exact hsfd (he ▸ h.is_open x hx)
  · rw [hwaiting]
    intro x hx
    rcases List.mem_append.mp hx with hx | hx
    · exact Finset.mem_insert_of_mem (h.is_open x hx)
    · exact List.mem_singleton.mp hx ▸ Finset.mem_insert_self ..

theorem Counted.dispatch_conn_new {item : Bool} (h : Counted s) (hsfd : sfd ∉ s.opened) :
    Counted ({ s with opened := insert sfd s.opened }.dispatch_conn_new sfd init_state transport item) := by
  cases item with
  | true => exact h.enqueue hsfd
  | false =>
      have hopened : (insert sfd s.opened).erase sfd = s.opened := Finset.erase_insert hsfd
      refine h.keep ?_ h.nodup ?_ rfl rfl (.refl _) fun _ _ hwatch => hwatch
      · exact congrArg (fun o : Finset Nat => o.filter fun x => x ∉ s.waiting) hopened
      · intro x hx
        change x ∈ (insert sfd s.opened).erase sfd
        rw [hopened]
        exact h.is_open x hx

theorem waiting_erase (hq : q ∈ s.queued) : s.waiting.Perm (waiting { s with queued := [q] } ++
    waiting { s with queued := s.queued.erase q }) := by
  have hperm := (List.perm_cons_erase hq).filterMap fun
    | Queued.new_conn sfd .. => some sfd
    | .redispatch _ => none
  rwa [← List.singleton_append, List.filterMap_append] at hperm

theorem returning_erase (hq : q ∈ s.queued) : s.returning.Perm (returning { s with queued := [q] } ++
    returning { s with queued := s.queued.erase q }) := by
  have hperm := (List.perm_cons_erase hq).filterMap fun
    | Queued.new_conn .. => none
    | .redispatch c => some c
  rwa [← List.singleton_append, List.filterMap_append] at hperm

/-- A worker takes a new socket from its queue: it makes the connection, or closes the socket. -/
theorem Counted.process_new {w : Nat} (h : Counted s) (hq : .new_conn sfd init_state transport ∈ s.queued)
    (ht : { s with queued := s.queued.erase (.new_conn sfd init_state transport) }.process w r
      (.new_conn sfd init_state transport) = some t) : Counted t := by
  have hwaiting := waiting_erase hq
  have hreturning := returning_erase hq
  generalize hs₀ : { s with queued := s.queued.erase (.new_conn sfd init_state transport) } = s₀ at *
  change s.waiting.Perm ([sfd] ++ _) at hwaiting
  change s.returning.Perm ([] ++ _) at hreturning
  rw [List.singleton_append] at hwaiting
  rw [List.nil_append] at hreturning
  obtain ⟨hnot, hnodup⟩ := List.nodup_cons.mp (hwaiting.nodup_iff.mp h.nodup)
  have hmem (x) : x ∈ s.waiting ↔ x = sfd ∨ x ∈ s₀.waiting := by
    rw [hwaiting.mem_iff, List.mem_cons]
  have hsfd : sfd ∈ s.opened := h.is_open sfd ((hmem sfd).mpr (.inl rfl))
  have hlent₀ : s₀.lent = s.lent := by rw [← hs₀]
  obtain ⟨hopened₀, hcurr₀, hevents₀, hconn₀⟩ : s₀.opened = s.opened ∧ s₀.curr_conns = s.curr_conns ∧
      s₀.events = s.events ∧ s₀.conn = s.conn := by
    rw [← hs₀]
    exact ⟨rfl, rfl, rfl, rfl⟩
  have hnew : sfd ∉ s.connections := fun hc => (mem_connections.mp hc).2 ((hmem sfd).mpr (.inl rfl))
  rw [process] at ht
  cases hmade : s₀.conn_new sfd init_state transport r with
  | none =>
      rw [hmade] at ht
      cases ht
  | some made =>
      obtain ⟨t₀, b⟩ := made
      obtain ⟨hopened, hqueued, hlent, hconn, hcurr, hevents⟩ := conn_new_cases hmade
      rw [hmade] at ht
      have hwait : t₀.waiting = s₀.waiting := by rw [waiting, waiting, hqueued]
      have hret : t₀.returning = s₀.returning := by rw [returning, returning, hqueued]
      have hsides : (t₀.lent ++ t₀.returning).Perm (s.lent ++ s.returning) := by
        rw [hlent, hret, hlent₀]
        exact hreturning.symm.append_left _
      have hopen (x) (hx : x ∈ s₀.waiting) : x ∈ s.opened := h.is_open x ((hmem x).mpr (.inr hx))
      cases b with
      | true =>
          cases ht
          refine h.made hnew ?_ (hwait ▸ hnodup) ?_ (hcurr.trans (by rw [if_pos rfl, hcurr₀]))
            (hevents.trans (by rw [if_pos rfl, hevents₀])) hsides fun x hx => ?_
          · ext x
            rw [Finset.mem_insert, mem_connections, mem_connections]
            change x ∈ t₀.opened ∧ x ∉ t₀.waiting ↔ _
            rw [hopened, hopened₀, hwait, hmem]
            constructor
            · rintro ⟨hx, hout⟩
              by_cases he : x = sfd
              · exact .inl he
              · exact .inr ⟨hx, fun hin => hin.elim he hout⟩
            · rintro (rfl | ⟨hx, hout⟩)
              · exact ⟨hsfd, hnot⟩
              · exact ⟨hx, fun hin => hout (.inr hin)⟩
          · intro x hx
            change x ∈ t₀.opened
            rw [hopened, hopened₀]
            exact hopen x (hwait ▸ hx)
          · rw [← hconn₀, ← hconn x hx]
            exact congrArg Conn.state (update_of_ne hx ..)
      | false =>
          dsimp only at ht
          split at ht
          · cases ht
          cases ht
          refine h.keep ?_ (hwait ▸ hnodup) ?_ (hcurr.trans hcurr₀) (hevents.trans hevents₀) hsides
            fun x hx hwatch => ?_
          · ext x
            rw [mem_connections, mem_connections]
            change x ∈ t₀.opened.erase sfd ∧ x ∉ t₀.waiting ↔ _
            rw [hopened, hopened₀, hwait, hmem, Finset.mem_erase]
            constructor
            · rintro ⟨⟨hne, hx⟩, hout⟩
              exact ⟨hx, fun hin => hin.elim hne hout⟩
            · rintro ⟨hx, hout⟩
              exact ⟨⟨fun he => hout (.inl he), hx⟩, fun hin => hout (.inr hin)⟩
          · intro x hx
            rw [hwait.symm.trans rfl] at hnot
            change x ∈ t₀.opened.erase sfd
            rw [hopened, hopened₀]
            exact Finset.mem_erase.mpr ⟨fun he => hnot (he ▸ hx), hopen x (hwait ▸ hx)⟩
          · have hne : x ≠ sfd := fun he => hnew (he ▸ (h.side x hx).1)
            change (t₀.conn x).state = .conn_watch
            rw [hconn x hne, hconn₀]
            exact hwatch

theorem Counted.process_redispatch (h : Counted s) (hq : .redispatch c ∈ s.queued) :
    Counted ({ s with queued := s.queued.erase (.redispatch c) }.conn_worker_readd c) := by
  have hwaiting := waiting_erase hq
  have hreturning := returning_erase hq
  change s.waiting.Perm ([] ++ waiting ({ s with queued := s.queued.erase (.redispatch c) }.conn_worker_readd c))
    at hwaiting
  change s.returning.Perm ([c] ++ returning ({ s with queued := s.queued.erase (.redispatch c) }.conn_worker_readd c))
    at hreturning
  generalize ht : { s with queued := s.queued.erase (.redispatch c) }.conn_worker_readd c = t at *
  obtain ⟨hopened, hlent, hcurr, hevents, hconn⟩ : t.opened = s.opened ∧ t.lent = s.lent ∧
      t.curr_conns = s.curr_conns ∧ t.events = update s.events c true ∧ ∀ x ≠ c, t.conn x = s.conn x := by
    rw [← ht]
    exact ⟨rfl, rfl, rfl, rfl, fun x hx => update_of_ne hx ..⟩
  rw [List.nil_append] at hwaiting
  rw [List.singleton_append] at hreturning
  have hsides : (s.lent ++ s.returning).Perm (c :: (t.lent ++ t.returning)) := by
    rw [hlent]
    exact (hreturning.append_left _).trans List.perm_middle
  obtain ⟨hout, hapart⟩ := List.nodup_cons.mp (hsides.nodup_iff.mp h.apart)
  have hconnections : t.connections = s.connections := by
    ext x
    rw [mem_connections, mem_connections, hopened, hwaiting.mem_iff]
  obtain ⟨hc, -, -⟩ := h.side c (hsides.mem_iff.mpr List.mem_cons_self)
  refine ⟨by rw [hcurr, hconnections, h.count], hwaiting.nodup_iff.mp h.nodup, fun x hx => ?_, fun x hx => ?_, hapart,
    fun x hx => ?_⟩
  · rw [hopened]
    exact h.is_open x (hwaiting.mem_iff.mpr hx)
  · rw [hconnections]
    by_cases he : x = c
    · exact he ▸ hc
    · rw [hevents, update_of_ne he] at hx
      exact h.events x hx
  · have he : x ≠ c := fun he => hout (he ▸ hx)
    rw [hconnections, hevents, update_of_ne he, hconn x he]
    exact h.side x (hsides.mem_iff.mpr (List.mem_cons_of_mem c hx))

theorem Counted.lend (h : Counted s) (hc : s.events c = true) :
    Counted { s.set_state c .conn_watch with events := update s.events c false, lent := s.lent ++ [c] } := by
  have hout : c ∉ s.lent ++ s.returning := fun hin => nomatch hc.symm.trans (h.side c hin).2.1
  have hsides : (s.lent ++ [c] ++ s.returning).Perm (c :: (s.lent ++ s.returning)) := by
    rw [List.append_assoc]
    exact List.perm_middle
  refine ⟨h.count, h.nodup, h.is_open, fun x hx => ?_, ?_, fun x hx => ?_⟩
  · by_cases he : x = c
    · exact he ▸ h.events c hc
    · exact h.events x ((update_of_ne he ..).symm.trans hx)
  · exact hsides.nodup_iff.mpr (List.nodup_cons.mpr ⟨hout, h.apart⟩)
  · rcases List.mem_cons.mp (hsides.mem_iff.mp hx) with rfl | hx
    · exact ⟨h.events x hc, update_self .., by simp [set_state]⟩
    · have he : x ≠ c := fun he => hout (he ▸ hx)
      obtain ⟨hconn, hev, hwatch⟩ := h.side x hx
      exact ⟨hconn, (update_of_ne he ..).trans hev, (congrArg Conn.state (update_of_ne he ..)).trans hwatch⟩

theorem Counted.redispatch (h : Counted s) (hc : c ∈ s.lent) : Counted (s.redispatch_conn c true) := by
  have hwaiting : waiting (s.redispatch_conn c true) = s.waiting := by
    change (s.queued ++ [Queued.redispatch c]).filterMap _ = _
    rw [List.filterMap_append, List.filterMap_cons_none rfl, List.filterMap_nil, List.append_nil, waiting]
  have hreturning : returning (s.redispatch_conn c true) = s.returning ++ [c] := List.filterMap_append ..
  refine h.keep ?_ (hwaiting.symm ▸ h.nodup) (fun x hx => ?_) rfl rfl ?_ fun _ _ hwatch => hwatch
  · exact congrArg (fun l : List Nat => s.opened.filter fun x => x ∉ l) hwaiting
  · exact h.is_open x (hwaiting ▸ hx)
  · rw [hreturning]
    have hperm := (List.perm_cons_erase hc).symm.append_right s.returning
    change (s.lent.erase c ++ (s.returning ++ [c])).Perm _
    rw [← List.append_assoc]
    exact List.perm_append_comm.trans hperm

end

end Memcached.Network

import Memcached.Network.Lemmas.Delivery

/-!
# Connections are handed off once and in order

In every state that the threads reach in any order of their sections: a worker has handled a prefix of what was queued
for it, every byte it reads as a command is the first of a message, and no `CQ_ITEM` is at two places. Once every
queued item is announced, the worker's own wake-ups handle them all.
-/

namespace Memcached.Network

open Function (update)
open Linked (Walk)
open Ownership (Apart)
open Transition (Run)

variable {settings : Settings} {s s' : System} {F : List Nat} {Q : Nat → List Nat} {M : Nat → List Message} {w : Nat}

/-! ## A worker empties its queue -/

def Worker.rank : Worker → Nat
  | .waiting | .timing_out => 0
  | .freeing _ => 1
  | .handling _ => 2
  | .popping => 3

/-- What the worker has left to do: each byte stands for at most one item. -/
def work (s : System) (w : Nat) : Nat := 4 * (s.pipe w).length + (s.worker w).rank

theorem Delivering.wake_works (hs : Delivering settings s F Q M) (hw : ¬(s.worker w = .waiting ∧ s.pipe w = [])) :
    ∃ s', Step settings s (.wake w .ok) s' ∧ work s' w < work s w ∧ s'.queued = s.queued ∧
      s'.dispatcher = s.dispatcher := by
  cases hk : s.worker w with
  | waiting =>
      cases hp : s.pipe w with
      | nil => exact absurd ⟨hk, hp⟩ hw
      | cons b rest =>
          refine ⟨s.read_command w b rest, by simp [Step, System.step, System.wake, hk, hp], ?_⟩
          have hwork : work s w = 4 * rest.length + 4 := by simp [work, hk, hp, Worker.rank, Nat.mul_add]
          rw [hwork]
          simp only [System.read_command]
          split_ifs <;> simp [work, System.receive, System.set_worker, Worker.rank]
  | popping =>
      obtain ⟨item, l, -, hitem, -⟩ := hs.pop hk
      refine ⟨(s.cq_pop w).2.set_worker w (.handling item), ?_, ?_⟩
      · simp only [Step, System.step, System.wake, hk]
        rw [show s.cq_pop w = (some item, (s.cq_pop w).2) from Prod.ext hitem rfl]
      · cases hhead : (s.new_conn_queue w).head with
        | none => simp [System.cq_pop, hhead] at hitem
        | some x => simp [System.cq_pop, hhead, work, hk, System.set_worker, Worker.rank]
  | handling item =>
      obtain ⟨t, ht⟩ : ∃ t, s.handle w .ok (s.items item).handoff = some t := by
        cases (s.items item).handoff <;> exact ⟨_, rfl⟩
      obtain ⟨c, rfl⟩ := Delivering.handle_eq ht
      exact ⟨_, by simp [Step, System.step, System.wake, hk, ht]; rfl, by
        simp [work, hk, System.set_worker, Worker.rank]⟩
  | freeing item =>
      exact ⟨(s.cqi_free item).set_worker w .waiting, by simp [Step, System.step, System.wake, hk], by
        simp [work, hk, System.cqi_free, System.set_next, System.set_worker, Worker.rank]⟩
  | timing_out =>
      obtain ⟨fd, ms, -, hp⟩ := hs.timing_out_cases hk
      obtain ⟨c, hc⟩ := Delivering.conn_close_idle_eq settings
        (s := s.receive w (.timeout fd) (ms.flatMap Message.bytes)) (i := fd.toNat)
      refine ⟨_, Delivering.wake_timing_out hk hp, ?_⟩
      rw [hc]
      simp [work, hk, hp, System.receive, System.set_worker, Worker.rank, fd_bytes]
      omega

/-- Nothing is left on the queue of a worker that waits at an empty pipe, once all items are announced. -/
theorem Delivering.all_handled (hs : Delivering settings s F Q M) (hw : s.worker w = .waiting) (hp : s.pipe w = [])
    (hn : ∀ d < settings.dispatchers, s.dispatcher d ≠ .notifying w) : s.handled w = s.queued w := by
  have hm : M w = [] := by
    have hr := hs.wired.bytes w
    rw [hw, hp] at hr
    generalize M w = l at hr
    generalize hbs : [] = bs at hr
    cases hr with
    | between _ =>
        cases l with
        | nil => rfl
        | cons m ms => cases m <;> simp [Message.bytes] at hbs
  have hnone : notifying settings s w = ∅ := by
    ext d
    simpa using hn d
  have hcount := hs.signalled w
  rw [hm, hnone, hw] at hcount
  have hempty : Q w = [] := List.length_eq_zero_iff.mp hcount.symm
  have horder := hs.ordered.order w
  rw [hw, hempty] at horder
  simpa [Worker.unhandled] using horder.symm

/-- By its own wake-ups the worker handles everything that is queued and announced. -/
theorem Delivering.drains (hN : 2 ≤ settings.ITEMS_PER_ALLOC) (hs : Delivering settings s F Q M)
    (hn : ∀ d < settings.dispatchers, s.dispatcher d ≠ .notifying w) :
    ∃ n t, Run (Step settings) s (List.replicate n (.wake w .ok)) t ∧ t.handled w = s.queued w := by
  induction hμ : work s w using Nat.strong_induction_on generalizing s F Q M with
  | _ μ ih =>
      by_cases hw : s.worker w = .waiting ∧ s.pipe w = []
      · exact ⟨0, s, .nil s, hs.all_handled hw.1 hw.2 hn⟩
      · obtain ⟨s', hstep, hlt, hqueued, hdisp⟩ := hs.wake_works hw
        obtain ⟨F', Q', M', hs'⟩ := hs.step hN hstep
        obtain ⟨n, t, hrun, ht⟩ := ih (work s' w) (hμ ▸ hlt) hs' (hdisp ▸ hn) rfl
        exact ⟨n + 1, t, .cons hstep hrun, hqueued ▸ ht⟩

/-! ## What is handled -/

/-- In the step the worker runs `conn_new` or `conn_worker_readd` for what it was handed. -/
def Handles (w : Nat) (h : Handoff) (s : System) (e : Event) (s' : System) : Prop :=
  ∃ r t, e = .wake w r ∧ s'.conns = t.conns ∧
    match h with
    | .new_conn sfd init_state _ _ transport => s.conn_new w sfd init_state transport r = some t
    | .redispatch c => s.conn_worker_readd c = t

theorem dispatch_handled {d : Nat} (h : s.dispatch settings d = some s') : s'.handled = s.handled := by
  simp only [System.dispatch] at h
  split at h
  · cases h
  · cases h
  · obtain rfl := Option.some.inj h
    rfl
  · next handoff item _ =>
    cases handoff with
    | new_conn sfd init_state event_flags read_buffer_size transport =>
        obtain rfl := Option.some.inj h
        rfl
    | redispatch c =>
        simp only [System.fill, Option.bind_eq_bind, Option.bind_eq_some_iff, Option.some.injEq] at h
        obtain ⟨k, -, w, -, rfl⟩ := h
        rfl
  · next handoff w item _ =>
    obtain rfl := Option.some.inj h
    simp only [System.set_dispatcher, System.cq_push]
    split <;> rfl
  · obtain rfl := Option.some.inj h
    rfl

theorem malloc_handled {d : Nat} {r : Option Nat} (h : s.malloc settings d r = some s') : s'.handled = s.handled := by
  simp only [System.malloc] at h
  split at h
  · next handoff _ =>
    cases r with
    | none =>
        obtain rfl := Option.some.inj h
        cases handoff with
        | new_conn => rfl
        | redispatch c =>
            simp only [System.set_dispatcher, System.give_up]
            split <;> rfl
    | some item =>
        obtain ⟨-, h⟩ := Option.ite_none_right_eq_some.mp h
        obtain rfl := Option.some.inj h
        rfl
  · cases h

theorem start_handled (d : Nat) (h : Handoff) : (s.start d h).handled = s.handled := by
  cases hfree : s.cqi_freelist <;> simp [System.start, System.cqi_pop, System.set_dispatcher, hfree]

theorem conn_timeout_handled {i : Nat} (h : s.conn_timeout settings i = some s') : s'.handled = s.handled := by
  simp only [System.conn_timeout] at h
  split at h
  · obtain rfl := Option.some.inj h
    rfl
  split at h
  · obtain rfl := Option.some.inj h
    rfl
  split at h
  · obtain rfl := Option.some.inj h
    rfl
  split at h
  · simp only [Option.bind_eq_bind, Option.bind_eq_some_iff, Option.some.injEq] at h
    obtain ⟨w, -, rfl⟩ := h
    rfl
  · obtain rfl := Option.some.inj h
    rfl

/-- A wake-up of the worker `v` adds to what is handled where it runs `conn_new` or `conn_worker_readd`. -/
theorem wake_handled {v : Nat} {r : Made} (hstep : s.wake settings v r = some s') :
    s'.handled = s.handled ∨
      ∃ h, s'.handled = update s.handled v (s.handled v ++ [h]) ∧ Handles v h s (.wake v r) s' := by
  cases hv : s.worker v with
  | waiting =>
      simp only [System.wake, hv] at hstep
      split at hstep
      · cases hstep
      · obtain rfl := Option.some.inj hstep
        simp only [System.read_command]
        split_ifs <;> exact .inl rfl
  | popping =>
      simp only [System.wake, hv, System.cq_pop] at hstep
      cases hhead : (s.new_conn_queue v).head with
      | none =>
          simp only [hhead] at hstep
          obtain rfl := Option.some.inj hstep
          exact .inl rfl
      | some item =>
          simp only [hhead] at hstep
          obtain rfl := Option.some.inj hstep
          exact .inl rfl
  | handling item =>
      simp only [System.wake, hv, Option.bind_eq_bind, Option.bind_eq_some_iff, Option.some.injEq] at hstep
      obtain ⟨t, ht, rfl⟩ := hstep
      obtain ⟨c, hc⟩ := Delivering.handle_eq ht
      refine .inr ⟨_, by rw [hc]; rfl, r, t, rfl, rfl, ?_⟩
      cases hh : (s.items item).handoff with
      | new_conn sfd init_state event_flags read_buffer_size transport =>
          rw [hh] at ht
          exact ht
      | redispatch c =>
          rw [hh] at ht
          exact Option.some.inj ht
  | freeing item =>
      simp only [System.wake, hv, Option.some.injEq] at hstep
      subst hstep
      exact .inl rfl
  | timing_out =>
      simp only [System.wake, hv] at hstep
      split at hstep
      · obtain rfl := Option.some.inj hstep
        obtain ⟨c, hc⟩ := Delivering.conn_close_idle_eq settings
        rw [hc]
        exact .inl rfl
      · obtain rfl := Option.some.inj hstep
        exact .inl rfl

theorem step_handled {e : Event} (hstep : Step settings s e s') (w : Nat) :
    s'.handled w = s.handled w ∨ ∃ h, s'.handled w = s.handled w ++ [h] ∧ Handles w h s e s' := by
  simp only [Step] at hstep
  cases e with
  | dispatch_conn_new d sfd init_state event_flags read_buffer_size transport =>
      simp only [System.step, Option.ite_none_right_eq_some, Option.some.injEq] at hstep
      obtain ⟨-, rfl⟩ := hstep
      exact .inl (congrFun (start_handled ..) w)
  | redispatch_conn d c =>
      simp only [System.step, Option.ite_none_right_eq_some, Option.some.injEq] at hstep
      obtain ⟨-, rfl⟩ := hstep
      exact .inl (congrFun (start_handled ..) w)
  | malloc d r =>
      simp only [System.step, Option.ite_none_right_eq_some] at hstep
      exact .inl (congrFun (malloc_handled hstep.2) w)
  | dispatch d =>
      simp only [System.step, Option.ite_none_right_eq_some] at hstep
      exact .inl (congrFun (dispatch_handled hstep.2) w)
  | timeout i => exact .inl (congrFun (conn_timeout_handled hstep) w)
  | pause v =>
      obtain rfl := Option.some.inj hstep
      exact .inl rfl
  | wake v r =>
      rcases wake_handled hstep with hsame | ⟨h, hlog, hhandles⟩
      · exact .inl (congrFun hsame w)
      · rw [hlog]
        by_cases hw : w = v
        · subst hw
          exact .inr ⟨h, Function.update_self .., hhandles⟩
        · exact .inl (Function.update_of_ne hw ..)
  | drive i state last_cmd_time io_wraplist =>
      simp only [System.step] at hstep
      split at hstep
      · cases hstep
      · obtain rfl := Option.some.inj hstep
        exact .inl rfl
  | tick now =>
      obtain rfl := Option.some.inj hstep
      exact .inl rfl

theorem run_handled_prefix {es : List Event} (hrun : Run (Step settings) s es s') (w : Nat) :
    s.handled w <+: s'.handled w := by
  induction hrun with
  | nil s => exact List.prefix_refl _
  | cons hstep _ ih =>
      rcases step_handled hstep w with hsame | ⟨h, hlog, -⟩
      · rwa [hsame] at ih
      · rw [hlog] at ih
        exact (List.prefix_append ..).trans ih

/-- The entry `i` of what a worker has handled was made in a step of the run in which the worker ran `conn_new` or
`conn_worker_readd` for it, after it had done so for those before it. -/
theorem run_handles {es : List Event} {i : Nat} {h : Handoff} (hrun : Run (Step settings) s es s')
    (hlow : (s.handled w).length ≤ i) (hi : (s'.handled w)[i]? = some h) :
    ∃ es₁ e es₂ s₁ s₂, es = es₁ ++ e :: es₂ ∧ Run (Step settings) s es₁ s₁ ∧ Step settings s₁ e s₂ ∧
      Handles w h s₁ e s₂ ∧ (s₁.handled w).length = i ∧ Run (Step settings) s₂ es₂ s' := by
  induction hrun with
  | nil s =>
      rw [List.getElem?_eq_none hlow] at hi
      cases hi
  | @cons s s₁ s' e es hstep hrun ih =>
      have hlater (hlow : (s₁.handled w).length ≤ i) : ∃ es₁ e' es₂ s₂ s₃, e :: es = es₁ ++ e' :: es₂ ∧
          Run (Step settings) s es₁ s₂ ∧ Step settings s₂ e' s₃ ∧ Handles w h s₂ e' s₃ ∧ (s₂.handled w).length = i ∧
            Run (Step settings) s₃ es₂ s' := by
        obtain ⟨es₁, e', es₂, s₂, s₃, rfl, hrun₁, hrest⟩ := ih hlow hi
        exact ⟨e :: es₁, e', es₂, s₂, s₃, rfl, .cons hstep hrun₁, hrest⟩
      rcases step_handled hstep w with hsame | ⟨h', hlog, hhandles⟩
      · exact hlater (by rwa [hsame])
      rcases Nat.eq_or_lt_of_le hlow with rfl | hlt
      · -- this step made the entry, and the later ones leave it
        have hentry : (s₁.handled w)[(s.handled w).length]? = some h' := by simp [hlog]
        obtain ⟨rest, hrest⟩ := run_handled_prefix hrun w
        have hlen : (s.handled w).length < (s₁.handled w).length := by simp [hlog]
        rw [← hrest, List.getElem?_append_left hlen, hentry] at hi
        obtain rfl := Option.some.inj hi
        exact ⟨[], e, es, s, s₁, rfl, .nil s, hstep, hhandles, rfl, hrun⟩
      · exact hlater (by rw [hlog, List.length_append]; exact hlt)

/-! ## Hand-off -/

structure HandedOff (settings : Settings) (s : System) : Prop where
  in_order : ∀ w, s.handled w <+: s.queued w
  found : ∀ w, s.worker w = .popping → (s.cq_pop w).1 ≠ none
  all : ∀ w, (∀ d < settings.dispatchers, s.dispatcher d ≠ .notifying w) →
    ∃ n t, Run (Step settings) s (List.replicate n (.wake w .ok)) t ∧ t.handled w = s.queued w
  framed : ∀ w, ∃ ms, s.sent w = s.received w ++ ms ∧ Reads (s.worker w) ms (s.pipe w)
  apart : ∃ F Q, Walk s.next s.cqi_freelist F ∧ (∀ w, Walk s.next (s.new_conn_queue w).head (Q w)) ∧
    Apart (place settings s F Q)

theorem delivering_run {es : List Event} (hN : 2 ≤ settings.ITEMS_PER_ALLOC)
    (hrun : Run (Step settings) System.init es s) : ∃ F Q M, Delivering settings s F Q M :=
  hrun.invariant (P := fun s => ∃ F Q M, Delivering settings s F Q M)
    (fun ⟨_, _, _, hs⟩ hstep => hs.step hN hstep) ⟨_, _, _, delivering_init⟩

/-- `cqi_new` puts all but the first item of a block on the free list, so a block has two items or more. -/
theorem connections_handed_off {es : List Event} (hN : 2 ≤ settings.ITEMS_PER_ALLOC)
    (hrun : Run (Step settings) System.init es s) : HandedOff settings s := by
  obtain ⟨F, Q, M, hs⟩ := delivering_run hN hrun
  refine ⟨fun w => ?_, fun w hw => ?_, fun w hn => hs.drains hN hn, fun w => ?_, F, Q, hs.held.free, hs.held.head,
    hs.held.kept.apart⟩
  · rw [hs.ordered.order w]
    exact List.prefix_append ..
  · obtain ⟨item, -, -, hitem, -⟩ := hs.pop hw
    simp [hitem]
  · exact ⟨M w, hs.wired.log w, hs.wired.bytes w⟩

def small_settings : Settings := ⟨2, 2, 4, 60⟩

/-- A connection is accepted, times out while the worker takes it back from a side thread, and the threads are paused. -/
def small_run : List Event :=
  [.dispatch_conn_new 0 5 .conn_new_cmd 2 2048 .tcp_transport, .malloc 0 (some 8), .dispatch 0, .dispatch 0,
    .dispatch 0, .dispatch 0, .wake 0 .ok, .wake 0 .ok, .wake 0 .ok, .redispatch_conn 1 5, .wake 0 .ok, .dispatch 1,
    .tick 100, .timeout 5, .dispatch 1, .pause 0, .dispatch 1, .wake 0 .ok, .wake 0 .ok, .wake 0 .ok, .wake 0 .ok]

theorem connections_handed_off_witness :
    ∃ s, Run (Step small_settings) System.init small_run s ∧ HandedOff small_settings s := by
  have hsome : (small_run.foldlM (System.step small_settings) System.init).isSome := by decide
  obtain ⟨s, hs⟩ := Option.isSome_iff_exists.mp hsome
  exact ⟨s, .of_foldlM hs, connections_handed_off (by decide) (.of_foldlM hs)⟩

end Memcached.Network

import Mathlib.Data.Finset.Card
import Memcached.Network.Lemmas.Ownership

/-!
# What the queues and the pipes hold

The handoffs on the queue of a worker are those queued and not yet handled, in order. The pipe holds whole messages,
but for one that the worker has begun to read, and one `'c'` for each queued item whose writer is done.
-/

namespace Memcached.Network

open Function (update update_self update_of_ne)

variable {settings : Settings} {s s' : System} {F : List Nat} {Q : Nat → List Nat} {M : Nat → List Message}
  {d w item : Nat} {h : Handoff} {m : Message} {ms : List Message} {k : Dispatcher}

/-! ## The bytes of a pipe -/

/-- A worker in this state finds the messages `ms` in these bytes. -/
inductive Reads : Worker → List Message → List UInt8 → Prop
  | timing_out (fd : UInt32) (ms : List Message) :
      Reads .timing_out (.timeout fd :: ms) (fd_bytes fd ++ ms.flatMap Message.bytes)
  | between {k : Worker} (hk : k ≠ .timing_out) (ms : List Message) : Reads k ms (ms.flatMap Message.bytes)

theorem Reads.snoc {k : Worker} {bs : List UInt8} (hr : Reads k ms bs) : Reads k (ms ++ [m]) (bs ++ m.bytes) := by
  cases hr with
  | timing_out fd ms =>
      have hbytes : fd_bytes fd ++ ms.flatMap Message.bytes ++ m.bytes =
          fd_bytes fd ++ (ms ++ [m]).flatMap Message.bytes := by simp
      rw [hbytes]
      exact .timing_out fd (ms ++ [m])
  | between hk ms =>
      have hbytes : ms.flatMap Message.bytes ++ m.bytes = (ms ++ [m]).flatMap Message.bytes := by simp
      rw [hbytes]
      exact .between hk (ms ++ [m])

theorem Reads.of_between {k k' : Worker} {bs : List UInt8} (hr : Reads k ms bs) (hk : k ≠ .timing_out)
    (hk' : k' ≠ .timing_out) : Reads k' ms bs := by
  cases hr with
  | timing_out fd ms => exact absurd rfl hk
  | between _ ms => exact .between hk' ms

theorem read_fd (fd : UInt32) : UInt32.ofNat (fd.toUInt8.toNat + 2 ^ 8 * (fd >>> 8).toUInt8.toNat +
    2 ^ 16 * (fd >>> 16).toUInt8.toNat + 2 ^ 24 * (fd >>> 24).toUInt8.toNat) = fd := by
  have hlt := fd.toNat_lt
  have h0 : fd.toUInt8.toNat = fd.toNat % 256 := by simp
  have h1 : (fd >>> 8).toUInt8.toNat = fd.toNat / 2 ^ 8 % 256 := by simp [Nat.shiftRight_eq_div_pow]
  have h2 : (fd >>> 16).toUInt8.toNat = fd.toNat / 2 ^ 16 % 256 := by simp [Nat.shiftRight_eq_div_pow]
  have h3 : (fd >>> 24).toUInt8.toNat = fd.toNat / 2 ^ 24 % 256 := by simp [Nat.shiftRight_eq_div_pow]
  have hsum : fd.toNat % 256 + 2 ^ 8 * (fd.toNat / 2 ^ 8 % 256) + 2 ^ 16 * (fd.toNat / 2 ^ 16 % 256) +
      2 ^ 24 * (fd.toNat / 2 ^ 24 % 256) = fd.toNat := by omega
  rw [h0, h1, h2, h3, hsum, UInt32.ofNat_toNat]

/-! ## The invariant -/

def System.handoff (s : System) (p : Nat) : Handoff := (s.items p).handoff

/-- The item whose handoff the worker has still to handle. -/
def Worker.unhandled : Worker → List Nat
  | .handling item => [item]
  | .waiting | .popping | .freeing _ | .timing_out => []

/-- The threads that have pushed an item for `w` and have still to write to its pipe. -/
def notifying (settings : Settings) (s : System) (w : Nat) : Finset Nat :=
  {d ∈ Finset.range settings.dispatchers | s.dispatcher d = .notifying w}

@[simp] theorem mem_notifying :
    d ∈ notifying settings s w ↔ d < settings.dispatchers ∧ s.dispatcher d = .notifying w := by
  simp [notifying]

structure Ordered (s : System) (Q : Nat → List Nat) : Prop where
  pushing : ∀ d h w item, s.dispatcher d = .pushing h w item → s.handoff item = h
  order : ∀ w, s.queued w = s.handled w ++ ((s.worker w).unhandled ++ Q w).map s.handoff

structure Wired (s : System) (M : Nat → List Message) : Prop where
  log : ∀ w, s.sent w = s.received w ++ M w
  bytes : ∀ w, Reads (s.worker w) (M w) (s.pipe w)

/-- One `'c'` for each item on the queue. -/
def Signalled (settings : Settings) (s : System) (Q : Nat → List Nat) (M : Nat → List Message) : Prop :=
  ∀ w, (M w).count .conn + (notifying settings s w).card + (if s.worker w = .popping then 1 else 0) = (Q w).length

structure Delivering (settings : Settings) (s : System) (F : List Nat) (Q : Nat → List Nat)
    (M : Nat → List Message) : Prop where
  held : Held settings s F Q
  ordered : Ordered s Q
  wired : Wired s M
  signalled : Signalled settings s Q M

/-! ## Steps of a dispatching thread -/

@[simp] theorem handoff_set_next (p : Nat) (n : Option Nat) : (s.set_next p n).handoff = s.handoff := by
  funext q
  by_cases hq : q = p
  · subst hq
    simp [System.handoff, System.set_next, CQ_ITEM.handoff]
  · simp [System.handoff, System.set_next, hq]

theorem handoff_link_block : (s.link_block settings item).handoff = s.handoff := by
  funext p
  by_cases hp : item < p ∧ p + 1 < item + settings.ITEMS_PER_ALLOC
  · simp [System.handoff, System.link_block, CQ_ITEM.handoff, hp]
  · simp [System.handoff, System.link_block, hp]

theorem handoff_cq_push : (s.cq_push w item).handoff = s.handoff := by
  cases ht : (s.new_conn_queue w).tail with
  | none =>
      simp only [System.cq_push, System.set_next, ht]
      exact handoff_set_next item none
  | some t =>
      have hq : ((s.set_next item none).new_conn_queue w).tail = some t := ht
      simp only [System.cq_push, hq]
      show ((s.set_next item none).set_next t (some item)).handoff = _
      rw [handoff_set_next, handoff_set_next]

/-- Nothing is queued, announced, read or handled between `s` and `s'`. -/
structure Quiet (s s' : System) : Prop where
  handoff : s'.handoff = s.handoff
  worker : s'.worker = s.worker
  log : s'.queued = s.queued ∧ s'.handled = s.handled ∧ s'.sent = s.sent ∧ s'.received = s.received
  pipe : s'.pipe = s.pipe
  notifying : ∀ d w, s'.dispatcher d = .notifying w ↔ s.dispatcher d = .notifying w
  pushing : ∀ d h w item, s'.dispatcher d = .pushing h w item → s.dispatcher d = .pushing h w item

namespace Quiet

theorem trans {t : System} (h : Quiet s s') (h' : Quiet s' t) : Quiet s t where
  handoff := h'.handoff.trans h.handoff
  worker := h'.worker.trans h.worker
  log := ⟨h'.log.1.trans h.log.1, h'.log.2.1.trans h.log.2.1, h'.log.2.2.1.trans h.log.2.2.1,
    h'.log.2.2.2.trans h.log.2.2.2⟩
  pipe := h'.pipe.trans h.pipe
  notifying d w := (h'.notifying d w).trans (h.notifying d w)
  pushing d h₀ w item hd := h.pushing d h₀ w item (h'.pushing d h₀ w item hd)

theorem set_dispatcher (hd : ∀ v, s.dispatcher d ≠ .notifying v) (hk : ∀ v, k ≠ .notifying v)
    (hp : ∀ h w item, k ≠ .pushing h w item) : Quiet s (s.set_dispatcher d k) := by
  refine ⟨rfl, rfl, ⟨rfl, rfl, rfl, rfl⟩, rfl, fun e v => ?_, fun e h₀ v item he => ?_⟩
  · by_cases hed : e = d
    · subst hed
      simp [System.set_dispatcher, hd, hk]
    · simp [System.set_dispatcher, hed]
  · by_cases hed : e = d
    · subst hed
      exact absurd (by simpa [System.set_dispatcher] using he) (hp h₀ v item)
    · simpa [System.set_dispatcher, hed] using he

theorem ordered (h : Quiet s s') (ho : Ordered s Q) : Ordered s' Q := by
  refine ⟨fun d h₀ w item hd => ?_, fun w => ?_⟩
  · rw [h.handoff]
    exact ho.pushing d h₀ w item (h.pushing d h₀ w item hd)
  · rw [h.log.1, h.log.2.1, h.worker, h.handoff]
    exact ho.order w

theorem wired (h : Quiet s s') (hw : Wired s M) : Wired s' M := by
  refine ⟨fun w => ?_, fun w => ?_⟩
  · rw [h.log.2.2.1, h.log.2.2.2]
    exact hw.log w
  · rw [h.worker, h.pipe]
    exact hw.bytes w

theorem signalled (h : Quiet s s') (hs : Signalled settings s Q M) : Signalled settings s' Q M := by
  intro w
  have hn : Network.notifying settings s' w = Network.notifying settings s w := by
    ext d
    simp [h.notifying]
  rw [hn, h.worker]
  exact hs w

end Quiet

theorem Delivering.of_quiet (hs : Delivering settings s F Q M) (h : Quiet s s') {F' : List Nat}
    (hheld : Held settings s' F' Q) : Delivering settings s' F' Q M :=
  ⟨hheld, h.ordered hs.ordered, h.wired hs.wired, h.signalled hs.signalled⟩

theorem notifying_cq_push (hd : s.dispatcher d = .pushing h w item) (hlt : d < settings.dispatchers) (v : Nat) :
    (notifying settings ((s.cq_push w item).set_dispatcher d (.notifying w)) v).card =
      (notifying settings s v).card + if v = w then 1 else 0 := by
  have hmem (e : Nat) : e ∈ notifying settings ((s.cq_push w item).set_dispatcher d (.notifying w)) v ↔
      e ∈ notifying settings s v ∨ (v = w ∧ e = d) := by
    obtain ⟨hdisp, -⟩ := Held.cq_push_rest s w item
    by_cases he : e = d
    · subst he
      simp [System.set_dispatcher, hd, hlt, eq_comm]
    · simp [System.set_dispatcher, hdisp, he]
  by_cases hv : v = w
  · subst hv
    have hnew : d ∉ notifying settings s v := by simp [hd]
    rw [if_pos rfl, ← Finset.card_insert_of_notMem hnew]
    congr 1
    ext e
    rw [hmem, Finset.mem_insert]
    tauto
  · rw [if_neg hv, Nat.add_zero]
    congr 1
    ext e
    rw [hmem]
    tauto

theorem notifying_write (hd : s.dispatcher d = .notifying w) (hlt : d < settings.dispatchers) (v : Nat) :
    (notifying settings ((s.write w m).set_dispatcher d .idle) v).card + (if v = w then 1 else 0) =
      (notifying settings s v).card := by
  have hmem (e : Nat) : e ∈ notifying settings ((s.write w m).set_dispatcher d .idle) v ↔
      e ∈ notifying settings s v ∧ e ≠ d := by
    by_cases he : e = d
    · subst he
      simp [System.set_dispatcher]
    · simp [System.set_dispatcher, System.write, he]
  by_cases hv : v = w
  · subst hv
    have hold : d ∈ notifying settings s v := by simp [hd, hlt]
    rw [if_pos rfl, ← Finset.card_erase_add_one hold]
    congr 2
    ext e
    rw [hmem, Finset.mem_erase, and_comm]
  · rw [if_neg hv, Nat.add_zero]
    congr 1
    ext e
    rw [hmem]
    refine and_iff_left_of_imp fun he hed => hv ?_
    rw [hed, mem_notifying, hd] at he
    exact (Dispatcher.notifying.inj he.2).symm

theorem Wired.write (hw : Wired s M) : Wired (s.write w m) (update M w (M w ++ [m])) := by
  refine ⟨fun v => ?_, fun v => ?_⟩
  · show update s.sent w (s.sent w ++ [m]) v = s.received v ++ _
    by_cases hv : v = w
    · subst hv
      rw [update_self, update_self, hw.log v, List.append_assoc]
    · rw [update_of_ne hv, update_of_ne hv, hw.log v]
  · show Reads (s.worker v) _ (update s.pipe w (s.pipe w ++ m.bytes) v)
    by_cases hv : v = w
    · subst hv
      rw [update_self, update_self]
      exact (hw.bytes v).snoc
    · rw [update_of_ne hv, update_of_ne hv]
      exact hw.bytes v

theorem count_snoc (v : Nat) : (update M w (M w ++ [m]) v).count .conn =
    (M v).count .conn + if v = w ∧ m = .conn then 1 else 0 := by
  by_cases hv : v = w
  · subst hv
    simp [List.count_singleton]
  · simp [hv]

theorem Signalled.notify (hs : Signalled settings s Q M) (hd : s.dispatcher d = .notifying w)
    (hlt : d < settings.dispatchers) :
    Signalled settings ((s.write w .conn).set_dispatcher d .idle) Q (update M w (M w ++ [.conn])) := by
  intro v
  have hcard := notifying_write (m := .conn) hd hlt v
  have hv := hs v
  rw [count_snoc]
  show _ + _ + (if s.worker v = .popping then 1 else 0) = _
  simp only [and_true]
  omega

theorem Signalled.write (hs : Signalled settings s Q M) (hm : m ≠ .conn) :
    Signalled settings (s.write w m) Q (update M w (M w ++ [m])) := by
  intro v
  rw [count_snoc, if_neg fun h => hm h.2]
  exact hs v

theorem Signalled.push (hs : Signalled settings s Q M) (hd : s.dispatcher d = .pushing h w item)
    (hlt : d < settings.dispatchers) :
    Signalled settings ((s.cq_push w item).set_dispatcher d (.notifying w)) (update Q w (Q w ++ [item])) M := by
  intro v
  obtain ⟨-, hwork, -⟩ := Held.cq_push_rest s w item
  have hv := hs v
  rw [notifying_cq_push hd hlt]
  show _ + _ + (if (s.cq_push w item).worker v = .popping then 1 else 0) = _
  rw [hwork]
  by_cases hvw : v = w
  · subst hvw
    simp only [if_true, update_self, List.length_append, List.length_singleton]
    omega
  · rw [if_neg hvw, update_of_ne hvw]
    exact hv

/-! ## Sections of a dispatching thread -/

namespace Delivering

theorem start (hs : Delivering settings s F Q M) (hd : s.dispatcher d = .idle) :
    ∃ F', Delivering settings (s.start d h) F' Q M := by
  obtain ⟨F', hheld⟩ := hs.held.start (h := h) hd
  refine ⟨F', hs.of_quiet ?_ hheld⟩
  cases hf : s.cqi_freelist with
  | none =>
      have hstart : s.start d h = s.set_dispatcher d (.allocating h) := by simp [System.start, System.cqi_pop, hf]
      rw [hstart]
      exact .set_dispatcher (by simp [hd]) (by simp) (by simp)
  | some item =>
      have hstart : s.start d h =
          { s.set_dispatcher d (.holding h item) with cqi_freelist := s.next item } := by
        simp [System.start, System.cqi_pop, hf, System.next, System.set_dispatcher]
      have hq : Quiet s (s.set_dispatcher d (.holding h item)) :=
        .set_dispatcher (by simp [hd]) (by simp) (by simp)
      rw [hstart]
      exact ⟨hq.handoff, hq.worker, hq.log, hq.pipe, hq.notifying, hq.pushing⟩

theorem conns (hs : Delivering settings s F Q M) (c : Nat → Option Conn) :
    Delivering settings { s with conns := c } F Q M :=
  ⟨⟨hs.held.kept, hs.held.free, hs.held.head, hs.held.tail, hs.held.block⟩, ⟨hs.ordered.pushing, hs.ordered.order⟩,
    ⟨hs.wired.log, hs.wired.bytes⟩, hs.signalled⟩

theorem give_up_eq : ∃ c, s.give_up h = { s with conns := c } := by
  cases h with
  | new_conn _ _ _ _ _ => exact ⟨s.conns, rfl⟩
  | redispatch c =>
      cases hc : s.conns c with
      | none => exact ⟨s.conns, by simp [System.give_up, hc]⟩
      | some k => exact ⟨update s.conns c (some { k with state := .conn_closed }), by simp [System.give_up, hc]⟩

theorem conn_close_idle_eq (settings : Settings) {i : Nat} : ∃ c, s.conn_close_idle settings i = { s with conns := c } := by
  cases hc : s.conns i with
  | none => exact ⟨s.conns, by simp [System.conn_close_idle, hc]⟩
  | some k =>
      simp only [System.conn_close_idle, hc]
      split
      · split
        · exact ⟨s.conns, rfl⟩
        · exact ⟨_, rfl⟩
      · exact ⟨s.conns, rfl⟩

theorem malloc (hs : Delivering settings s F Q M) {r : Option Nat} (hstep : s.malloc settings d r = some s') :
    Delivering settings s' F Q M := by
  cases hd : s.dispatcher d with
  | allocating h =>
      cases r with
      | none =>
          simp only [System.malloc, hd, Option.some.injEq] at hstep
          subst hstep
          obtain ⟨c, hc⟩ := give_up_eq (s := s) (h := h)
          rw [hc]
          have hs' := hs.conns c
          refine hs'.of_quiet (.set_dispatcher (by simp [hd]) (by simp) (by simp)) ?_
          exact hs'.held.set_dispatcher (by simp [hd, Dispatcher.items]) (by simp)
      | some item =>
          simp only [System.malloc, hd] at hstep
          split at hstep
          · rename_i hr
            obtain rfl := Option.some.inj hstep
            have hq : Quiet s (s.set_dispatcher d (.linking h item)) :=
              .set_dispatcher (by simp [hd]) (by simp) (by simp)
            have hq' : Quiet s ((s.link_block settings item).set_dispatcher d (.linking h item)) :=
              ⟨handoff_link_block, hq.worker, hq.log, hq.pipe, hq.notifying, hq.pushing⟩
            exact hs.of_quiet hq' (hs.held.link_block hd hr)
          · cases hstep
  | idle | linking _ _ | holding _ _ | pushing _ _ _ | notifying _ =>
      simp only [System.malloc, hd] at hstep
      cases hstep

theorem refill (hs : Delivering settings s F Q M) (hN : 2 ≤ settings.ITEMS_PER_ALLOC)
    (hd : s.dispatcher d = .linking h item) :
    ∃ F', Delivering settings ((s.cqi_refill settings item).set_dispatcher d (.holding h item)) F' Q M := by
  have hq : Quiet s (s.set_dispatcher d (.holding h item)) := .set_dispatcher (by simp [hd]) (by simp) (by simp)
  have hq' : Quiet s ((s.cqi_refill settings item).set_dispatcher d (.holding h item)) :=
    ⟨handoff_set_next .., hq.worker, hq.log, hq.pipe, hq.notifying, hq.pushing⟩
  exact ⟨_, hs.of_quiet hq' (hs.held.cqi_refill hN hd)⟩

theorem fill_with (hs : Delivering settings s F Q M) (hd : s.dispatcher d = .holding h item) {h' : Handoff} {v : Nat}
    {i : CQ_ITEM} {t : Int} (hnext : i.next = (s.items item).next) (hi : i.handoff = h') :
    Delivering settings ({ s with items := update s.items item i, last_thread := t }.set_dispatcher d
      (.pushing h' v item)) F Q M := by
  have hmine : item ∈ place settings s F Q (.dispatcher d) := by simp [place, hd, Dispatcher.items]
  have hkeep (p : Nat) (hp : p ≠ item) :
      System.handoff { s with items := update s.items item i, last_thread := t } p = s.handoff p := by
    simp [System.handoff, hp]
  have hne {j : Place} (hj : j ≠ .dispatcher d) {p : Nat} (hp : p ∈ place settings s F Q j) : p ≠ item :=
    fun he => hj (hs.held.kept.apart.place hp (he ▸ hmine))
  have hquiet : ∀ v, s.dispatcher d ≠ .notifying v := by simp [hd]
  refine ⟨hs.held.fill hd hnext, ⟨fun e h₀ w p he => ?_, fun w => ?_⟩, ⟨hs.wired.log, hs.wired.bytes⟩, fun w => ?_⟩
  · by_cases hed : e = d
    · subst hed
      have hk : Dispatcher.pushing h' v item = .pushing h₀ w p := by simpa [System.set_dispatcher] using he
      cases hk
      simpa [System.handoff, System.set_dispatcher] using hi
    · have he' : s.dispatcher e = .pushing h₀ w p := by simpa [System.set_dispatcher, hed] using he
      have hp : p ∈ place settings s F Q (.dispatcher e) := by simp [place, he', Dispatcher.items]
      exact (hkeep p (hne (by simpa using hed) hp)).trans (hs.ordered.pushing e h₀ w p he')
  · refine (hs.ordered.order w).trans (congrArg _ (List.map_congr_left fun p hp => ?_))
    rcases List.mem_append.mp hp with hp | hp
    · refine (hkeep p (hne (j := .worker w) (by simp) ?_)).symm
      cases hw : s.worker w with
      | handling x => simpa [place, hw, Worker.items, Worker.unhandled] using hp
      | waiting | popping | freeing _ | timing_out => simp [hw, Worker.unhandled] at hp
    · exact (hkeep p (hne (j := .queue w) (by simp) hp)).symm
  · have hn : notifying settings ({ s with items := update s.items item i, last_thread := t }.set_dispatcher d
        (.pushing h' v item)) w = notifying settings s w := by
      ext e
      by_cases hed : e = d
      · subst hed
        simp [System.set_dispatcher, hd]
      · simp [System.set_dispatcher, hed]
    rw [hn]
    exact hs.signalled w

theorem fill (hs : Delivering settings s F Q M) (hd : s.dispatcher d = .holding h item)
    (hstep : s.fill settings d item h = some s') : Delivering settings s' F Q M := by
  cases h with
  | new_conn sfd init_state event_flags read_buffer_size transport =>
      simp only [System.fill, Option.some.injEq] at hstep
      subst hstep
      exact hs.fill_with hd rfl rfl
  | redispatch c =>
      simp only [System.fill, Option.bind_eq_bind, Option.bind_eq_some_iff, Option.some.injEq] at hstep
      obtain ⟨k, -, v, -, rfl⟩ := hstep
      exact hs.fill_with (t := s.last_thread) hd rfl rfl

theorem push (hs : Delivering settings s F Q M) (hd : s.dispatcher d = .pushing h w item)
    (hlt : d < settings.dispatchers) :
    Delivering settings
      ({ s.cq_push w item with queued := update (s.cq_push w item).queued w ((s.cq_push w item).queued w ++ [h]) }.set_dispatcher
        d (.notifying w)) F (update Q w (Q w ++ [item])) M := by
  obtain ⟨hdisp, hwork, -, -⟩ := Held.cq_push_rest s w item
  obtain ⟨hqueued, hhandled, hsent, hreceived, hpipe⟩ := Held.cq_push_log s w item
  have hheld := hs.held.cq_push hd (k := .notifying w) rfl
  have hsig := hs.signalled.push hd hlt
  refine ⟨⟨hheld.kept, hheld.free, hheld.head, hheld.tail, hheld.block⟩, ⟨fun e h₀ v p he => ?_, fun v => ?_⟩, ⟨?_, ?_⟩,
    hsig⟩
  · show (s.cq_push w item).handoff p = h₀
    rw [handoff_cq_push]
    by_cases hed : e = d
    · subst hed
      simp [System.set_dispatcher] at he
    · exact hs.ordered.pushing e h₀ v p (by simpa [System.set_dispatcher, hdisp, hed] using he)
  · show update (s.cq_push w item).queued w ((s.cq_push w item).queued w ++ [h]) v =
      (s.cq_push w item).handled v ++ (((s.cq_push w item).worker v).unhandled ++ _).map (s.cq_push w item).handoff
    rw [hqueued, hhandled, hwork, handoff_cq_push]
    by_cases hv : v = w
    · subst hv
      rw [update_self, update_self, hs.ordered.order v]
      simp [hs.ordered.pushing d h v item hd]
    · rw [update_of_ne hv, update_of_ne hv]
      exact hs.ordered.order v
  · show ∀ v, (s.cq_push w item).sent v = (s.cq_push w item).received v ++ M v
    rw [hsent, hreceived]
    exact hs.wired.log
  · show ∀ v, Reads ((s.cq_push w item).worker v) (M v) ((s.cq_push w item).pipe v)
    rw [hwork, hpipe]
    exact hs.wired.bytes

theorem notify (hs : Delivering settings s F Q M) (hd : s.dispatcher d = .notifying w)
    (hlt : d < settings.dispatchers) :
    Delivering settings ((s.write w .conn).set_dispatcher d .idle) F Q (update M w (M w ++ [.conn])) := by
  have hheld : Held settings (s.set_dispatcher d .idle) F Q := hs.held.set_dispatcher (by simp [hd, Dispatcher.items]) (by simp)
  have hw := hs.wired.write (w := w) (m := .conn)
  refine ⟨⟨hheld.kept, hheld.free, hheld.head, hheld.tail, hheld.block⟩, ⟨fun e h₀ v p he => ?_, hs.ordered.order⟩,
    ⟨hw.log, hw.bytes⟩, hs.signalled.notify hd hlt⟩
  by_cases hed : e = d
  · subst hed
    simp [System.set_dispatcher] at he
  · exact hs.ordered.pushing e h₀ v p (by simpa [System.set_dispatcher, System.write, hed] using he)

theorem write (hs : Delivering settings s F Q M) (hm : m ≠ .conn) :
    Delivering settings (s.write w m) F Q (update M w (M w ++ [m])) :=
  ⟨⟨hs.held.kept, hs.held.free, hs.held.head, hs.held.tail, hs.held.block⟩, ⟨hs.ordered.pushing, hs.ordered.order⟩,
    hs.wired.write, hs.signalled.write hm⟩

theorem dispatch (hs : Delivering settings s F Q M) (hN : 2 ≤ settings.ITEMS_PER_ALLOC)
    (hlt : d < settings.dispatchers) (hstep : s.dispatch settings d = some s') :
    ∃ F' Q' M', Delivering settings s' F' Q' M' := by
  cases hd : s.dispatcher d with
  | idle | allocating _ =>
      simp only [System.dispatch, hd] at hstep
      cases hstep
  | linking h item =>
      simp only [System.dispatch, hd, Option.some.injEq] at hstep
      subst hstep
      obtain ⟨F', hs'⟩ := hs.refill hN hd
      exact ⟨F', Q, M, hs'⟩
  | holding h item =>
      simp only [System.dispatch, hd] at hstep
      exact ⟨F, Q, M, hs.fill hd hstep⟩
  | pushing h w item =>
      simp only [System.dispatch, hd, Option.some.injEq] at hstep
      subst hstep
      exact ⟨F, _, M, hs.push hd hlt⟩
  | notifying w =>
      simp only [System.dispatch, hd, Option.some.injEq] at hstep
      subst hstep
      exact ⟨F, Q, _, hs.notify hd hlt⟩

/-! ## Sections of a worker -/

theorem read_cases {b : UInt8} {rest : List UInt8} (hs : Delivering settings s F Q M) (hk : s.worker w = .waiting)
    (hp : s.pipe w = b :: rest) :
    ∃ m ms, M w = m :: ms ∧ b :: rest = m.bytes ++ ms.flatMap Message.bytes := by
  have hr := hs.wired.bytes w
  rw [hk, hp] at hr
  generalize hm : M w = l at hr
  generalize hbs : b :: rest = bs at hr
  cases hr with
  | between _ ms =>
      cases l with
      | nil => cases hbs
      | cons m ms => exact ⟨m, ms, rfl, by rw [List.flatMap_cons]⟩

/-- A section of `w` changes what belongs to `w`. -/
structure Advance (s s' : System) (w : Nat) (k : Worker) (handled : List Handoff) (received : List Message)
    (bs : List UInt8) : Prop where
  handoff : s'.handoff = s.handoff
  rest : s'.dispatcher = s.dispatcher ∧ s'.queued = s.queued ∧ s'.sent = s.sent
  worker : s'.worker = update s.worker w k
  handled : s'.handled = update s.handled w handled
  received : s'.received = update s.received w received
  pipe : s'.pipe = update s.pipe w bs

theorem advance {k : Worker} {handled : List Handoff} {received : List Message} {bs : List UInt8} {l F' : List Nat}
    (hs : Delivering settings s F Q M) (ha : Advance s s' w k handled received bs)
    (hheld : Held settings s' F' (update Q w l))
    (horder : s.queued w = handled ++ (k.unhandled ++ l).map s.handoff) (hlog : s.sent w = received ++ ms)
    (hreads : Reads k ms bs)
    (hcount : ms.count .conn + (notifying settings s w).card + (if k = .popping then 1 else 0) = l.length) :
    Delivering settings s' F' (update Q w l) (update M w ms) := by
  obtain ⟨hdisp, hqueued, hsent⟩ := ha.rest
  refine ⟨hheld, ⟨fun d h₀ v p hd => ?_, fun v => ?_⟩, ⟨fun v => ?_, fun v => ?_⟩, fun v => ?_⟩
  · rw [ha.handoff]
    exact hs.ordered.pushing d h₀ v p (hdisp ▸ hd)
  · rw [hqueued, ha.handled, ha.worker, ha.handoff]
    by_cases hv : v = w
    · subst hv
      simpa using horder
    · simpa [hv] using hs.ordered.order v
  · rw [hsent, ha.received]
    by_cases hv : v = w
    · subst hv
      simpa using hlog
    · simpa [hv] using hs.wired.log v
  · rw [ha.worker, ha.pipe]
    by_cases hv : v = w
    · subst hv
      simpa using hreads
    · simpa [hv] using hs.wired.bytes v
  · have hn : notifying settings s' v = notifying settings s v := by
      ext d
      simp [hdisp]
    rw [hn, ha.worker]
    by_cases hv : v = w
    · subst hv
      simpa using hcount
    · simpa [hv] using hs.signalled v

theorem receive {k : Worker} {rest : List UInt8} (hs : Delivering settings s F Q M)
    (hw : s.worker w = .waiting ∨ s.worker w = .timing_out) (hM : M w = m :: ms) (hr : Reads k ms rest)
    (hk : k.items = [] ∧ k.unhandled = []) (hpop : (if k = .popping then 1 else 0) = if m = .conn then 1 else 0) :
    Delivering settings ((s.receive w m rest).set_worker w k) F Q (update M w ms) := by
  have hnone : (s.worker w).items = [] ∧ (s.worker w).unhandled = [] ∧ s.worker w ≠ .popping := by
    rcases hw with hw | hw <;> simp [hw, Worker.items, Worker.unhandled]
  have hheld := hs.held.set_worker (w := w) (k := k) (hk.1.trans hnone.1.symm)
  have ha : Advance s ((s.receive w m rest).set_worker w k) w k (s.handled w) (s.received w ++ [m]) rest :=
    ⟨rfl, ⟨rfl, rfl, rfl⟩, rfl, (Function.update_eq_self w _).symm, rfl, rfl⟩
  have hcount := hs.signalled w
  rw [hM, List.count_cons, if_neg hnone.2.2] at hcount
  rw [← Function.update_eq_self w Q] at hheld ⊢
  refine hs.advance ha ⟨hheld.kept, hheld.free, hheld.head, hheld.tail, hheld.block⟩ ?_ ?_ hr ?_
  · rw [hk.2, hs.ordered.order w, hnone.2.1]
  · rw [hs.wired.log w, hM]
    simp
  · rw [hpop, ← hcount]
    by_cases hm : m = .conn
    · simp [hm]
      omega
    · simp [hm]

theorem begin_timeout {fd : UInt32} (hs : Delivering settings s F Q M) (hw : s.worker w = .waiting)
    (hM : M w = .timeout fd :: ms) :
    Delivering settings
      ({ s with pipe := update s.pipe w (fd_bytes fd ++ ms.flatMap Message.bytes) }.set_worker w .timing_out) F Q M := by
  have hheld := hs.held.set_worker (w := w) (k := .timing_out) (by rw [hw]; rfl)
  have hcount := hs.signalled w
  have horder := hs.ordered.order w
  rw [hw] at hcount horder
  rw [← Function.update_eq_self w Q] at hheld ⊢
  rw [← Function.update_eq_self w M, hM]
  refine hs.advance ⟨rfl, ⟨rfl, rfl, rfl⟩, rfl, (Function.update_eq_self w _).symm,
    (Function.update_eq_self w _).symm, rfl⟩ ⟨hheld.kept, hheld.free, hheld.head, hheld.tail, hheld.block⟩ horder ?_
    (.timing_out fd ms) ?_
  · exact (hs.wired.log w).trans (congrArg (s.received w ++ ·) hM)
  · rw [← hM]
    exact hcount

theorem read_command {b : UInt8} {rest : List UInt8} (hs : Delivering settings s F Q M) (hw : s.worker w = .waiting)
    (hp : s.pipe w = b :: rest) : ∃ M', Delivering settings (s.read_command w b rest) F Q M' := by
  obtain ⟨m, ms, hM, hbytes⟩ := hs.read_cases hw hp
  have hrest (k : Worker) (hk : k ≠ .timing_out) : Reads k ms (ms.flatMap Message.bytes) := .between hk ms
  cases m with
  | conn =>
      obtain ⟨rfl, rfl⟩ := List.cons.inj hbytes
      exact ⟨_, hs.receive (k := .popping) (.inl hw) hM (hrest _ (by simp)) ⟨rfl, rfl⟩ rfl⟩
  | pause =>
      obtain ⟨rfl, rfl⟩ := List.cons.inj hbytes
      have hs' := hs.receive (k := .waiting) (.inl hw) hM (hrest _ (by simp)) ⟨rfl, rfl⟩ rfl
      exact ⟨_, ⟨hs'.held.kept, hs'.held.free, hs'.held.head, hs'.held.tail, hs'.held.block⟩,
        ⟨hs'.ordered.pushing, hs'.ordered.order⟩, ⟨hs'.wired.log, hs'.wired.bytes⟩, hs'.signalled⟩
  | timeout fd =>
      obtain ⟨rfl, rfl⟩ := List.cons.inj hbytes
      exact ⟨M, hs.begin_timeout hw hM⟩

theorem wake_timing_out {r : Made} {fd : UInt32} {rest : List UInt8} (hw : s.worker w = .timing_out)
    (hp : s.pipe w = fd_bytes fd ++ rest) : s.wake settings w r =
      some (((s.receive w (.timeout fd) rest).conn_close_idle settings fd.toNat).set_worker w .waiting) := by
  simp only [System.wake, hw, hp, fd_bytes, List.cons_append, List.nil_append, read_fd]

theorem timing_out_cases (hs : Delivering settings s F Q M) (hw : s.worker w = .timing_out) :
    ∃ fd ms, M w = .timeout fd :: ms ∧ s.pipe w = fd_bytes fd ++ ms.flatMap Message.bytes := by
  have hr := hs.wired.bytes w
  rw [hw] at hr
  generalize hm : M w = l at hr
  generalize hbs : s.pipe w = bs at hr
  cases hr with
  | between hk _ => exact absurd rfl hk
  | timing_out fd ms => exact ⟨fd, ms, rfl, rfl⟩

theorem timeout {r : Made} (hs : Delivering settings s F Q M) (hw : s.worker w = .timing_out)
    (hstep : s.wake settings w r = some s') : ∃ M', Delivering settings s' F Q M' := by
  obtain ⟨fd, ms, hm, hp⟩ := hs.timing_out_cases hw
  rw [wake_timing_out hw hp] at hstep
  obtain rfl := Option.some.inj hstep
  have hs' := hs.receive (k := .waiting) (.inr hw) hm (.between (by simp) ms) ⟨rfl, rfl⟩ rfl
  obtain ⟨c, hc⟩ := conn_close_idle_eq settings
    (s := s.receive w (.timeout fd) (ms.flatMap Message.bytes)) (i := fd.toNat)
  rw [hc]
  exact ⟨_, hs'.conns c⟩

theorem pop (hs : Delivering settings s F Q M) (hw : s.worker w = .popping) :
    ∃ item l, Q w = item :: l ∧ (s.cq_pop w).1 = some item ∧
      Delivering settings ((s.cq_pop w).2.set_worker w (.handling item)) F (update Q w l) M := by
  have hcount := hs.signalled w
  rw [hw, if_pos rfl] at hcount
  rcases hs.held.cq_pop hw with ⟨hempty, -⟩ | ⟨item, l, hq, hitem, hheld⟩
  · rw [hempty, List.length_nil] at hcount
    omega
  refine ⟨item, l, hq, hitem, ?_⟩
  obtain ⟨q, hpop⟩ : ∃ q, (s.cq_pop w).2 = { s with new_conn_queue := q } := by
    cases hhead : (s.new_conn_queue w).head with
    | none => simp [System.cq_pop, hhead] at hitem
    | some x =>
        simp only [System.cq_pop, hhead]
        exact ⟨_, rfl⟩
  rw [hpop] at hheld ⊢
  have horder := hs.ordered.order w
  rw [hw, hq] at horder
  rw [hq, List.length_cons] at hcount
  rw [← Function.update_eq_self w M]
  refine hs.advance ⟨rfl, ⟨rfl, rfl, rfl⟩, rfl, (Function.update_eq_self w _).symm,
    (Function.update_eq_self w _).symm, (Function.update_eq_self w _).symm⟩ hheld horder (hs.wired.log w)
    ((hs.wired.bytes w).of_between (by simp [hw]) (by simp)) ?_
  rw [if_neg (by simp)]
  omega

theorem handle_eq {r : Made} (hstep : s.handle w r h = some s') : ∃ c, s' = { s with conns := c } := by
  cases h with
  | redispatch i =>
      simp only [System.handle, Option.some.injEq] at hstep
      subst hstep
      cases hc : s.conns i with
      | none => exact ⟨s.conns, by simp [System.conn_worker_readd, hc]⟩
      | some k =>
          rw [System.conn_worker_readd, hc]
          exact ⟨_, rfl⟩
  | new_conn sfd init_state _ _ transport =>
      simp only [System.handle] at hstep
      cases r with
      | ok => exact ⟨_, (Option.some.inj hstep).symm⟩
      | no_conn =>
          simp only [System.conn_new] at hstep
          split at hstep
          · cases hstep
          · exact ⟨s.conns, (Option.some.inj hstep).symm⟩
      | no_buffers | event_add_failed =>
          simp only [System.conn_new] at hstep
          split at hstep
          · cases hstep
          · exact ⟨_, (Option.some.inj hstep).symm⟩

theorem handle (hs : Delivering settings s F Q M) (hw : s.worker w = .handling item) :
    Delivering settings
      ({ s with handled := update s.handled w (s.handled w ++ [s.handoff item]) }.set_worker w (.freeing item))
      F Q M := by
  have hheld := hs.held.set_worker (w := w) (k := .freeing item) (by rw [hw]; rfl)
  have horder := hs.ordered.order w
  have hcount := hs.signalled w
  rw [hw] at horder hcount
  rw [← Function.update_eq_self w Q] at hheld ⊢
  rw [← Function.update_eq_self w M]
  refine hs.advance ⟨rfl, ⟨rfl, rfl, rfl⟩, rfl, rfl, (Function.update_eq_self w _).symm,
    (Function.update_eq_self w _).symm⟩ ⟨hheld.kept, hheld.free, hheld.head, hheld.tail, hheld.block⟩ ?_ (hs.wired.log w)
    ((hs.wired.bytes w).of_between (by simp [hw]) (by simp)) hcount
  rw [horder]
  simp [Worker.unhandled]

theorem free (hs : Delivering settings s F Q M) (hw : s.worker w = .freeing item) :
    Delivering settings ((s.cqi_free item).set_worker w .waiting) (item :: F) Q M := by
  have hheld := hs.held.cqi_free hw
  have horder := hs.ordered.order w
  have hcount := hs.signalled w
  rw [hw] at horder hcount
  rw [← Function.update_eq_self w Q] at hheld ⊢
  rw [← Function.update_eq_self w M]
  exact hs.advance ⟨handoff_set_next .., ⟨rfl, rfl, rfl⟩, rfl, (Function.update_eq_self w _).symm,
    (Function.update_eq_self w _).symm, (Function.update_eq_self w _).symm⟩ hheld horder (hs.wired.log w)
    ((hs.wired.bytes w).of_between (by simp [hw]) (by simp)) hcount

theorem wake {r : Made} (hs : Delivering settings s F Q M) (hstep : s.wake settings w r = some s') :
    ∃ F' Q' M', Delivering settings s' F' Q' M' := by
  cases hw : s.worker w with
  | waiting =>
      simp only [System.wake, hw] at hstep
      split at hstep
      · cases hstep
      · rename_i b rest hp
        obtain rfl := Option.some.inj hstep
        obtain ⟨M', hs'⟩ := hs.read_command hw hp
        exact ⟨F, Q, M', hs'⟩
  | popping =>
      obtain ⟨item, l, -, hitem, hs'⟩ := hs.pop hw
      have hwake : s.wake settings w r = some ((s.cq_pop w).2.set_worker w (.handling item)) := by
        simp only [System.wake, hw]
        rw [show s.cq_pop w = (some item, (s.cq_pop w).2) from Prod.ext hitem rfl]
      obtain rfl := Option.some.inj (hwake.symm.trans hstep)
      exact ⟨F, _, M, hs'⟩
  | handling item =>
      simp only [System.wake, hw, Option.bind_eq_bind, Option.bind_eq_some_iff, Option.some.injEq] at hstep
      obtain ⟨t, ht, rfl⟩ := hstep
      obtain ⟨c, rfl⟩ := handle_eq ht
      exact ⟨F, Q, M, (hs.conns c).handle hw⟩
  | freeing item =>
      simp only [System.wake, hw, Option.some.injEq] at hstep
      subst hstep
      exact ⟨_, Q, M, hs.free hw⟩
  | timing_out =>
      obtain ⟨M', hs'⟩ := hs.timeout hw hstep
      exact ⟨F, Q, M', hs'⟩

theorem conn_timeout {i : Nat} (hs : Delivering settings s F Q M) (hstep : s.conn_timeout settings i = some s') :
    ∃ M', Delivering settings s' F Q M' := by
  cases hc : s.conns i with
  | none =>
      simp only [System.conn_timeout, hc, Option.some.injEq] at hstep
      exact ⟨M, hstep ▸ hs⟩
  | some c =>
      simp only [System.conn_timeout, hc] at hstep
      split at hstep
      · exact ⟨M, Option.some.inj hstep ▸ hs⟩
      split at hstep
      · exact ⟨M, Option.some.inj hstep ▸ hs⟩
      split at hstep
      · simp only [Option.bind_eq_bind, Option.bind_eq_some_iff, Option.some.injEq] at hstep
        obtain ⟨w, -, rfl⟩ := hstep
        exact ⟨_, hs.write (by simp)⟩
      · exact ⟨M, Option.some.inj hstep ▸ hs⟩

theorem step {e : Event} (hs : Delivering settings s F Q M) (hN : 2 ≤ settings.ITEMS_PER_ALLOC)
    (hstep : Step settings s e s') : ∃ F' Q' M', Delivering settings s' F' Q' M' := by
  simp only [Step] at hstep
  cases e with
  | dispatch_conn_new d sfd init_state event_flags read_buffer_size transport =>
      simp only [System.step, Option.ite_none_right_eq_some, Option.some.injEq] at hstep
      obtain ⟨⟨-, hd⟩, rfl⟩ := hstep
      obtain ⟨F', hs'⟩ := hs.start (h := .new_conn sfd init_state event_flags read_buffer_size transport) hd
      exact ⟨F', Q, M, hs'⟩
  | redispatch_conn d c =>
      simp only [System.step, Option.ite_none_right_eq_some, Option.some.injEq] at hstep
      obtain ⟨⟨-, hd⟩, rfl⟩ := hstep
      obtain ⟨F', hs'⟩ := hs.start (h := .redispatch c) hd
      exact ⟨F', Q, M, hs'⟩
  | malloc d r =>
      simp only [System.step, Option.ite_none_right_eq_some] at hstep
      exact ⟨F, Q, M, hs.malloc hstep.2⟩
  | dispatch d =>
      simp only [System.step, Option.ite_none_right_eq_some] at hstep
      exact hs.dispatch hN hstep.1 hstep.2
  | timeout i =>
      obtain ⟨M', hs'⟩ := hs.conn_timeout hstep
      exact ⟨F, Q, M', hs'⟩
  | pause w =>
      simp only [System.step, Option.some.injEq] at hstep
      subst hstep
      exact ⟨F, Q, _, hs.write (by simp)⟩
  | wake w r => exact hs.wake hstep
  | drive i state last_cmd_time io_wraplist =>
      simp only [System.step] at hstep
      split at hstep
      · cases hstep
      · obtain rfl := Option.some.inj hstep
        exact ⟨F, Q, M, hs.conns _⟩
  | tick now =>
      simp only [System.step, Option.some.injEq] at hstep
      subst hstep
      exact ⟨F, Q, M, ⟨hs.held.kept, hs.held.free, hs.held.head, hs.held.tail, hs.held.block⟩,
        ⟨hs.ordered.pushing, hs.ordered.order⟩, ⟨hs.wired.log, hs.wired.bytes⟩, hs.signalled⟩

end Delivering

theorem delivering_init : Delivering settings System.init [] (fun _ => []) fun _ => [] := by
  have hplace (i : Place) : place settings System.init [] (fun _ => []) i = [] := by cases i <;> rfl
  refine ⟨⟨⟨⟨fun i => ?_, fun {i j x} hi => ?_⟩, fun i p hp => ?_⟩, rfl, fun _ => rfl, fun _ => rfl, ?_⟩, ⟨?_, fun _ => rfl⟩,
    ⟨fun _ => rfl, fun _ => .between (by simp [System.init]) []⟩, fun w => ?_⟩
  · rw [hplace]
    exact List.nodup_nil
  · rw [hplace] at hi
    cases hi
  · rw [hplace] at hp
    cases hp
  · intro d h b hd
    cases hd
  · intro d h w item hd
    cases hd
  · have hnone : notifying settings System.init w = ∅ := by
      ext d
      simp [System.init]
    rw [hnone]
    rfl

end Memcached.Network

import Mathlib.Algebra.BigOperators.Group.Finset.Piecewise
import Memcached.Lib.BufferPool
import Memcached.Exstore.Lemmas.Flights
import Memcached.Exstore.Lemmas.Init
import Memcached.Exstore.PageTheorems

/-!
# Write buffers and ios are kept

The buffers are a pool: pages take them, and an io thread that has flushed one puts it back with the io it came with.
No buffer and no io is lost in any interleaving, so `_submit_wbuf` always finds an io on the stack.
-/

namespace Memcached.Exstore

open Function (update update_self update_of_ne)
open BufferPool (Pool)
open Ownership (gathered)
open Transition (Run)

variable {fh : List ConfFile} {cf : Conf} {s e e' : Engine} {ev : Event} {es : List Event} {L : Place → List Nat}
  {S p w x : Nat} {th : IoThread}

def Io.flush : Io → Option (Nat × Nat)
  | .read _ => none
  | .write p w _ _ => some (p, w)

/-- The flushes that the thread has not called back. -/
def IoThread.flushes (th : IoThread) : List (Nat × Nat) := th.ios.filterMap Io.flush

def Engine.pool (e : Engine) : Pool Nat Nat Nat where
  held p := (e.pages p).wbuf
  full w := (e.wbufs w).full
  stack := e.wbuf_stack
  tickets := e.io_stack
  queue x := (e.io_threads x).flushes

/-- What the pages and the io threads of `e` do to the pool. -/
def PoolStep (e e' : Engine) : Prop :=
  BufferPool.Step (Finset.range e.page_count) (Finset.range e.io_threadcount) e.pool e'.pool

theorem PoolStep.of_eq {P : Pool Nat Nat Nat}
    (h : BufferPool.Step (Finset.range e.page_count) (Finset.range e.io_threadcount) e.pool P) (heq : e'.pool = P) :
    PoolStep e e' := by
  unfold PoolStep
  rw [heq]
  exact h

/-! ## Threads -/

theorem flushes_tail {o : Obj} (h : th.batch.head? = some (.read o)) {phase : IoPhase} :
    IoThread.flushes ⟨th.queue, th.batch.tail, phase⟩ = th.flushes := by
  obtain ⟨rest, hbatch⟩ := List.head?_eq_some_iff.mp h
  simp [IoThread.flushes, IoThread.ios, hbatch, List.filterMap_cons, Io.flush]

theorem flushes_submit {io : Io} : IoThread.flushes ⟨th.queue ++ [io], th.batch, th.phase⟩ =
    th.flushes ++ io.flush.toList := by
  simp only [IoThread.flushes, IoThread.ios, ← List.append_assoc, List.filterMap_append]
  cases io <;> rfl

theorem flushes_pull (h : th.batch = []) (n : Nat) :
    IoThread.flushes ⟨th.queue.drop n, th.queue.take n, th.phase⟩ = th.flushes := by
  simp [IoThread.flushes, IoThread.ios, h]

theorem pool_eq (hwbuf : ∀ p, (e'.pages p).wbuf = (e.pages p).wbuf) (hfull : ∀ w, (e'.wbufs w).full = (e.wbufs w).full)
    (hstack : e'.wbuf_stack = e.wbuf_stack) (hio : e'.io_stack = e.io_stack)
    (hthreads : ∀ x, (e'.io_threads x).flushes = (e.io_threads x).flushes) : e'.pool = e.pool := by
  simp only [Engine.pool, hwbuf, hfull, hstack, hio, hthreads]

theorem set_thread_flushes (h : th.flushes = (e.io_threads x).flushes) (y : Nat) :
    ((e.set_thread x th).io_threads y).flushes = (e.io_threads y).flushes := by
  by_cases hy : y = x
  · subst hy
    simp only [Engine.set_thread, update_self]
    exact h
  · simp only [Engine.set_thread, update_of_ne hy]

theorem pool_set_thread (h : th.flushes = (e.io_threads x).flushes) : (e.set_thread x th).pool = e.pool :=
  pool_eq (fun _ => rfl) (fun _ => rfl) rfl rfl (set_thread_flushes h)

theorem pool_finish {o : Obj} {phase : IoPhase} (h : e.at_io x phase (.read o)) : (e.finish x).pool = e.pool :=
  pool_set_thread (flushes_tail h.2)

theorem pool_set_phase {phase : IoPhase} : (e.set_phase x phase).pool = e.pool := pool_set_thread rfl

theorem pool_set_page {pg : Page} (h : pg.wbuf = (e.pages p).wbuf) : (e.set_page p pg).pool = e.pool := by
  refine pool_eq (fun q => ?_) (fun _ => rfl) rfl rfl fun _ => rfl
  by_cases hq : q = p
  · subst hq
    simp only [Engine.set_page, update_self]
    exact h
  · simp only [Engine.set_page, update_of_ne hq]

/-! ## The actions that move a buffer -/

theorem submit_wbuf_pool (hw : (e.pages p).wbuf = some w) (hfull : (e.wbufs w).full = false) (hx : x < e.io_threadcount)
    (h : e.submit_wbuf p w x = some e') : PoolStep e (e'.set_wbuf w { e'.wbufs w with full := true }) := by
  unfold Engine.submit_wbuf at h
  split at h
  · cases h
  · rename_i hio
    obtain rfl := Option.some.inj h
    have hstep := BufferPool.Step.submit (s := Finset.range e.page_count) (P := e.pool) (Finset.mem_range.mpr hx) hw hfull
      (Nat.pos_of_ne_zero hio)
    refine .of_eq hstep ?_
    simp only [Engine.pool, Engine.set_wbuf, Engine.submit, Engine.set_thread, Pool.mk.injEq, true_and]
    refine ⟨funext fun v => ?_, funext fun y => ?_⟩
    · by_cases hv : v = w
      · subst hv
        simp
      · simp [hv]
    · by_cases hy : y = x
      · subst hy
        simp only [update_self]
        exact flushes_submit
      · simp only [update_of_ne hy]

theorem allocate_wbuf_pool (hb : Buffers S e) (ha : (e.pages p).active = true) (hw : (e.pages p).wbuf = none) :
    (e.allocate_wbuf p).pool = e.pool ∨ PoolStep e (e.allocate_wbuf p) := by
  unfold Engine.allocate_wbuf
  split
  · exact .inl rfl
  · rename_i w rest hstack
    right
    have hstep := BufferPool.Step.take (t := Finset.range e.io_threadcount) (P := e.pool)
      (Finset.mem_range.mpr (hb.range p ha)) hw hstack
    refine .of_eq hstep ?_
    simp only [Engine.pool, Engine.set_wbuf, Engine.set_page, Pool.mk.injEq, and_true]
    refine ⟨funext fun q => ?_, funext fun v => ?_⟩
    · by_cases hq : q = p
      · subst hq
        simp
      · simp [hq]
    · by_cases hv : v = w
      · subst hv
        simp
      · simp [hv]

theorem callback_pool {offset len : Nat} (hx : x < e.io_threadcount)
    (hat : e.at_io x .callback (.write p w offset len)) (h : e.wbuf_cb p w = some e') : PoolStep e (e'.finish x) := by
  unfold Engine.wbuf_cb at h
  dsimp only at h
  split at h
  · obtain rfl := Option.some.inj h
    obtain ⟨rest, hbatch⟩ := List.head?_eq_some_iff.mp hat.2
    have hqueue : e.pool.queue x = (p, w) :: (rest ++ (e.io_threads x).queue).filterMap Io.flush := by
      simp [Engine.pool, IoThread.flushes, IoThread.ios, hbatch, Io.flush]
    have hstep := BufferPool.Step.give_back (s := Finset.range e.page_count) (P := e.pool) (Finset.mem_range.mpr hx) hqueue
    refine .of_eq hstep ?_
    simp only [Engine.pool, Engine.set_wbuf, Engine.set_page, Engine.finish, Engine.set_thread, Pool.mk.injEq,
      true_and]
    refine ⟨funext fun q => ?_, funext fun v => ?_, funext fun y => ?_⟩
    · by_cases hq : q = p
      · subst hq
        simp
      · simp [hq]
    · by_cases hv : v = w
      · subst hv
        simp
      · simp [hv]
    · by_cases hy : y = x
      · subst hy
        simp [IoThread.flushes, IoThread.ios, hbatch]
      · simp [hy]
  · cases h

/-! ## Every action -/

theorem free_page_pool {m : Maint} : ({ e.free_page p with maint := m } : Engine).pool = e.pool := by
  have hf := free_page_freed (e := e) (p := p)
  have hsame : (e.free_page p).wbufs = e.wbufs ∧ (e.free_page p).wbuf_stack = e.wbuf_stack ∧
      (e.free_page p).io_stack = e.io_stack ∧ (e.free_page p).io_threads = e.io_threads := by
    rw [hf.rest]
    exact ⟨rfl, rfl, rfl, rfl⟩
  obtain ⟨hwbufs, hstack, hio, hthreads⟩ := hsame
  refine pool_eq (fun q => ?_) (fun w => congrArg (fun b => (b w).full) hwbufs) hstack hio
    fun x => congrArg (fun t => (t x).flushes) hthreads
  show ((e.free_page p).pages q).wbuf = (e.pages q).wbuf
  by_cases hq : q = p
  · subst hq
    rw [hf.page]
  · rw [hf.other q hq]

theorem extstore_write_pool {bytes : List UInt8} : (e.extstore_write p w bytes).pool = e.pool := by
  refine pool_eq (fun q => ?_) (fun v => ?_) rfl rfl fun _ => rfl
  · by_cases hq : q = p
    · subst hq
      simp [Engine.extstore_write, Engine.set_page, Engine.set_wbuf]
    · simp [Engine.extstore_write, Engine.set_page, Engine.set_wbuf, hq]
  · by_cases hv : v = w
    · subst hv
      simp [Engine.extstore_write, Engine.set_page, Engine.set_wbuf]
    · simp [Engine.extstore_write, Engine.set_page, Engine.set_wbuf, hv]

/-- An action leaves the pool as it is, or is a step of it. -/
theorem Act.pool (h : Act s ev e e') (hb : Buffers S e) : e'.pool = e.pool ∨ PoolStep e e' := by
  cases h with
  | writer hk => exact .inl rfl
  | @open_page e1 free_bucket p bucket hs hstats hbucket ht hfree =>
      left
      rw [take_free_rest ht]
      let pg : Page := { e.pages p with
        next := e.page_buckets bucket, active := true, free := false, closed := false, version := e.version
        bucket := bucket }
      have hpool : (e.set_page p pg).pool = e.pool := pool_set_page rfl
      exact hpool
  | lose_page ht hfree =>
      left
      rw [take_free_rest ht]
      rfl
  | submit_wbuf hw hfull hx he => exact .inr (submit_wbuf_pool hw hfull hx he)
  | allocate_wbuf hu ha hw hsize => exact allocate_wbuf_pool hb ha hw
  | write hev hstats hu ha hw hfull hlen => exact .inl extstore_write_pool
  | @read x o hx ho => exact .inl (pool_set_thread (flushes_submit.trans (List.append_nil _)))
  | pull hx hbatch => exact .inl (pool_set_thread (flushes_pull hbatch _))
  | miss hx hat hdead => exact .inl (pool_finish hat)
  | hit hx hat hlive ha hbytes => exact .inl (pool_finish hat)
  | start_pread hx hat hlive ha => exact .inl (pool_set_phase.trans (pool_set_page rfl))
  | pread hx hat => exact .inl pool_set_phase
  | @release x o hx hat =>
      let e1 := e.set_page o.page_id { e.pages o.page_id with refcount := (e.pages o.page_id).refcount - 1 }
      exact .inl ((pool_finish (e := e1) hat).trans (pool_set_page rfl))
  | pwrite hx hat => exact .inl pool_set_phase
  | callback hx hat he => exact .inr (callback_pool hx hat he)
  | @delete p page_version count bytes hev hs hp =>
      left
      unfold Engine.extstore_delete
      dsimp only
      split
      · exact pool_set_page rfl
      · rfl
  | close p => exact .inl (pool_set_page rfl)
  | free_page hm href hpage hlow => exact .inl free_page_pool
  | maint hpage hlow => exact .inl rfl

theorem Act.counts (h : Act s ev e e') : e'.page_count = e.page_count ∧ e'.io_threadcount = e.io_threadcount := by
  cases h with
  | open_page hs hstats hbucket ht hfree =>
      rw [take_free_rest ht]
      exact ⟨rfl, rfl⟩
  | lose_page ht hfree =>
      rw [take_free_rest ht]
      exact ⟨rfl, rfl⟩
  | submit_wbuf hw hfull hx he =>
      unfold Engine.submit_wbuf at he
      split at he
      · cases he
      · obtain rfl := Option.some.inj he
        exact ⟨rfl, rfl⟩
  | allocate_wbuf hu ha hw hsize =>
      unfold Engine.allocate_wbuf
      split <;> exact ⟨rfl, rfl⟩
  | callback hx hat he =>
      unfold Engine.wbuf_cb at he
      dsimp only at he
      split at he
      · obtain rfl := Option.some.inj he
        exact ⟨rfl, rfl⟩
      · cases he
  | delete hev hs hp =>
      unfold Engine.extstore_delete
      dsimp only
      split <;> exact ⟨rfl, rfl⟩
  | @free_page p m hm href hpage hlow =>
      show (e.free_page p).page_count = _ ∧ (e.free_page p).io_threadcount = _
      rw [(free_page_freed (e := e) (p := p)).rest]
      exact ⟨rfl, rfl⟩
  | writer | write | read | pull | miss | hit | start_pread | pread | release | pwrite | close | maint => exact ⟨rfl, rfl⟩

/-! ## Every run -/

/-- The pool of `n` buffers and as many ios. -/
def Pooled (n : Nat) (e : Engine) : Prop :=
  BufferPool.Ok (Finset.range e.page_count) (Finset.range e.io_threadcount) (List.range n : Multiset Nat) n e.pool

/-- What holds between any two actions. -/
structure Kept (S n : Nat) (e : Engine) : Prop where
  owned : ∃ L, Owned e L
  buffers : Buffers S e
  pooled : Pooled n e

variable {n : Nat}

theorem Pooled.act (h : Pooled n e) (hb : Buffers S e) (hact : Act s ev e e') : Pooled n e' := by
  unfold Pooled at h ⊢
  rw [hact.counts.1, hact.counts.2]
  rcases hact.pool hb with heq | hstep
  · rw [heq]
    exact h
  · exact h.step (Multiset.coe_nodup.mpr List.nodup_range) hstep

theorem Kept.act (h : Kept S n e) (hact : Act s ev e e') : Kept S n e' := by
  obtain ⟨L, ho⟩ := h.owned
  exact ⟨ho.act hact, h.buffers.act ho hact, h.pooled.act h.buffers hact⟩

theorem extstore_init_kept (h : extstore_init fh cf = some (.ok e)) :
    Kept cf.wbuf_size.toNat cf.wbuf_count.toNat e := by
  refine ⟨extstore_init_owned h, extstore_init_buffers h, ?_⟩
  obtain ⟨page_count, d, dev, -, hpage, hrest⟩ := extstore_init_pages h
  have hstart : BufferPool.Ok (Finset.range e.page_count) (Finset.range e.io_threadcount) (e.pool.stack : Multiset Nat)
      e.pool.tickets e.pool := by
    refine .start (fun p => ?_) fun x => ?_
    · show (e.pages p).wbuf = none
      rw [hpage p]
      rfl
    · show (e.io_threads x).flushes = []
      rw [hrest]
      rfl
  have hstack : e.pool.stack = (List.range cf.wbuf_count.toNat).reverse := by
    show e.wbuf_stack = _
    rw [hrest]
    rfl
  have hio : e.pool.tickets = cf.wbuf_count.toNat := by
    show e.io_stack = _
    rw [hrest]
    rfl
  rw [hstack, hio, Multiset.coe_reverse] at hstart
  exact hstart

/-! ## What is kept

The invariant, read back as numbers of the engine. -/

/-- How many pages have a buffer. -/
def Engine.attached (e : Engine) : Nat := ((Finset.range e.page_count).filter fun p => (e.pages p).wbuf.isSome).card

/-- How many flushes are submitted and not called back. -/
def Engine.in_flight (e : Engine) : Nat := ∑ x ∈ Finset.range e.io_threadcount, (e.io_threads x).flushes.length

/-- What is written of a page, what is given to buffers, and where its buffer is, with buffers of `S` bytes. -/
structure Page.Measured (page_size S : Nat) (wbufs : Nat → Wbuf) (pg : Page) : Prop where
  written_le : pg.written ≤ pg.allocated
  allocated_le : pg.allocated ≤ page_size
  written_aligned : S ∣ pg.written
  allocated_aligned : S ∣ pg.allocated
  buffered : ∀ w ∈ pg.wbuf, (wbufs w).size = S ∧ (wbufs w).offset = pg.written ∧
    pg.written + (wbufs w).size = pg.allocated
  fill : ∀ w ∈ pg.wbuf, (wbufs w).free ≤ (wbufs w).size ∧ (wbufs w).buf_pos = (wbufs w).size - (wbufs w).free

theorem card_attached : (gathered (Finset.range e.page_count) e.pool.attached).card = e.attached := by
  rw [Ownership.card_gathered, Engine.attached, Finset.card_filter]
  refine Finset.sum_congr rfl fun p _ => ?_
  show (e.pages p).wbuf.toList.length = _
  cases (e.pages p).wbuf <;> rfl

theorem card_in_flight : (gathered (Finset.range e.io_threadcount) e.pool.queued).card = e.in_flight := by
  rw [Ownership.card_gathered, Engine.in_flight]
  exact Finset.sum_congr rfl fun x _ => List.length_map _

theorem Pooled.wbufs (h : Pooled n e) : e.wbuf_stack.length + e.attached = n := by
  have hcard := congrArg Multiset.card h.buffers
  rw [Multiset.card_add, Multiset.coe_card, Multiset.coe_card, List.length_range, card_attached] at hcard
  exact hcard

theorem Pooled.ios (h : Pooled n e) : e.io_stack + e.in_flight = n := by
  have htickets := h.tickets
  rw [card_in_flight] at htickets
  exact htickets

theorem Pooled.io_left (h : Pooled n e) (hw : (e.pages p).wbuf = some w) (hfull : (e.wbufs w).full = false) :
    0 < e.io_stack := by
  refine BufferPool.Ok.ticket_left h ?_ hw hfull
  rw [Multiset.coe_card, List.length_range]

theorem Page.Ok.measured {page_size : Nat} {wbufs : Nat → Wbuf} {pg : Page} (h : pg.Ok page_size S wbufs)
    (hb : ∀ w, (wbufs w).Ok S) : pg.Measured page_size S wbufs := by
  have hle : pg.written ≤ pg.allocated ∧ S ∣ pg.written := by
    cases hw : pg.wbuf with
    | none =>
        rw [h.unbuffered hw]
        exact ⟨le_rfl, h.aligned⟩
    | some w =>
        obtain ⟨-, -, hallocated⟩ := h.buffered w hw
        refine ⟨by omega, ?_⟩
        have haligned := h.aligned
        rw [← hallocated] at haligned
        exact (Nat.dvd_add_left (Nat.dvd_refl S)).mp haligned
  refine ⟨hle.1, h.allocated_le, hle.2, h.aligned, fun w hw => ?_, fun w hw => ?_⟩
  · obtain ⟨-, hoffset, hallocated⟩ := h.buffered w hw
    rw [(hb w).size]
    exact ⟨rfl, hoffset, hallocated⟩
  · have hsize := (hb w).size
    have hfill := (hb w).fill
    omega

theorem Kept.callback {offset len : Nat} (h : Kept S n e) (hat : e.at_io x .callback (.write p w offset len)) :
    ∃ e', e.wbuf_cb p w = some e' := by
  have hmem : (p, w) ∈ e.pool.queue x := List.mem_filterMap.mpr ⟨_, hat.mem, rfl⟩
  have hw : (e.pages p).wbuf = some w := (h.pooled.queued x p w hmem).1
  have hwritten := ((h.buffers.page p).buffered w hw).2.1
  simp [Engine.wbuf_cb, hw, hwritten]

theorem run_kept (h : extstore_init fh cf = some (.ok e)) (hrun : Run Step e es e') :
    Kept cf.wbuf_size.toNat cf.wbuf_count.toNat e' :=
  hrun.invariant (fun hs hstep => step_rule hstep (fun hact hk => hk.act hact) hs) (extstore_init_kept h)

/-- Free and attached buffers are all buffers, idle and submitted ios all ios. A page whose buffer is to be submitted
finds an io on the stack, and the callback finds the page as its assertions say. -/
theorem buffers_and_ios_kept (h : extstore_init fh cf = some (.ok e)) (hrun : Run Step e es e') :
    e'.wbuf_stack.length + e'.attached = cf.wbuf_count.toNat ∧
    e'.io_stack + e'.in_flight = cf.wbuf_count.toNat ∧
    (∀ p w, (e'.pages p).wbuf = some w → (e'.wbufs w).full = false → 0 < e'.io_stack) ∧
    (∀ x p w offset len, e'.at_io x .callback (.write p w offset len) → ∃ e'', e'.wbuf_cb p w = some e'') ∧
    ∀ p, (e'.pages p).active = true → (e'.pages p).Measured e'.page_size cf.wbuf_size.toNat e'.wbufs := by
  have hkept := run_kept h hrun
  refine ⟨hkept.pooled.wbufs, hkept.pooled.ios, fun p w hw hfull => hkept.pooled.io_left hw hfull,
    fun x p w offset len hat => hkept.callback hat, fun p _ => ?_⟩
  exact (hkept.buffers.page p).measured hkept.buffers.wbuf

/-- A page has the only buffer, and the io is idle. -/
theorem buffers_and_ios_kept_witness : ∃ e es e', extstore_init two_pages small_conf = some (.ok e) ∧
    Run Step e es e' ∧ e'.wbuf_stack = [] ∧ (e'.pages 1).wbuf = some 0 ∧ e'.io_stack = 1 ∧
    e'.wbuf_stack.length + e'.attached = small_conf.wbuf_count.toNat ∧
    e'.io_stack + e'.in_flight = small_conf.wbuf_count.toNat ∧
    (∀ p w, (e'.pages p).wbuf = some w → (e'.wbufs w).full = false → 0 < e'.io_stack) ∧
    (∀ x p w offset len, e'.at_io x .callback (.write p w offset len) → ∃ e'', e'.wbuf_cb p w = some e'') ∧
    ∀ p, (e'.pages p).active = true →
      (e'.pages p).Measured e'.page_size small_conf.wbuf_size.toNat e'.wbufs := by
  let es : List Event := [.write_request 0 0 0 [7], .write 0 0]
  have hfields : (run (fun _ _ => true) two_pages small_conf es).map
      (fun e => (e.wbuf_stack, (e.pages 1).wbuf, e.io_stack)) = some ([], some 0, 1) := by decide
  obtain ⟨e', he', hfields⟩ := Option.map_eq_some_iff.mp hfields
  obtain ⟨hstack, hwbuf, hio⟩ : e'.wbuf_stack = [] ∧ (e'.pages 1).wbuf = some 0 ∧ e'.io_stack = 1 := by
    simpa using hfields
  obtain ⟨e, he, hrun⟩ := run_eq he'
  have hrun : Run Step e es e' := hrun.mono fun hstep => hstep.1
  exact ⟨e, es, e', he, hrun, hstack, hwbuf, hio, buffers_and_ios_kept he hrun⟩

end Memcached.Exstore

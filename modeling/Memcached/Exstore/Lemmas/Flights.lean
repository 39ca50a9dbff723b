import Memcached.Exstore.Lemmas.Buffers

/-!
# Flushes in flight

Every write in a queue or a batch is of a full buffer that still belongs to its page, and no buffer is in two of them.
So when its callback runs, the page is where the buffer begins, and what was written to the file is the buffer.
-/

namespace Memcached.Exstore

open Function (update update_self update_of_ne)
open Ownership (Apart)

variable {s e e' : Engine} {ev : Event} {L : Place → List Nat} {S p q w x y : Nat} {io : Io} {th : IoThread}

def IoThread.ios (th : IoThread) : List Io := th.batch ++ th.queue

def Io.wbuf : Io → Option Nat
  | .read _ => none
  | .write _ w _ _ => some w

def IoThread.flushing (th : IoThread) : List Nat := th.ios.filterMap Io.wbuf

/-- The first io of the batch is one that the phase is about. -/
def IoThread.phased (th : IoThread) : Prop :=
  match th.phase with
  | .next => True
  | .pread | .release => ∃ o, th.batch.head? = some (.read o)
  | .callback => ∃ p w offset len, th.batch.head? = some (.write p w offset len)

/-- The io is one the engine has submitted. -/
def Engine.submitted (e : Engine) : Io → Prop
  | .read o => o ∈ e.objects
  | .write p w offset len =>
      (e.pages p).wbuf = some w ∧ (e.wbufs w).full = true ∧ offset = (e.wbufs w).offset ∧ len = (e.wbufs w).size

/-- The file holds the buffer. -/
def Engine.flushed (e : Engine) (p w offset len : Nat) : Prop :=
  ∀ i < len, e.disk (e.pages p).fd ((e.pages p).offset + offset + i) = (e.wbufs w).buf i

structure Flights (e : Engine) : Prop where
  apart : Apart fun x => (e.io_threads x).flushing
  io : ∀ x, ∀ io ∈ (e.io_threads x).ios, e.submitted io
  phase : ∀ x, (e.io_threads x).phased
  flushed : ∀ x p w offset len, e.at_io x .callback (.write p w offset len) → e.flushed p w offset len

/-! ## Threads -/

theorem mem_flushing : w ∈ th.flushing ↔ ∃ p offset len, Io.write p w offset len ∈ th.ios := by
  simp only [IoThread.flushing, List.mem_filterMap]
  constructor
  · rintro ⟨io, hio, hw⟩
    cases io with
    | read o => cases hw
    | write p v offset len =>
        obtain rfl := Option.some.inj hw
        exact ⟨p, offset, len, hio⟩
  · rintro ⟨p, offset, len, hio⟩
    exact ⟨_, hio, rfl⟩

theorem Engine.at_io.mem {phase : IoPhase} (h : e.at_io x phase io) : io ∈ (e.io_threads x).ios :=
  List.mem_append_left _ (List.mem_of_head? h.2)

theorem Flights.full (h : Flights e) (hw : w ∈ (e.io_threads x).flushing) :
    (e.wbufs w).full = true ∧ ∃ p, (e.pages p).wbuf = some w := by
  obtain ⟨p, offset, len, hio⟩ := mem_flushing.mp hw
  obtain ⟨hp, hfull, -⟩ := h.io x _ hio
  exact ⟨hfull, p, hp⟩

theorem Flights.frame (h : Flights e) (hthreads : e'.io_threads = e.io_threads)
    (hio : ∀ x, ∀ io ∈ (e.io_threads x).ios, e.submitted io → e'.submitted io)
    (hdisk : ∀ x p w offset len, e.at_io x .callback (.write p w offset len) → e.flushed p w offset len →
      e'.flushed p w offset len) : Flights e' := by
  have hat {x : Nat} {phase : IoPhase} {io : Io} (ha : e'.at_io x phase io) : e.at_io x phase io := by
    unfold Engine.at_io at ha ⊢
    rwa [hthreads] at ha
  refine ⟨?_, fun x io hx => ?_, fun x => ?_, fun x p w offset len ha => ?_⟩
  · rw [hthreads]
    exact h.apart
  · rw [hthreads] at hx
    exact hio x io hx (h.io x io hx)
  · rw [hthreads]
    exact h.phase x
  · exact hdisk x p w offset len (hat ha) (h.flushed x p w offset len (hat ha))

theorem Flights.of_eq (h : Flights e) (hthreads : e'.io_threads = e.io_threads)
    (hpages : ∀ p, (e'.pages p).wbuf = (e.pages p).wbuf ∧ (e'.pages p).fd = (e.pages p).fd ∧
      (e'.pages p).offset = (e.pages p).offset) (hwbufs : e'.wbufs = e.wbufs) (hdisk : e'.disk = e.disk)
    (hobjects : e.objects ⊆ e'.objects) : Flights e' := by
  refine h.frame hthreads (fun x io _ hs => ?_) fun x p w offset len _ hf => ?_
  · cases io with
    | read o => exact hobjects hs
    | write p w offset len =>
        simp only [Engine.submitted, (hpages p).1, hwbufs]
        exact hs
  · simp only [Engine.flushed, hpages p, hwbufs, hdisk]
    exact hf

theorem Flights.set_thread (h : Flights e) (hsub : th.flushing.Sublist (e.io_threads x).flushing)
    (hios : ∀ io ∈ th.ios, e.submitted io) (hphase : th.phased)
    (hflushed : ∀ p w offset len, th.phase = .callback → th.batch.head? = some (.write p w offset len) →
      e.flushed p w offset len) : Flights (e.set_thread x th) := by
  refine ⟨⟨fun y => ?_, fun {y z v} hy hz => ?_⟩, fun y io hio => ?_, fun y => ?_, fun y p w offset len ha => ?_⟩
  · by_cases hy : y = x
    · subst hy
      simp only [Engine.set_thread, update_self]
      exact hsub.nodup (h.apart.nodup y)
    · simp only [Engine.set_thread, update_of_ne hy]
      exact h.apart.nodup y
  · have hmem {y : Nat} (hy : v ∈ ((e.set_thread x th).io_threads y).flushing) : v ∈ (e.io_threads y).flushing := by
      by_cases hyx : y = x
      · subst hyx
        simp only [Engine.set_thread, update_self] at hy
        exact hsub.subset hy
      · simp only [Engine.set_thread, update_of_ne hyx] at hy
        exact hy
    exact h.apart.place (hmem hy) (hmem hz)
  · by_cases hy : y = x
    · subst hy
      simp only [Engine.set_thread, update_self] at hio
      exact hios io hio
    · simp only [Engine.set_thread, update_of_ne hy] at hio
      exact h.io y io hio
  · by_cases hy : y = x
    · subst hy
      simp only [Engine.set_thread, update_self]
      exact hphase
    · simp only [Engine.set_thread, update_of_ne hy]
      exact h.phase y
  · unfold Engine.at_io at ha
    by_cases hy : y = x
    · subst hy
      simp only [Engine.set_thread, update_self] at ha
      exact hflushed p w offset len ha.1 ha.2
    · simp only [Engine.set_thread, update_of_ne hy] at ha
      exact h.flushed y p w offset len ha

theorem Flights.finish (h : Flights e) : Flights (e.finish x) := by
  have hsub : ((e.io_threads x).batch.tail ++ (e.io_threads x).queue).Sublist (e.io_threads x).ios :=
    (List.tail_sublist _).append_right _
  refine h.set_thread (hsub.filterMap _) (fun io hio => h.io x io (hsub.subset hio)) trivial ?_
  intro p w offset len hp
  cases hp

theorem Flights.set_phase (h : Flights e) {phase : IoPhase}
    (hphase : ({ e.io_threads x with phase := phase } : IoThread).phased)
    (hflushed : ∀ p w offset len, phase = .callback → (e.io_threads x).batch.head? = some (.write p w offset len) →
      e.flushed p w offset len) : Flights (e.set_phase x phase) :=
  h.set_thread (.refl _) (h.io x) hphase hflushed

theorem Flights.idle (h : Flights e) (hbatch : (e.io_threads x).batch = []) : (e.io_threads x).phase = .next := by
  have hp := h.phase x
  unfold IoThread.phased at hp
  cases hph : (e.io_threads x).phase with
  | next => rfl
  | pread => simp [hph, hbatch] at hp
  | release => simp [hph, hbatch] at hp
  | callback => simp [hph, hbatch] at hp

theorem Flights.pull (h : Flights e) (hbatch : (e.io_threads x).batch = []) (n : Nat) :
    Flights (e.set_thread x { e.io_threads x with
      batch := (e.io_threads x).queue.take n, queue := (e.io_threads x).queue.drop n }) := by
  have hios : (e.io_threads x).queue.take n ++ (e.io_threads x).queue.drop n = (e.io_threads x).ios := by
    rw [List.take_append_drop, IoThread.ios, hbatch, List.nil_append]
  have hphase := h.idle hbatch
  refine h.set_thread ?_ (fun io hio => ?_) ?_ ?_
  · simp only [IoThread.flushing, IoThread.ios]
    rw [hios]
    exact .refl _
  · simp only [IoThread.ios] at hio
    rw [hios] at hio
    exact h.io x io hio
  · simp [IoThread.phased, hphase]
  · intro p w offset len hp
    rw [hphase] at hp
    cases hp

theorem Flights.submit_read (h : Flights e) {o : Obj} (ho : o ∈ e.objects) : Flights (e.submit x (.read o)) := by
  refine h.set_thread ?_ (fun io hio => ?_) ?_ ?_
  · simp [IoThread.flushing, IoThread.ios, Io.wbuf]
  · simp only [IoThread.ios, ← List.append_assoc, List.mem_append, List.mem_singleton] at hio
    rcases hio with hio | rfl
    · exact h.io x io (List.mem_append.mpr hio)
    · exact ho
  · exact h.phase x
  · intro p w offset len hp hb
    exact h.flushed x p w offset len ⟨hp, hb⟩

/-! ## Buffers -/

/-- A buffer that is not in flight changes, and with it perhaps its page. -/
theorem Flights.set_wbuf (h : Flights e) {b : Wbuf} (hfree : ∀ x, w ∉ (e.io_threads x).flushing)
    (hthreads : e'.io_threads = e.io_threads) (hwbufs : e'.wbufs = update e.wbufs w b)
    (hpages : ∀ p v, v ≠ w → (e.pages p).wbuf = some v → (e'.pages p).wbuf = some v)
    (hplace : ∀ p, (e'.pages p).fd = (e.pages p).fd ∧ (e'.pages p).offset = (e.pages p).offset)
    (hdisk : e'.disk = e.disk) (hobjects : e.objects ⊆ e'.objects) : Flights e' := by
  have hne {x p v offset len : Nat} (hio : Io.write p v offset len ∈ (e.io_threads x).ios) : v ≠ w := fun he =>
    hfree x (mem_flushing.mpr ⟨p, offset, len, he ▸ hio⟩)
  refine h.frame hthreads (fun x io hio hs => ?_) fun x p v offset len ha hf => ?_
  · cases io with
    | read o => exact hobjects hs
    | write p v offset len =>
        simp only [Engine.submitted, hwbufs, update_of_ne (hne hio)]
        exact ⟨hpages p v (hne hio) hs.1, hs.2⟩
  · simp only [Engine.flushed, hplace p, hwbufs, hdisk, update_of_ne (hne ha.mem)]
    exact hf

/-- A buffer that is not full is not in flight, nor is one on the stack. -/
theorem Flights.not_full (h : Flights e) (hw : (e.wbufs w).full = false) (x : Nat) :
    w ∉ (e.io_threads x).flushing := fun hm => by
  have := (h.full hm).1
  rw [hw] at this
  cases this

theorem Flights.stacked (h : Flights e) (hb : Buffers S e) (hw : w ∈ e.wbuf_stack) (x : Nat) :
    w ∉ (e.io_threads x).flushing := fun hm => by
  obtain ⟨-, p, hp⟩ := h.full hm
  exact hb.not_stacked hp hw

theorem Flights.allocate_wbuf (h : Flights e) (hb : Buffers S e) (hw : (e.pages p).wbuf = none) :
    Flights (e.allocate_wbuf p) := by
  unfold Engine.allocate_wbuf
  split
  · exact h
  · rename_i w rest hstack
    refine h.set_wbuf (h.stacked hb (by simp [hstack])) rfl rfl (fun q v hv hq => ?_) (fun q => ?_) rfl
      (List.Subset.refl _)
    · have hqp : q ≠ p := fun he => by rw [he, hw] at hq; cases hq
      simpa [Engine.set_page, Engine.set_wbuf, hqp] using hq
    · by_cases hqp : q = p
      · subst hqp
        simp [Engine.set_page, Engine.set_wbuf]
      · simp [Engine.set_page, Engine.set_wbuf, hqp]

theorem Flights.extstore_write (h : Flights e) {bytes : List UInt8} (hfull : (e.wbufs w).full = false) :
    Flights (e.extstore_write p w bytes) := by
  refine h.set_wbuf (h.not_full hfull) rfl rfl (fun q v _ hq => ?_) (fun q => ?_) rfl (List.subset_cons_self ..)
  · by_cases hqp : q = p
    · subst hqp
      simpa [Engine.extstore_write, Engine.set_page, Engine.set_wbuf] using hq
    · simpa [Engine.extstore_write, Engine.set_page, Engine.set_wbuf, hqp] using hq
  · by_cases hqp : q = p
    · subst hqp
      simp [Engine.extstore_write, Engine.set_page, Engine.set_wbuf]
    · simp [Engine.extstore_write, Engine.set_page, Engine.set_wbuf, hqp]

theorem Flights.submit_write (h : Flights e) {offset len : Nat} (hnew : ∀ y, w ∉ (e.io_threads y).flushing)
    (hs : e.submitted (.write p w offset len)) : Flights (e.submit x (.write p w offset len)) := by
  have hios : ({ e.io_threads x with
      queue := (e.io_threads x).queue ++ [Io.write p w offset len] } : IoThread).flushing =
        (e.io_threads x).flushing ++ [w] := by
    simp [IoThread.flushing, IoThread.ios, Io.wbuf]
  refine ⟨?_, fun y io hio => ?_, fun y => ?_, fun y p' w' offset' len' ha => ?_⟩
  · refine h.apart.arrive (i := x) (List.nodup_singleton w) (fun v hv y => ?_) ?_ fun y hy => ?_
    · obtain rfl := List.mem_singleton.mp hv
      exact hnew y
    · simp only [Engine.submit, Engine.set_thread, update_self, hios]
      exact List.perm_append_singleton w _
    · simp only [Engine.submit, Engine.set_thread, update_of_ne hy]
  · by_cases hy : y = x
    · subst hy
      simp only [Engine.submit, Engine.set_thread, update_self, IoThread.ios, ← List.append_assoc, List.mem_append,
        List.mem_singleton] at hio
      rcases hio with hio | rfl
      · exact h.io y io (List.mem_append.mpr hio)
      · exact hs
    · simp only [Engine.submit, Engine.set_thread, update_of_ne hy] at hio
      exact h.io y io hio
  · by_cases hy : y = x
    · subst hy
      simp only [Engine.submit, Engine.set_thread, update_self]
      exact h.phase y
    · simp only [Engine.submit, Engine.set_thread, update_of_ne hy]
      exact h.phase y
  · refine h.flushed y p' w' offset' len' ?_
    unfold Engine.at_io at ha ⊢
    by_cases hy : y = x
    · subst hy
      simpa only [Engine.submit, Engine.set_thread, update_self] using ha
    · simpa only [Engine.submit, Engine.set_thread, update_of_ne hy] using ha

theorem submit_full_eq (b1 b2 : Wbuf) (hb : b2 = { b1 with full := true }) :
    ((e.set_wbuf w b1).submit x io).set_wbuf w { ((e.set_wbuf w b1).submit x io).wbufs w with full := true } =
      (e.set_wbuf w b2).submit x io := by
  subst hb
  simp [Engine.set_wbuf, Engine.submit, Engine.set_thread]

theorem Flights.submit_wbuf (h : Flights e) (hw : (e.pages p).wbuf = some w) (hfull : (e.wbufs w).full = false)
    (he : e.submit_wbuf p w x = some e') : Flights (e'.set_wbuf w { e'.wbufs w with full := true }) := by
  unfold Engine.submit_wbuf at he
  split at he
  · cases he
  · obtain rfl := Option.some.inj he
    let b : Wbuf := { e.wbufs w with
      buf := blit (e.wbufs w).buf ((e.wbufs w).size - (e.wbufs w).free) (List.replicate (e.wbufs w).free 0), full := true }
    have h1 : Flights ({ e with io_stack := e.io_stack - 1 }.set_wbuf w b) :=
      h.set_wbuf (h.not_full hfull) rfl rfl (fun _ _ _ hq => hq) (fun _ => ⟨rfl, rfl⟩) rfl (List.Subset.refl _)
    have hs : ({ e with io_stack := e.io_stack - 1 }.set_wbuf w b).submitted (.write p w b.offset b.size) :=
      ⟨hw, by simp [Engine.set_wbuf, b], by simp [Engine.set_wbuf], by simp [Engine.set_wbuf]⟩
    have h2 := h1.submit_write (x := x) (h.not_full hfull) hs
    rw [submit_full_eq _ b rfl]
    exact h2

/-! ## Writes -/

/-- The pages lie apart in the files. -/
def Placed (e : Engine) : Prop :=
  ∀ p q, p < e.page_count → q < e.page_count → p ≠ q → (e.pages p).fd = (e.pages q).fd →
    (e.pages p).offset + e.page_size ≤ (e.pages q).offset ∨ (e.pages q).offset + e.page_size ≤ (e.pages p).offset

theorem blit_get {α : Type} (f : Nat → α) (pos : Nat) (bytes : List α) (i : Nat) (hi : i < bytes.length) :
    blit f pos bytes (pos + i) = bytes[i] := by
  simp [blit, hi]

theorem blit_outside {α : Type} (f : Nat → α) (pos : Nat) (bytes : List α) (i : Nat)
    (hi : i < pos ∨ pos + bytes.length ≤ i) : blit f pos bytes i = f i := by
  unfold blit
  split
  · rw [List.getElem?_eq_none (by omega)]
    rfl
  · rfl

theorem slice_length {α : Type} (f : Nat → α) (pos len : Nat) : (slice f pos len).length = len := by simp [slice]

theorem slice_congr {α : Type} {f g : Nat → α} {pos pos' len : Nat} (h : ∀ i < len, f (pos + i) = g (pos' + i)) :
    slice f pos len = slice g pos' len :=
  List.map_congr_left fun i hi => h i (List.mem_range.mp hi)

theorem slice_blit {α : Type} (f : Nat → α) (pos : Nat) (bytes : List α) :
    slice (blit f pos bytes) pos bytes.length = bytes := by
  refine List.ext_getElem (by simp [slice]) fun i h1 h2 => ?_
  simp only [slice, List.getElem_map, List.getElem_range]
  exact blit_get f pos bytes i h2

theorem Buffers.region (h : Buffers S e) (hw : (e.pages p).wbuf = some w) :
    p < e.page_count ∧ (e.wbufs w).offset + S ≤ e.page_size ∧ (e.wbufs w).offset = (e.pages p).written := by
  have hp := h.page p
  obtain ⟨ha, hoffset, hal⟩ := hp.buffered w hw
  have := hp.allocated_le
  exact ⟨h.range p ha, by omega, hoffset⟩

/-- A byte of another page, or of this one below the buffer, is not written. -/
theorem pwrite_other {offset len : Nat} (hplaced : Placed e) (hb : Buffers S e) (hw : (e.pages p).wbuf = some w)
    (hoffset : offset = (e.wbufs w).offset) (hlen : len = S) (hq : q < e.page_count) {i : Nat} (hi : i < e.page_size)
    (hne : q ≠ p ∨ i < (e.pages q).written) :
    (e.pwrite p w offset len).disk (e.pages q).fd ((e.pages q).offset + i) =
      e.disk (e.pages q).fd ((e.pages q).offset + i) := by
  obtain ⟨hp, hin, hwritten⟩ := hb.region hw
  simp only [Engine.pwrite]
  by_cases hfd : (e.pages q).fd = (e.pages p).fd
  · rw [hfd, update_self]
    refine blit_outside _ _ _ _ ?_
    rw [slice_length]
    rcases eq_or_ne q p with rfl | hqp
    · have := hne.resolve_left (fun h => h rfl)
      omega
    · rcases hplaced q p hq hp hqp hfd with hd | hd <;> omega
  · rw [update_of_ne hfd]

theorem Flights.pwrite (h : Flights e) (hplaced : Placed e) (hb : Buffers S e) {offset len : Nat}
    (hat : e.at_io x .next (.write p w offset len)) : Flights ((e.pwrite p w offset len).set_phase x .callback) := by
  obtain ⟨hw, hfull, hoffset, hlen⟩ := h.io x _ hat.mem
  have hsize := (hb.wbuf w).size
  have h1 : Flights (e.pwrite p w offset len) := by
    refine h.frame rfl (fun _ io _ hs => by cases io <;> exact hs) fun y p' w' offset' len' ha hf i hi => ?_
    obtain ⟨hw', -, hoffset', hlen'⟩ := h.io y _ ha.mem
    obtain ⟨hp', hin', -⟩ := hb.region hw'
    have hsize' := (hb.wbuf w').size
    have hpp : p' ≠ p := fun he => by
      subst he
      obtain rfl := Option.some.inj (hw'.symm.trans hw)
      obtain rfl := h.apart.place (mem_flushing.mpr ⟨_, _, _, ha.mem⟩) (mem_flushing.mpr ⟨_, _, _, hat.mem⟩)
      exact absurd (ha.1.symm.trans hat.1) (by decide)
    have hother := pwrite_other (q := p') (i := offset' + i) hplaced hb hw hoffset (hlen.trans hsize) hp' (by omega)
      (.inl hpp)
    rw [← Nat.add_assoc] at hother
    exact hother.trans (hf i hi)
  refine h1.set_phase ⟨p, w, offset, len, hat.2⟩ fun p' w' offset' len' _ hhead i hi => ?_
  obtain ⟨rfl, rfl, rfl, rfl⟩ := by simpa using hhead.symm.trans hat.2
  simp only [Engine.pwrite, update_self]
  rw [blit_get _ _ _ _ (by rw [slice_length]; exact hi)]
  simp [slice]

theorem Flights.callback_ok (h : Flights e) (hb : Buffers S e) {offset len : Nat}
    (hat : e.at_io x .callback (.write p w offset len)) : ∃ e', e.wbuf_cb p w = some e' := by
  obtain ⟨hw, -⟩ := h.io x _ hat.mem
  have hwritten := ((hb.page p).buffered w hw).2.1
  simp [Engine.wbuf_cb, hw, hwritten]

theorem Flights.callback (h : Flights e) {offset len : Nat}
    (hat : e.at_io x .callback (.write p w offset len)) (he : e.wbuf_cb p w = some e') : Flights (e'.finish x) := by
  obtain ⟨hw, -⟩ := h.io x _ hat.mem
  have hmem : w ∈ (e.io_threads x).flushing := mem_flushing.mpr ⟨_, _, _, hat.mem⟩
  unfold Engine.wbuf_cb at he
  dsimp only at he
  split at he
  · obtain rfl := Option.some.inj he
    -- the thread is done with the io before the buffer goes back: then no flush of it is left
    have h1 := h.finish (x := x)
    have hnot (y : Nat) : w ∉ ((e.finish x).io_threads y).flushing := by
      by_cases hy : y = x
      · subst hy
        obtain ⟨rest, hbatch⟩ := List.head?_eq_some_iff.mp hat.2
        have hnd := h.apart.nodup y
        simp only [IoThread.flushing, IoThread.ios, hbatch, List.cons_append, List.filterMap_cons, Io.wbuf] at hnd
        simp only [Engine.finish, Engine.set_thread, update_self, IoThread.flushing, IoThread.ios, hbatch, List.tail_cons]
        exact (List.nodup_cons.mp hnd).1
      · simp only [Engine.finish, Engine.set_thread, update_of_ne hy]
        exact fun hm => hy (h.apart.place hm hmem)
    refine h1.set_wbuf hnot rfl rfl (fun q v hv hq => ?_) (fun q => ?_) rfl (List.Subset.refl _)
    · have hqp : q ≠ p := fun hqp => hv (Option.some.inj (hq.symm.trans (hqp ▸ hw)))
      simpa [Engine.finish, Engine.set_thread, Engine.set_page, Engine.set_wbuf, hqp] using hq
    · by_cases hqp : q = p
      · subst hqp
        simp [Engine.finish, Engine.set_thread, Engine.set_page, Engine.set_wbuf]
      · simp [Engine.finish, Engine.set_thread, Engine.set_page, Engine.set_wbuf, hqp]
  · cases he

/-! ## Every action -/

theorem Flights.set_page (h : Flights e) {pg : Page} (hpages : e'.pages = update e.pages p pg)
    (hpg : pg.wbuf = (e.pages p).wbuf ∧ pg.fd = (e.pages p).fd ∧ pg.offset = (e.pages p).offset)
    (hthreads : e'.io_threads = e.io_threads) (hwbufs : e'.wbufs = e.wbufs) (hdisk : e'.disk = e.disk)
    (hobjects : e'.objects = e.objects) : Flights e' := by
  refine h.of_eq hthreads (fun q => ?_) hwbufs hdisk (hobjects ▸ List.Subset.refl _)
  rw [hpages]
  by_cases hq : q = p
  · subst hq
    rw [update_self]
    exact hpg
  · rw [update_of_ne hq]
    exact ⟨rfl, rfl, rfl⟩

theorem Flights.free_page (h : Flights e) {m : Maint} : Flights { e.free_page p with maint := m } := by
  have hf := free_page_freed (e := e) (p := p)
  have hsame : (e.free_page p).io_threads = e.io_threads ∧ (e.free_page p).wbufs = e.wbufs ∧
      (e.free_page p).disk = e.disk ∧ (e.free_page p).objects = e.objects := by
    rw [hf.rest]
    exact ⟨rfl, rfl, rfl, rfl⟩
  obtain ⟨hthreads, hwbufs, hdisk, hobjects⟩ := hsame
  refine h.of_eq hthreads (fun q => ?_) hwbufs hdisk (hobjects ▸ List.Subset.refl _)
  show ((e.free_page p).pages q).wbuf = _ ∧ ((e.free_page p).pages q).fd = _ ∧ ((e.free_page p).pages q).offset = _
  by_cases hq : q = p
  · subst hq
    rw [hf.page]
    exact ⟨rfl, rfl, rfl⟩
  · rw [hf.other q hq]
    exact ⟨rfl, rfl, rfl⟩

theorem Flights.act (h : Flights e) (hb : Buffers S e) (hplaced : Placed e) (hact : Act s ev e e') : Flights e' := by
  cases hact with
  | writer hk => exact h.of_eq rfl (fun _ => ⟨rfl, rfl, rfl⟩) rfl rfl (List.Subset.refl _)
  | @open_page e1 free_bucket p bucket hs hstats hbucket ht hfree =>
      rw [take_free_rest ht]
      exact h.set_page (p := p) rfl ⟨rfl, rfl, rfl⟩ rfl rfl rfl rfl
  | lose_page ht hfree =>
      rw [take_free_rest ht]
      exact h.of_eq rfl (fun _ => ⟨rfl, rfl, rfl⟩) rfl rfl (List.Subset.refl _)
  | submit_wbuf hw hfull hx he => exact h.submit_wbuf hw hfull he
  | allocate_wbuf hu ha hw hsize => exact h.allocate_wbuf hb hw
  | write hev hstats hu ha hw hfull hlen => exact h.extstore_write hfull
  | read hx ho => exact h.submit_read ho
  | pull hx hbatch => exact h.pull hbatch _
  | @miss x o hx hat hdead =>
      have h1 : Flights (e.answer o none) := h.of_eq rfl (fun _ => ⟨rfl, rfl, rfl⟩) rfl rfl (List.Subset.refl _)
      exact h1.finish
  | @hit x o bytes hx hat hlive ha hbytes =>
      have h1 : Flights (e.answer o (some bytes)) :=
        h.of_eq rfl (fun _ => ⟨rfl, rfl, rfl⟩) rfl rfl (List.Subset.refl _)
      exact h1.finish
  | @start_pread x o hx hat hlive ha =>
      have h1 : Flights (e.set_page o.page_id { e.pages o.page_id with refcount := (e.pages o.page_id).refcount + 1 }) :=
        h.set_page rfl ⟨rfl, rfl, rfl⟩ rfl rfl rfl rfl
      exact h1.set_phase ⟨o, hat.2⟩ fun _ _ _ _ hp => nomatch hp
  | @pread x o hx hat =>
      have h1 : Flights (e.answer o (some (e.pread o))) :=
        h.of_eq rfl (fun _ => ⟨rfl, rfl, rfl⟩) rfl rfl (List.Subset.refl _)
      exact h1.set_phase ⟨o, hat.2⟩ fun _ _ _ _ hp => nomatch hp
  | @release x o hx hat =>
      have h1 : Flights (e.set_page o.page_id { e.pages o.page_id with refcount := (e.pages o.page_id).refcount - 1 }) :=
        h.set_page rfl ⟨rfl, rfl, rfl⟩ rfl rfl rfl rfl
      exact h1.finish
  | pwrite hx hat => exact h.pwrite hplaced hb hat
  | callback hx hat he => exact h.callback hat he
  | @delete p page_version count bytes hev hs hp =>
      unfold Engine.extstore_delete
      dsimp only
      split
      · exact h.set_page (p := p) rfl ⟨rfl, rfl, rfl⟩ rfl rfl rfl rfl
      · exact h
  | close p => exact h.set_page (p := p) rfl ⟨rfl, rfl, rfl⟩ rfl rfl rfl rfl
  | free_page hm href hpage hlow => exact h.free_page
  | maint hpage hlow => exact h.of_eq rfl (fun _ => ⟨rfl, rfl, rfl⟩) rfl rfl (List.Subset.refl _)

end Memcached.Exstore

import Memcached.Exstore.Lemmas.Readers

/-!
# Where the objects are

While a page has the version that an object was written with, the object is in the file below `written`, or in the
buffer of the page. A new version is one that no object has, as long as fewer than 2^32 were given out.
-/

namespace Memcached.Exstore

open Function (update update_self update_of_ne)

variable {s e e' : Engine} {ev : Event} {L : Place → List Nat} {S p q w x : Nat} {o : Obj} {th : IoThread}

def Engine.on_disk (e : Engine) (o : Obj) : Prop :=
  o.offset + o.bytes.length ≤ (e.pages o.page_id).written ∧
    slice (e.disk (e.pages o.page_id).fd) ((e.pages o.page_id).offset + o.offset) o.bytes.length = o.bytes

def Engine.in_wbuf (e : Engine) (o : Obj) : Prop :=
  ∃ w, (e.pages o.page_id).wbuf = some w ∧ (e.wbufs w).offset ≤ o.offset ∧
    o.offset + o.bytes.length ≤ (e.wbufs w).offset + (e.wbufs w).buf_pos ∧
    slice (e.wbufs w).buf (o.offset - (e.wbufs w).offset) o.bytes.length = o.bytes

/-- The page is still the one that the object was written to. -/
def Engine.same_page (e : Engine) (o : Obj) : Prop :=
  (e.pages o.page_id).free = false ∧ (e.pages o.page_id).version = o.page_version

/-- One of the versions given out so far, which wrap at 2^32. -/
def Issued (page_allocs v : Nat) : Prop := ∃ j, 1 ≤ j ∧ j ≤ page_allocs ∧ v = j % 2 ^ 32

structure Stored (e : Engine) : Prop where
  range : ∀ o ∈ e.objects, o.page_id < e.page_count
  place : ∀ o ∈ e.objects, e.same_page o → e.on_disk o ∨ e.in_wbuf o
  issued : ∀ o ∈ e.objects, Issued e.stats.page_allocs o.page_version
  used : ∀ p < e.page_count, (e.pages p).free = false → Issued e.stats.page_allocs (e.pages p).version
  next : e.version = (1 + e.stats.page_allocs) % 2 ^ 32
  reading : ∀ x < e.io_threadcount, ∀ o, e.at_io x .pread (.read o) → e.same_page o ∧ e.on_disk o
  results : ∀ r ∈ e.results, ∀ bytes, r.2 = some bytes → r.1 ∈ e.objects ∧ bytes = r.1.bytes

/-! ## Versions -/

theorem Issued.mono {n m v : Nat} (h : Issued n v) (hnm : n ≤ m) : Issued m v := by
  obtain ⟨j, h1, hj, rfl⟩ := h
  exact ⟨j, h1, hj.trans hnm, rfl⟩

theorem Issued.fresh {n v : Nat} (h : Issued n v) (hn : n < 2 ^ 32) : v ≠ (1 + n) % 2 ^ 32 := by
  obtain ⟨j, h1, hj, rfl⟩ := h
  rw [Nat.mod_eq_of_lt (by omega : j < 2 ^ 32)]
  rcases Nat.lt_or_ge (1 + n) (2 ^ 32) with hlt | hge
  · rw [Nat.mod_eq_of_lt hlt]
    omega
  · have : 1 + n = 2 ^ 32 := by omega
    rw [this, Nat.mod_self]
    omega

theorem Issued.new {n : Nat} : Issued (n + 1) ((1 + n) % 2 ^ 32) := ⟨n + 1, Nat.le_add_left .., le_rfl, by rw [Nat.add_comm]⟩

/-! ## Frames -/

theorem Stored.frame (h : Stored e)
    (hpages : ∀ p, (e'.pages p).free = (e.pages p).free ∧ (e'.pages p).version = (e.pages p).version ∧
      (e'.pages p).written = (e.pages p).written ∧ (e'.pages p).wbuf = (e.pages p).wbuf ∧
      (e'.pages p).fd = (e.pages p).fd ∧ (e'.pages p).offset = (e.pages p).offset)
    (hwbufs : e'.wbufs = e.wbufs) (hdisk : e'.disk = e.disk) (hobjects : e'.objects = e.objects)
    (hallocs : e'.stats.page_allocs = e.stats.page_allocs) (hversion : e'.version = e.version)
    (hcount : e'.page_count = e.page_count) (hthreads : e'.io_threadcount = e.io_threadcount)
    (hreading : ∀ x < e.io_threadcount, ∀ o, e'.at_io x .pread (.read o) →
      e.at_io x .pread (.read o) ∨ e.same_page o ∧ e.on_disk o)
    (hresults : ∀ r ∈ e'.results, ∀ bytes, r.2 = some bytes → r ∈ e.results ∨ r.1 ∈ e.objects ∧ bytes = r.1.bytes) :
    Stored e' := by
  have hsame (o : Obj) : e'.same_page o ↔ e.same_page o := by simp only [Engine.same_page, hpages]
  have hon (o : Obj) : e'.on_disk o ↔ e.on_disk o := by simp only [Engine.on_disk, hpages, hdisk]
  have hin (o : Obj) : e'.in_wbuf o ↔ e.in_wbuf o := by simp only [Engine.in_wbuf, hpages, hwbufs]
  refine ⟨?_, fun o ho hs => ?_, ?_, fun p hlt hp => ?_, ?_, fun x hx o ha => ?_, fun r hr bytes hb => ?_⟩
  · rw [hobjects, hcount]
    exact h.range
  · rw [hon, hin]
    exact h.place o (hobjects ▸ ho) ((hsame o).mp hs)
  · rw [hobjects, hallocs]
    exact h.issued
  · rw [(hpages p).2.1, hallocs]
    exact h.used p (hcount ▸ hlt) ((hpages p).1.symm.trans hp)
  · rw [hversion, hallocs]
    exact h.next
  · rw [hsame, hon]
    rw [hthreads] at hx
    rcases hreading x hx o ha with ha | hs
    · exact h.reading x hx o ha
    · exact hs
  · rw [hobjects]
    rcases hresults r hr bytes hb with hr | hr
    · exact h.results r hr bytes hb
    · exact hr

theorem at_io_set_thread {y : Nat} {phase : IoPhase} {io : Io} (h : (e.set_thread x th).at_io y phase io) :
    y = x ∧ th.phase = phase ∧ th.batch.head? = some io ∨ y ≠ x ∧ e.at_io y phase io := by
  unfold Engine.at_io at h
  by_cases hy : y = x
  · subst hy
    simp only [Engine.set_thread, update_self] at h
    exact .inl ⟨rfl, h⟩
  · simp only [Engine.set_thread, update_of_ne hy] at h
    exact .inr ⟨hy, h⟩

/-- A thread changes that is not about to read from the file afterwards. -/
theorem Stored.set_thread (h : Stored e)
    (hreading : ∀ o, th.phase = .pread → th.batch.head? = some (.read o) →
      e.at_io x .pread (.read o) ∨ e.same_page o ∧ e.on_disk o) : Stored (e.set_thread x th) := by
  refine h.frame (fun _ => ⟨rfl, rfl, rfl, rfl, rfl, rfl⟩) rfl rfl rfl rfl rfl rfl rfl (fun y hy o ha => ?_)
    fun r hr bytes hb => .inl hr
  rcases at_io_set_thread ha with ⟨rfl, hphase, hhead⟩ | ⟨-, ha⟩
  · exact hreading o hphase hhead
  · exact .inl ha

theorem Stored.finish (h : Stored e) : Stored (e.finish x) := h.set_thread fun _ hp => nomatch hp

theorem Stored.answer (h : Stored e) {r : Option (List UInt8)}
    (hr : ∀ bytes, r = some bytes → o ∈ e.objects ∧ bytes = o.bytes) : Stored (e.answer o r) := by
  refine h.frame (fun _ => ⟨rfl, rfl, rfl, rfl, rfl, rfl⟩) rfl rfl rfl rfl rfl rfl rfl (fun _ _ _ ha => .inl ha)
    fun r' hr' bytes hb => ?_
  rcases List.mem_cons.mp hr' with rfl | hr'
  · exact .inr (hr bytes hb)
  · exact .inl hr'

theorem Stored.submit (h : Stored e) {io : Io} : Stored (e.submit x io) :=
  h.set_thread fun _ hp hb => .inl ⟨hp, hb⟩

theorem Stored.set_page (h : Stored e) {pg : Page} (hpages : e'.pages = update e.pages p pg)
    (hpg : pg.free = (e.pages p).free ∧ pg.version = (e.pages p).version ∧ pg.written = (e.pages p).written ∧
      pg.wbuf = (e.pages p).wbuf ∧ pg.fd = (e.pages p).fd ∧ pg.offset = (e.pages p).offset)
    (hwbufs : e'.wbufs = e.wbufs) (hdisk : e'.disk = e.disk) (hobjects : e'.objects = e.objects)
    (hallocs : e'.stats.page_allocs = e.stats.page_allocs) (hversion : e'.version = e.version)
    (hcount : e'.page_count = e.page_count) (hthreads : e'.io_threadcount = e.io_threadcount)
    (hio : e'.io_threads = e.io_threads) (hresults : e'.results = e.results) : Stored e' := by
  refine h.frame (fun q => ?_) hwbufs hdisk hobjects hallocs hversion hcount hthreads (fun x _ o ha => .inl ?_)
    fun r hr bytes hb => .inl (hresults ▸ hr)
  · rw [hpages]
    by_cases hq : q = p
    · subst hq
      rw [update_self]
      exact hpg
    · rw [update_of_ne hq]
      exact ⟨rfl, rfl, rfl, rfl, rfl, rfl⟩
  · unfold Engine.at_io at ha ⊢
    rwa [hio] at ha

/-! ## Reads -/

theorem Stored.hit (h : Stored e) {bytes : List UInt8} (hlive : e.live o) (ho : o ∈ e.objects)
    (ha : (e.pages o.page_id).written ≤ o.offset) (hread : e.read_from_wbuf o = some bytes) : bytes = o.bytes := by
  unfold Engine.read_from_wbuf at hread
  split at hread
  · cases hread
  · rename_i w hw
    dsimp only at hread
    split at hread
    · obtain rfl := Option.some.inj hread
      rcases h.place o ho ⟨hlive.1, hlive.2.2⟩ with ⟨hle, -⟩ | ⟨w', hw', -, -, hslice⟩
      · have hlen : o.bytes.length = 0 := by omega
        rw [List.length_eq_zero_iff.mp hlen]
        rfl
      · obtain rfl := Option.some.inj (hw.symm.trans hw')
        exact hslice
    · cases hread

theorem Stored.start_pread (h : Stored e) (hb : Buffers S e) (hat : e.at_io x .next (.read o)) (ho : o ∈ e.objects)
    (hlive : e.live o) (ha : ¬((e.pages o.page_id).active = true ∧ (e.pages o.page_id).written ≤ o.offset)) :
    Stored ((e.set_page o.page_id
      { e.pages o.page_id with refcount := (e.pages o.page_id).refcount + 1 }).set_phase x .pread) := by
  have hsame : e.same_page o := ⟨hlive.1, hlive.2.2⟩
  have hdisk : e.on_disk o := by
    rcases h.place o ho hsame with hd | ⟨w, hw, hle, -⟩
    · exact hd
    · obtain ⟨hactive, hoffset, -⟩ := (hb.page _).buffered w hw
      rw [hoffset] at hle
      exact absurd ⟨hactive, hle⟩ ha
  let e1 := e.set_page o.page_id { e.pages o.page_id with refcount := (e.pages o.page_id).refcount + 1 }
  have h1 : Stored e1 := h.set_page (p := o.page_id) rfl ⟨rfl, rfl, rfl, rfl, rfl, rfl⟩ rfl rfl rfl rfl rfl rfl rfl rfl rfl
  refine h1.set_thread fun o' _ hhead => .inr ?_
  obtain rfl : o = o' := by simpa using hat.2.symm.trans hhead
  simp only [e1, Engine.same_page, Engine.on_disk, Engine.set_page, update_self]
  exact ⟨hsame, hdisk⟩

theorem Stored.pread (h : Stored e) (hx : x < e.io_threadcount) (ho : o ∈ e.objects)
    (hat : e.at_io x .pread (.read o)) : Stored ((e.answer o (some (e.pread o))).set_phase x .release) := by
  obtain ⟨-, -, hslice⟩ := h.reading x hx o hat
  have h1 : Stored (e.answer o (some (e.pread o))) := h.answer fun bytes hb => by
    obtain rfl := Option.some.inj hb
    exact ⟨ho, hslice⟩
  exact h1.set_thread fun _ hp => nomatch hp

/-! ## Buffers -/

/-- The objects stay where they are, or move from the buffer to the file. -/
theorem Stored.moved (h : Stored e)
    (hpages : ∀ p, (e'.pages p).free = (e.pages p).free ∧ (e'.pages p).version = (e.pages p).version)
    (hon : ∀ o ∈ e.objects, e.same_page o → e.on_disk o → e'.on_disk o)
    (hin : ∀ o ∈ e.objects, e.same_page o → e.in_wbuf o → e'.on_disk o ∨ e'.in_wbuf o)
    (hread : ∀ x < e.io_threadcount, ∀ o, e.at_io x .pread (.read o) → o ∈ e.objects)
    (hobjects : e'.objects = e.objects)
    (hallocs : e'.stats.page_allocs = e.stats.page_allocs) (hversion : e'.version = e.version)
    (hcount : e'.page_count = e.page_count) (hthreads : e'.io_threadcount = e.io_threadcount)
    (hio : ∀ x o, e'.at_io x .pread (.read o) → e.at_io x .pread (.read o)) (hresults : e'.results = e.results) :
    Stored e' := by
  have hsame (o : Obj) : e'.same_page o ↔ e.same_page o := by simp only [Engine.same_page, hpages]
  refine ⟨?_, fun o ho hs => ?_, ?_, fun p hlt hp => ?_, ?_, fun x hx o ha => ?_, ?_⟩
  · rw [hobjects, hcount]
    exact h.range
  · rw [hobjects] at ho
    have hs := (hsame o).mp hs
    rcases h.place o ho hs with hd | hd
    · exact .inl (hon o ho hs hd)
    · exact hin o ho hs hd
  · rw [hobjects, hallocs]
    exact h.issued
  · rw [(hpages p).2, hallocs]
    exact h.used p (hcount ▸ hlt) ((hpages p).1.symm.trans hp)
  · rw [hversion, hallocs]
    exact h.next
  · rw [hthreads] at hx
    obtain ⟨hs, hd⟩ := h.reading x hx o (hio x o ha)
    exact ⟨(hsame o).mpr hs, hon o (hread x hx o (hio x o ha)) hs hd⟩
  · rw [hresults, hobjects]
    exact h.results

theorem Flights.read_mem (h : Flights e) {phase : IoPhase} (hat : e.at_io x phase (.read o)) : o ∈ e.objects :=
  h.io x _ hat.mem

theorem slice_blit_before {α : Type} {f : Nat → α} {pos at_pos len : Nat} {bytes : List α} (h : pos + len ≤ at_pos) :
    slice (blit f at_pos bytes) pos len = slice f pos len :=
  slice_congr fun i hi => blit_outside f at_pos bytes _ (.inl (by omega))

theorem Stored.set_wbuf (h : Stored e) (hf : Flights e) {b : Wbuf} {pos : Nat} {bytes : List UInt8}
    (hwbufs : e'.wbufs = update e.wbufs w b) (hbuf : b.buf = blit (e.wbufs w).buf pos bytes)
    (hpos : (e.wbufs w).buf_pos ≤ pos) (hle : (e.wbufs w).buf_pos ≤ b.buf_pos)
    (hoffset : b.offset = (e.wbufs w).offset) (hpages : e'.pages = e.pages) (hdisk : e'.disk = e.disk)
    (hobjects : e'.objects = e.objects)
    (hallocs : e'.stats.page_allocs = e.stats.page_allocs) (hversion : e'.version = e.version)
    (hcount : e'.page_count = e.page_count) (hthreads : e'.io_threadcount = e.io_threadcount)
    (hio : e'.io_threads = e.io_threads) (hresults : e'.results = e.results) : Stored e' := by
  refine h.moved (fun p => by rw [hpages]; exact ⟨rfl, rfl⟩) (fun o _ _ hd => ?_) (fun o _ _ hin => .inr ?_)
    (fun x _ o ha => hf.read_mem ha) hobjects hallocs hversion hcount hthreads (fun x o ha => ?_) hresults
  · simp only [Engine.on_disk, hpages, hdisk]
    exact hd
  · obtain ⟨v, hv, hlo, hhi, hslice⟩ := hin
    rw [← hpages] at hv
    refine ⟨v, hv, ?_⟩
    rw [hwbufs]
    by_cases hvw : v = w
    · subst hvw
      rw [update_self, hoffset, hbuf, slice_blit_before (by omega)]
      exact ⟨hlo, by omega, hslice⟩
    · rw [update_of_ne hvw]
      exact ⟨hlo, hhi, hslice⟩
  · unfold Engine.at_io at ha ⊢
    rwa [hio] at ha

theorem Stored.submit_wbuf (h : Stored e) (hb : Buffers S e) (hf : Flights e)
    (he : e.submit_wbuf p w x = some e') : Stored (e'.set_wbuf w { e'.wbufs w with full := true }) := by
  unfold Engine.submit_wbuf at he
  split at he
  · cases he
  · obtain rfl := Option.some.inj he
    have hsize := (hb.wbuf w).size
    have hfill := (hb.wbuf w).fill
    let b : Wbuf := { e.wbufs w with
      buf := blit (e.wbufs w).buf ((e.wbufs w).size - (e.wbufs w).free) (List.replicate (e.wbufs w).free 0), full := true }
    have h1 : Stored ({ e with io_stack := e.io_stack - 1 }.set_wbuf w b) :=
      h.set_wbuf hf (b := b) rfl rfl (by omega) le_rfl rfl rfl rfl rfl rfl rfl rfl rfl rfl rfl
    rw [submit_full_eq _ b rfl]
    exact h1.submit

theorem Stored.allocate_wbuf (h : Stored e) (hb : Buffers S e) (hf : Flights e) (hw : (e.pages p).wbuf = none) :
    Stored (e.allocate_wbuf p) := by
  unfold Engine.allocate_wbuf
  split
  · exact h
  · rename_i w rest hstack
    refine h.moved (fun q => ?_) (fun o _ _ hd => ?_) (fun o _ _ hin => .inr ?_) (fun x _ o ha => hf.read_mem ha) rfl rfl
      rfl rfl rfl (fun _ _ ha => ha) rfl
    · by_cases hq : q = p
      · subst hq
        simp [Engine.set_page, Engine.set_wbuf]
      · simp [Engine.set_page, Engine.set_wbuf, hq]
    · simp only [Engine.on_disk, Engine.set_page, Engine.set_wbuf]
      by_cases hq : o.page_id = p
      · simp only [Engine.on_disk, hq] at hd
        rw [hq, update_self]
        exact hd
      · rw [update_of_ne hq]
        exact hd
    · obtain ⟨v, hv, hin⟩ := hin
      have hq : o.page_id ≠ p := fun he => by
        rw [he, hw] at hv
        cases hv
      have hvw : v ≠ w := fun he => hb.not_stacked hv (by simp [hstack, he])
      refine ⟨v, ?_, ?_⟩
      · simp only [Engine.set_page, Engine.set_wbuf, update_of_ne hq]
        exact hv
      · simp only [Engine.set_page, Engine.set_wbuf, update_of_ne hvw]
        exact hin

theorem Stored.extstore_write (h : Stored e) (hb : Buffers S e) (hf : Flights e) {bytes : List UInt8}
    (hw : (e.pages p).wbuf = some w) : Stored (e.extstore_write p w bytes) := by
  obtain ⟨ha, hoffset, -⟩ := (hb.page p).buffered w hw
  have hfree : (e.pages p).free = false := by
    by_contra hne
    exact absurd (ha.symm.trans ((hb.page p).free (by simpa using hne)).1) (by decide)
  have hfill := (hb.wbuf w).fill
  have hsize := (hb.wbuf w).size
  let b : Wbuf := { e.wbufs w with
    buf := blit (e.wbufs w).buf (e.wbufs w).buf_pos bytes, buf_pos := (e.wbufs w).buf_pos + bytes.length
    free := (e.wbufs w).free - bytes.length }
  have h1 : Stored (e.set_wbuf w b) :=
    h.set_wbuf hf (b := b) rfl rfl le_rfl (Nat.le_add_right ..) rfl rfl rfl rfl rfl rfl rfl rfl rfl rfl
  let pg : Page := { e.pages p with
    bytes_used := add64 (e.pages p).bytes_used bytes.length, obj_count := add64 (e.pages p).obj_count 1 }
  let e2 : Engine := { (e.set_wbuf w b).set_page p pg with stats := { e.stats with
    bytes_used := add64 e.stats.bytes_used bytes.length, objects_used := add64 e.stats.objects_used 1 } }
  have h2 : Stored e2 := h1.set_page (p := p) rfl ⟨rfl, rfl, rfl, rfl, rfl, rfl⟩ rfl rfl rfl rfl rfl rfl rfl rfl rfl
  let o : Obj := ⟨p, (e.pages p).version, (e.wbufs w).offset + ((e.wbufs w).size - (e.wbufs w).free), bytes⟩
  have heq : e.extstore_write p w bytes = { e2 with objects := o :: e2.objects } := rfl
  rw [heq]
  have hnew : e2.in_wbuf o := by
    refine ⟨w, ?_, ?_⟩
    · simp [e2, o, pg, Engine.set_page, Engine.set_wbuf, hw]
    · have hpos : (e.wbufs w).size - (e.wbufs w).free = (e.wbufs w).buf_pos := by omega
      simp only [e2, o, b, Engine.set_page, Engine.set_wbuf, update_self, hpos]
      refine ⟨Nat.le_add_right .., (Nat.add_assoc ..).le, ?_⟩
      rw [Nat.add_sub_cancel_left]
      exact slice_blit ..
  refine ⟨fun o' ho' => ?_, fun o' ho' hs => ?_, fun o' ho' => ?_, h2.used, h2.next, h2.reading, fun r hr bytes' hb' => ?_⟩
  · rcases List.mem_cons.mp ho' with rfl | ho'
    · exact hb.range p ha
    · exact h2.range o' ho'
  · rcases List.mem_cons.mp ho' with rfl | ho'
    · exact .inr hnew
    · exact h2.place o' ho' hs
  · rcases List.mem_cons.mp ho' with rfl | ho'
    · exact h.used p (hb.range p ha) hfree
    · exact h2.issued o' ho'
  · obtain ⟨hmem, hbytes⟩ := h2.results r hr bytes' hb'
    exact ⟨List.mem_cons_of_mem _ hmem, hbytes⟩

theorem Stored.pwrite (h : Stored e) (hplaced : Placed e) (hb : Buffers S e) (hf : Flights e) {offset len : Nat}
    (hat : e.at_io x .next (.write p w offset len)) : Stored ((e.pwrite p w offset len).set_phase x .callback) := by
  obtain ⟨hw, -, hoffset, hlen⟩ := hf.io x _ hat.mem
  have hlen := hlen.trans (hb.wbuf w).size
  have h1 : Stored (e.pwrite p w offset len) := by
    refine h.moved (fun _ => ⟨rfl, rfl⟩) (fun o ho _ hd => ⟨hd.1, ?_⟩) (fun _ _ _ hin => .inr hin)
      (fun x _ o ha => hf.read_mem ha) rfl rfl rfl rfl rfl (fun _ _ ha => ha) rfl
    refine Eq.trans (slice_congr fun i hi => ?_) hd.2
    have hwritten : (e.pages o.page_id).written ≤ e.page_size := by
      have hp := hb.page o.page_id
      have hal := hp.allocated_le
      cases hpw : (e.pages o.page_id).wbuf with
      | none => exact (hp.unbuffered hpw).trans_le hal
      | some v =>
          have := (hp.buffered v hpw).2.2
          omega
    have hbelow : o.offset + i < (e.pages o.page_id).written := by
      have := hd.1
      omega
    have hother := pwrite_other hplaced hb hw hoffset hlen (h.range o ho) (hbelow.trans_le hwritten) (.inr hbelow)
    rw [← Nat.add_assoc] at hother
    exact hother
  exact h1.set_thread fun _ hp => nomatch hp

theorem Stored.callback (h : Stored e) (hb : Buffers S e) (hf : Flights e) {offset len : Nat}
    (hat : e.at_io x .callback (.write p w offset len)) (he : e.wbuf_cb p w = some e') : Stored (e'.finish x) := by
  obtain ⟨hw, -, hoffset, hlen⟩ := hf.io x _ hat.mem
  have hflushed := hf.flushed x p w offset len hat
  have hsize := (hb.wbuf w).size
  have hfill := (hb.wbuf w).fill
  have hwritten := ((hb.page p).buffered w hw).2.1
  unfold Engine.wbuf_cb at he
  dsimp only at he
  split at he
  · obtain rfl := Option.some.inj he
    refine Stored.finish ?_
    refine h.moved (fun q => ?_) (fun o _ _ hd => ?_) (fun o _ _ hin => ?_) (fun x _ o ha => hf.read_mem ha) rfl rfl
      rfl rfl rfl (fun _ _ ha => ha) rfl
    · by_cases hq : q = p
      · subst hq
        simp [Engine.set_page, Engine.set_wbuf]
      · simp [Engine.set_page, Engine.set_wbuf, hq]
    · simp only [Engine.on_disk, Engine.set_page, Engine.set_wbuf]
      by_cases hq : o.page_id = p
      · simp only [Engine.on_disk, hq] at hd
        rw [hq, update_self]
        exact ⟨by dsimp only; omega, hd.2⟩
      · rw [update_of_ne hq]
        exact hd
    · obtain ⟨v, hv, hlo, hhi, hslice⟩ := hin
      by_cases hq : o.page_id = p
      · obtain rfl := Option.some.inj ((hq ▸ hw).symm.trans hv)
        left
        simp only [Engine.on_disk, Engine.set_page, Engine.set_wbuf]
        rw [hq, update_self]
        refine ⟨by dsimp only; omega, Eq.trans (slice_congr fun i hi => ?_) hslice⟩
        have := hflushed (o.offset - (e.wbufs w).offset + i) (by omega)
        rw [← this, hoffset]
        dsimp only
        congr 1
        omega
      · have hvw : v ≠ w := fun he => hq (hb.one_page (he ▸ hv) hw)
        refine .inr ⟨v, ?_, ?_⟩
        · simp only [Engine.set_page, Engine.set_wbuf, update_of_ne hq]
          exact hv
        · simp only [Engine.set_page, Engine.set_wbuf, update_of_ne hvw]
          exact ⟨hlo, hhi, hslice⟩
  · cases he

/-! ## Opening and freeing -/

theorem Stored.open_page (h : Stored e) (ho : Owned e L) {free_bucket bucket : Nat} {e1 : Engine}
    (ht : e.take_free free_bucket = some (some p, e1)) (hallocs : e.stats.page_allocs < 2 ^ 32) :
    Stored (e1.open_page p bucket) := by
  obtain ⟨hfree, -⟩ := ho.take_free ht
  rw [take_free_rest ht]
  have hadd : add64 e.stats.page_allocs 1 = e.stats.page_allocs + 1 := Nat.mod_eq_of_lt (by omega)
  have hmono {v : Nat} (hv : Issued e.stats.page_allocs v) : Issued (add64 e.stats.page_allocs 1) v := by
    rw [hadd]
    exact hv.mono (Nat.le_succ _)
  refine ⟨h.range, fun o ho' hs => ?_, fun o ho' => hmono (h.issued o ho'), fun q hlt hq => ?_, ?_, fun x hx o ha => ?_,
    h.results⟩
  · by_cases hp : o.page_id = p
    · exfalso
      have hv := hs.2
      simp only [Engine.open_page, hp, update_self] at hv
      rw [h.next] at hv
      exact (h.issued o ho').fresh hallocs hv.symm
    · simp only [Engine.same_page, Engine.on_disk, Engine.in_wbuf, Engine.open_page, update_of_ne hp] at hs ⊢
      exact h.place o ho' hs
  · by_cases hp : q = p
    · subst hp
      simp only [Engine.open_page, update_self, hadd]
      rw [h.next]
      exact .new
    · simp only [Engine.open_page, update_of_ne hp] at hq ⊢
      exact hmono (h.used q hlt hq)
  · simp only [Engine.open_page, hadd]
    rw [h.next, Nat.mod_add_mod, Nat.add_assoc]
  · obtain ⟨hs, hd⟩ := h.reading x hx o ha
    have hp : o.page_id ≠ p := fun he => by
      have := hs.1
      rw [he, hfree] at this
      cases this
    simp only [Engine.same_page, Engine.on_disk, Engine.open_page, update_of_ne hp]
    exact ⟨hs, hd⟩

theorem Stored.free_page (h : Stored e) (hr : Readers e) {m : Maint} (href : (e.pages p).refcount = 0) :
    Stored { e.free_page p with maint := m } := by
  have hfreed := free_page_freed (e := e) (p := p)
  have hrest := hfreed.rest
  have hsame : (e.free_page p).wbufs = e.wbufs ∧ (e.free_page p).disk = e.disk ∧ (e.free_page p).objects = e.objects ∧
      (e.free_page p).stats.page_allocs = e.stats.page_allocs ∧ (e.free_page p).version = e.version ∧
      (e.free_page p).page_count = e.page_count := by
    rw [hrest]
    exact ⟨rfl, rfl, rfl, rfl, rfl, rfl⟩
  obtain ⟨hwbufs, hdisk, hobjects, hallocs, hversion, hcount⟩ := hsame
  have hother : (e.free_page p).results = e.results ∧ (e.free_page p).io_threads = e.io_threads ∧
      (e.free_page p).io_threadcount = e.io_threadcount := by
    rw [hrest]
    exact ⟨rfl, rfl, rfl⟩
  obtain ⟨hresults, hthreads, htc⟩ := hother
  have hfree : ((e.free_page p).pages p).free = true := by rw [hfreed.page]
  have hpage (q : Nat) (hq : q ≠ p) := hfreed.other q hq
  refine ⟨?_, fun o ho hs => ?_, ?_, fun q hlt hq => ?_, ?_, fun x hx o ha => ?_, ?_⟩
  · show ∀ o ∈ (e.free_page p).objects, o.page_id < (e.free_page p).page_count
    rw [hobjects, hcount]
    exact h.range
  · have hq : o.page_id ≠ p := fun he => by
      have hs : ((e.free_page p).pages o.page_id).free = false := hs.1
      rw [he, hfree] at hs
      cases hs
    have ho : o ∈ e.objects := hobjects ▸ ho
    simp only [Engine.same_page, Engine.on_disk, Engine.in_wbuf, hwbufs, hdisk] at hs ⊢
    rw [hpage _ hq] at hs ⊢
    exact h.place o ho hs
  · show ∀ o ∈ (e.free_page p).objects, Issued (e.free_page p).stats.page_allocs o.page_version
    rw [hobjects, hallocs]
    exact h.issued
  · have hq : ((e.free_page p).pages q).free = false := hq
    show Issued (e.free_page p).stats.page_allocs ((e.free_page p).pages q).version
    have hqp : q ≠ p := fun he => by
      rw [he, hfree] at hq
      cases hq
    rw [hpage q hqp] at hq ⊢
    rw [hallocs]
    exact h.used q (hcount ▸ hlt) hq
  · show (e.free_page p).version = (1 + (e.free_page p).stats.page_allocs) % 2 ^ 32
    rw [hversion, hallocs]
    exact h.next
  · have ha : e.at_io x .pread (.read o) := by
      unfold Engine.at_io at ha ⊢
      rwa [show ({ e.free_page p with maint := m } : Engine).io_threads = e.io_threads from hthreads] at ha
    have hx : x < e.io_threadcount := htc ▸ hx
    obtain ⟨hs, hd⟩ := h.reading x hx o ha
    have hq : o.page_id ≠ p := fun he => by
      have hpos := hr.pos hx (reading_of_at ha)
      rw [he, href] at hpos
      exact absurd hpos (by decide)
    simp only [Engine.same_page, Engine.on_disk, hdisk]
    rw [hpage _ hq]
    exact ⟨hs, hd⟩
  · show ∀ r ∈ (e.free_page p).results, ∀ bytes, r.2 = some bytes → r.1 ∈ (e.free_page p).objects ∧ bytes = r.1.bytes
    rw [hresults, hobjects]
    exact h.results

/-! ## Every action -/

theorem Stored.act (h : Stored e) (ho : Owned e L) (hb : Buffers S e) (hf : Flights e) (hr : Readers e)
    (hplaced : Placed e) (hcond : s.allocating ev → s.stats.page_allocs < 2 ^ 32) (hact : Act s ev e e') :
    Stored e' := by
  have same (e' : Engine) (hpages : e'.pages = e.pages) (hwbufs : e'.wbufs = e.wbufs) (hdisk : e'.disk = e.disk)
      (hobjects : e'.objects = e.objects) (hstats : e'.stats = e.stats) (hversion : e'.version = e.version)
      (hcount : e'.page_count = e.page_count) (htc : e'.io_threadcount = e.io_threadcount)
      (hthreads : e'.io_threads = e.io_threads) (hresults : e'.results = e.results) : Stored e' := by
    refine h.frame (fun _ => by rw [hpages]; exact ⟨rfl, rfl, rfl, rfl, rfl, rfl⟩) hwbufs hdisk hobjects (by rw [hstats])
      hversion hcount htc (fun x _ o ha => .inl ?_) fun r hr bytes hb => .inl (hresults ▸ hr)
    unfold Engine.at_io at ha ⊢
    rwa [hthreads] at ha
  cases hact with
  | writer hk => exact same _ rfl rfl rfl rfl rfl rfl rfl rfl rfl rfl
  | open_page hs hstats hbucket ht hfree => exact h.open_page ho ht (hstats ▸ hcond hs)
  | lose_page ht hfree =>
      rw [take_free_rest ht]
      exact same _ rfl rfl rfl rfl rfl rfl rfl rfl rfl rfl
  | submit_wbuf hw hfull hx he => exact h.submit_wbuf hb hf he
  | allocate_wbuf hu ha hw hsize => exact h.allocate_wbuf hb hf hw
  | write hev hstats hu ha hw hfull hlen => exact h.extstore_write hb hf hw
  | read hx ho => exact h.submit
  | @pull x hx hbatch =>
      refine h.set_thread fun o hp => ?_
      have hidle := hf.idle hbatch
      exact absurd (hp.symm.trans hidle) (by decide)
  | @miss x o hx hat hdead =>
      have hnone (bytes : List UInt8) (hb : none = some bytes) : o ∈ e.objects ∧ bytes = o.bytes := by cases hb
      exact (h.answer hnone).finish
  | hit hx hat hlive ha hbytes =>
      have hmem := hf.read_mem hat
      refine (h.answer fun bytes' hb' => ?_).finish
      obtain rfl := Option.some.inj hb'
      exact ⟨hmem, h.hit hlive hmem ha.2 hbytes⟩
  | start_pread hx hat hlive ha => exact h.start_pread hb hat (hf.read_mem hat) hlive ha
  | pread hx hat => exact h.pread hx (hf.read_mem hat) hat
  | @release x o hx hat =>
      refine Stored.finish ?_
      exact h.set_page (p := o.page_id) rfl ⟨rfl, rfl, rfl, rfl, rfl, rfl⟩ rfl rfl rfl rfl rfl rfl rfl rfl rfl
  | pwrite hx hat => exact h.pwrite hplaced hb hf hat
  | callback hx hat he => exact h.callback hb hf hat he
  | @delete p page_version count bytes hev hs hp =>
      unfold Engine.extstore_delete
      dsimp only
      split
      · exact h.set_page (p := p) rfl ⟨rfl, rfl, rfl, rfl, rfl, rfl⟩ rfl rfl rfl rfl rfl rfl rfl rfl rfl
      · exact h
  | close p => exact h.set_page (p := p) rfl ⟨rfl, rfl, rfl, rfl, rfl, rfl⟩ rfl rfl rfl rfl rfl rfl rfl rfl rfl
  | free_page hm href hpage hlow => exact h.free_page hr href
  | maint hpage hlow => exact same _ rfl rfl rfl rfl rfl rfl rfl rfl rfl rfl

end Memcached.Exstore

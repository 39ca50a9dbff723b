import Memcached.Exstore.Lemmas.Objects
import Memcached.Exstore.PageTheorems

/-!
# A read returns what was written

As long as no version is given out twice, a read of an object returns its bytes or misses, wherever the object is, and
the assertions of the flush callback hold. The versions are of 32 bits and wrap.
-/

namespace Memcached.Exstore

open Function (update update_self update_of_ne)
open Ownership (Apart)
open Transition (Run)

variable {fh : List ConfFile} {cf : Conf} {s e e' : Engine} {ev : Event} {es : List Event} {L : Place → List Nat} {S : Nat}

/-- What holds between any two actions. -/
structure Sound (S : Nat) (e : Engine) : Prop where
  owned : ∃ L, Owned e L
  buffers : Buffers S e
  flights : Flights e
  readers : Readers e
  placed : Placed e

/-! ## Where the pages lie -/

theorem Placed.of_eq (h : Placed e) (hpages : ∀ p, (e'.pages p).fd = (e.pages p).fd ∧ (e'.pages p).offset = (e.pages p).offset)
    (hcount : e'.page_count = e.page_count) (hsize : e'.page_size = e.page_size) : Placed e' := by
  intro p q hp hq hne hfd
  rw [(hpages p).1, (hpages q).1] at hfd
  rw [(hpages p).2, (hpages q).2, hsize]
  exact h p q (hcount ▸ hp) (hcount ▸ hq) hne hfd

theorem Placed.act (h : Placed e) (hact : Act s ev e e') : Placed e' := by
  rcases hact.framed with hframe | ⟨_, p, bucket, e1, _, _, ht, _, _, rfl⟩ | ⟨_, p, ht, _⟩ | ⟨p, m, _, _, _, rfl⟩ |
    ⟨m, _, _, rfl⟩
  · exact h.of_eq (fun p => ⟨(hframe.pages p).fd, (hframe.pages p).offset⟩) hframe.page_count hframe.page_size
  · rw [take_free_rest ht]
    refine h.of_eq (fun q => ?_) rfl rfl
    by_cases hq : q = p
    · subst hq
      simp [Engine.open_page]
    · simp [Engine.open_page, hq]
  · rw [take_free_rest ht]
    exact h.of_eq (fun _ => ⟨rfl, rfl⟩) rfl rfl
  · have hf := free_page_freed (e := e) (p := p)
    have hrest : (e.free_page p).page_count = e.page_count ∧ (e.free_page p).page_size = e.page_size := by
      rw [hf.rest]
      exact ⟨rfl, rfl⟩
    refine h.of_eq (fun q => ?_) hrest.1 hrest.2
    show ((e.free_page p).pages q).fd = _ ∧ ((e.free_page p).pages q).offset = _
    by_cases hq : q = p
    · subst hq
      rw [hf.page]
      exact ⟨rfl, rfl⟩
    · rw [hf.other q hq]
      exact ⟨rfl, rfl⟩
  · exact h

theorem Sound.act (h : Sound S e) (hact : Act s ev e e') : Sound S e' := by
  obtain ⟨L, ho⟩ := h.owned
  exact ⟨ho.act hact, h.buffers.act ho hact, h.flights.act h.buffers h.placed hact, h.readers.act h.flights hact,
    h.placed.act hact⟩

/-! ## From the start -/

/-- No file is configured twice. -/
def Distinct (fh : List ConfFile) : Prop := (fh.map ConfFile.file).Nodup

theorem same_file {i j : Nat} {c c' : ConfFile} (hfiles : Distinct fh) (hi : fh[i]? = some c) (hj : fh[j]? = some c')
    (hfile : c.file = c'.file) : i = j := by
  obtain ⟨hi, rfl⟩ := List.getElem?_eq_some_iff.mp hi
  obtain ⟨hj, rfl⟩ := List.getElem?_eq_some_iff.mp hj
  have hi' : i < (fh.map ConfFile.file).length := by rwa [List.length_map]
  have hj' : j < (fh.map ConfFile.file).length := by rwa [List.length_map]
  have heq : (fh.map ConfFile.file)[i] = (fh.map ConfFile.file)[j] := by simpa using hfile
  exact hfiles.getElem_inj_iff.mp heq

theorem Laid.placed {page_size n : Nat} {d : Devices} {dev : Nat → Nat} (h : Laid fh page_size n d dev)
    (hfiles : Distinct fh) {p q : Nat} (hp : p < n) (hq : q < n) (hne : p ≠ q)
    (hfd : (d.pages p).fd = (d.pages q).fd) :
    (d.pages p).offset + page_size ≤ (d.pages q).offset ∨ (d.pages q).offset + page_size ≤ (d.pages p).offset := by
  obtain ⟨c, hc, hcp⟩ := h.page p hp
  obtain ⟨c', hc', hcq⟩ := h.page q hq
  have hdev : dev p = dev q := same_file hfiles hc hc' (by rw [hcp, hcq] at hfd; exact hfd)
  rcases Nat.lt_or_gt_of_ne hne with hlt | hlt
  · exact .inl (h.apart p q hlt hq hdev)
  · exact .inr (h.apart q p hlt hp hdev.symm)

theorem extstore_init_sound (h : extstore_init fh cf = some (.ok e)) (hfiles : Distinct fh) :
    Sound cf.wbuf_size.toNat e ∧ Stored e := by
  have howned := extstore_init_owned h
  have hbuffers := extstore_init_buffers h
  obtain ⟨page_count, d, dev, hlaid, hpage, hrest⟩ := extstore_init_pages h
  refine ⟨⟨howned, hbuffers, ⟨?_, fun x io hio => ?_, fun x => ?_, fun x p w offset len ha => ?_⟩, fun p => ?_,
    fun p q hp hq hne hfd => ?_⟩, ?_, ?_, ?_, fun p hlt hp => ?_, ?_, fun x hx o ha => ?_, ?_⟩
  · rw [hrest]
    exact ⟨fun _ => List.nodup_nil, fun hx => nomatch hx⟩
  · rw [hrest] at hio
    exact nomatch hio
  · rw [hrest]
    trivial
  · rw [hrest] at ha
    exact nomatch ha.2
  · rw [hpage p, hrest]
    exact (Finset.sum_eq_zero fun _ _ => rfl).symm
  · rw [hpage p, hpage q] at hfd ⊢
    rw [hrest] at hp hq ⊢
    exact hlaid.placed hfiles hp hq hne hfd
  · rw [hrest]
    exact fun o ho => nomatch ho
  · rw [hrest]
    exact fun o ho => nomatch ho
  · rw [hrest]
    exact fun o ho => nomatch ho
  · rw [hpage p] at hp
    rw [hrest] at hlt
    obtain ⟨c, -, hc⟩ := hlaid.page p hlt
    rw [hc] at hp
    cases hp
  · rw [hrest]
    rfl
  · rw [hrest] at ha
    exact nomatch ha.2
  · rw [hrest]
    exact fun r hr => nomatch hr

/-! ## Every run -/

/-- A step that gives out no more than 2^32 versions in all. -/
def VersionedStep (e : Engine) (ev : Event) (e' : Engine) : Prop :=
  Step e ev e' ∧ (e.allocating ev → e.stats.page_allocs < 2 ^ 32)

theorem run_stored (h : extstore_init fh cf = some (.ok e)) (hfiles : Distinct fh) (hrun : Run VersionedStep e es e') :
    Sound cf.wbuf_size.toNat e' ∧ Stored e' := by
  refine hrun.invariant (P := fun e => Sound cf.wbuf_size.toNat e ∧ Stored e) (fun hs hstep => ?_)
    (extstore_init_sound h hfiles)
  refine step_rule (P := fun e => Sound cf.wbuf_size.toNat e ∧ Stored e) hstep.1 (fun hact ⟨hsound, hstored⟩ => ?_) hs
  obtain ⟨L, ho⟩ := hsound.owned
  exact ⟨hsound.act hact,
    hstored.act ho hsound.buffers hsound.flights hsound.readers hsound.placed hstep.2 hact⟩

/-- Each read of an object returns its bytes or misses, and the callback of each flush finds its buffer at its page,
where the page was written up to. -/
theorem read_your_writes (h : extstore_init fh cf = some (.ok e)) (hfiles : Distinct fh)
    (hrun : Run VersionedStep e es e') :
    (∀ o bytes, (o, some bytes) ∈ e'.results → bytes = o.bytes) ∧
    ∀ x p w offset len, e'.at_io x .callback (.write p w offset len) → ∃ e'', e'.wbuf_cb p w = some e'' := by
  obtain ⟨hsound, hstored⟩ := run_stored h hfiles hrun
  refine ⟨fun o bytes hr => (hstored.results _ hr bytes rfl).2, fun x p w offset len hat => ?_⟩
  exact hsound.flights.callback_ok hsound.buffers hat

theorem two_pages_distinct : Distinct two_pages := List.nodup_singleton _

/-- A byte written and read back. -/
theorem read_your_writes_witness : ∃ e es e', extstore_init two_pages small_conf = some (.ok e) ∧
    Run VersionedStep e es e' ∧ (⟨1, 1, 0, [7]⟩, some [7]) ∈ e'.results ∧
    (∀ o bytes, (o, some bytes) ∈ e'.results → bytes = o.bytes) ∧
    ∀ x p w offset len, e'.at_io x .callback (.write p w offset len) → ∃ e'', e'.wbuf_cb p w = some e'' := by
  let ok (e : Engine) (ev : Event) : Bool := !e.allocating ev || decide (e.stats.page_allocs < 2 ^ 32)
  let es : List Event := [.write_request 0 0 0 [7], .write 0 0, .read 0 ⟨1, 1, 0, [7]⟩, .pull 0, .io 0]
  have hresults : (run ok two_pages small_conf es).map Engine.results = some [(⟨1, 1, 0, [7]⟩, some [7])] := by decide
  obtain ⟨e', he', hr⟩ := Option.map_eq_some_iff.mp hresults
  obtain ⟨e, he, hrun⟩ := run_eq he'
  have hrun : Run VersionedStep e es e' := hrun.mono fun {e ev e'} hstep => ⟨hstep.1, fun ha => by
    simpa [ok, ha] using hstep.2⟩
  exact ⟨e, es, e', he, hrun, by simp [hr], read_your_writes he two_pages_distinct hrun⟩

/-! ## The versions wrap

A cycle gives page 1 a version, writes a byte to it, fills it up and evicts it. After 2^32 cycles the page gets the
version of the first again, and a read of what was written then returns what is written now. -/

/-- What the cycle does not look at. -/
structure Backdrop where
  pages : Nat → Page
  wbufs : Nat → Wbuf
  io_threads : Nat → IoThread
  page_buckets : Nat → Option Nat
  free_page_buckets : Nat → Option Nat
  writers : Nat → Writer
  size : Nat

/-- What it changes. -/
structure Scene where
  page : Page
  wbuf : Wbuf
  wbuf_stack : List Nat
  io_stack : Nat
  thread : IoThread
  page_freelist : Option Nat
  bucket : Option Nat
  version : Nat
  page_free : Nat
  stats : Stats
  disk : Nat → Nat → UInt8
  writer : Writer
  maint : Maint
  objects : List Obj
  results : List (Obj × Option (List UInt8))

/-- Two pages, one bucket, one buffer as large as a page, one thread. -/
def Scene.engine (b : Backdrop) (c : Scene) : Engine where
  pages := update b.pages 1 c.page
  wbufs := update b.wbufs 0 c.wbuf
  wbuf_stack := c.wbuf_stack
  io_stack := c.io_stack
  io_threads := update b.io_threads 0 c.thread
  page_freelist := c.page_freelist
  page_buckets := update b.page_buckets 0 c.bucket
  free_page_buckets := b.free_page_buckets
  page_size := b.size
  version := c.version
  io_threadcount := 1
  page_count := 2
  page_free := c.page_free
  page_bucketcount := 1
  io_depth := 1
  stats := c.stats
  disk := c.disk
  writers := update b.writers 0 c.writer
  maint := c.maint
  objects := c.objects
  results := c.results

def page_at_rest (n : Nat) : Page := { Page.zero with offset := n, free := true }

/-- Page 1 is free, and nothing is under way. -/
structure Scene.Resting (c : Scene) (n : Nat) : Prop where
  page : c.page = page_at_rest n
  size : c.wbuf.size = n
  wbuf_stack : c.wbuf_stack = [0]
  io_stack : c.io_stack = 1
  thread : c.thread = ⟨[], [], .next⟩
  freelist : c.page_freelist = some 1
  bucket : c.bucket = none
  page_free : c.page_free = 1
  writer : c.writer = .idle
  maint : c.maint = .waiting

variable {b : Backdrop} {c : Scene}

def used_page (n v : Nat) : Page :=
  { page_at_rest n with
    version := v, active := true, free := false, allocated := n, wbuf := some 0, bytes_used := 1, obj_count := 1 }

/-- One object of one byte in the buffer. -/
def Scene.filled (c : Scene) (n : Nat) (y : UInt8) : Scene :=
  { c with
    page := used_page n c.version
    wbuf := ⟨blit c.wbuf.buf 0 [y], 1, n - 1, n, 0, false, false⟩
    wbuf_stack := [], page_freelist := none, bucket := some 1, version := (c.version + 1) % 2 ^ 32, page_free := 0
    stats := ⟨add64 c.stats.page_allocs 1, add64 c.stats.objects_used 1, add64 c.stats.bytes_used 1⟩
    objects := ⟨1, c.version, 0, [y]⟩ :: c.objects }

theorem Scene.Resting.fill (h : c.Resting b.size) (hpos : 0 < b.size) (y : UInt8) :
    [Event.write_request 0 0 0 [y], .write 0 0].foldlM Engine.step (c.engine b) =
      some ((c.filled b.size y).engine b) := by
  obtain ⟨hpage, hsize, hstack, hio, hth, hfl, hb, hpf, hw, hm⟩ := h
  have hone : 1 ≤ b.size := hpos
  have hne : b.size ≠ 0 := Nat.pos_iff_ne_zero.mp hpos
  simp [Scene.engine, Scene.filled, used_page, Engine.step, Engine.write_request, Engine.allocate_page, Engine.take_free,
    Engine.open_page, Engine.write, Engine.write_section, Engine.submit_full, Engine.new_wbuf, Engine.allocate_wbuf,
    Engine.extstore_write, Engine.set_page, Engine.set_wbuf, Engine.unlocked, Engine.set_writer, hpage, hsize, hstack,
    hio, hth, hfl, hb, hpf, hw, hm, page_at_rest, Page.zero, add64, hpos, hone, hne]

/-- The buffer is on disk, and the page is full. -/
def Scene.flushed (c : Scene) (n : Nat) (y : UInt8) : Scene :=
  let buf := blit (blit c.wbuf.buf 0 [y]) (n - (n - 1)) (List.replicate (n - 1) 0)
  { c.filled n y with
    page := { used_page n c.version with written := n, wbuf := none, active := false }
    wbuf := ⟨buf, 1, n - 1, n, 0, true, true⟩
    wbuf_stack := [0]
    disk := update c.disk 0 (blit (c.disk 0) n (slice buf 0 n)) }

theorem Scene.Resting.flush (h : c.Resting b.size) (hpos : 0 < b.size) (hlt : b.size < 4294967296) (y : UInt8)
    {big : List UInt8} (hbig : big.length = b.size) :
    [Event.write_request 0 0 0 big, .write 0 0, .pull 0, .io 0, .io 0].foldlM Engine.step
      ((c.filled b.size y).engine b) = some ((c.flushed b.size y).engine b) := by
  obtain ⟨hpage, hsize, hstack, hio, hth, hfl, hb, hpf, hw, hm⟩ := h
  have hless : b.size - 1 < b.size := by omega
  simp [Scene.engine, Scene.filled, Scene.flushed, used_page, Engine.step, Engine.write_request, Engine.write, Engine.write_section,
    Engine.submit_full, Engine.submit_wbuf, Engine.submit, Engine.set_thread, Engine.new_wbuf, Engine.set_page,
    Engine.set_wbuf, Engine.pull, Engine.io, Engine.pwrite, Engine.set_phase, Engine.finish, Engine.wbuf_cb,
    Engine.unlocked, Engine.set_writer, hio, hth, hw, hm, hbig, page_at_rest, Page.zero, hless, hlt]

/-- The page is evicted. -/
def Scene.emptied (c : Scene) (n : Nat) (y : UInt8) : Scene :=
  { c.flushed n y with
    page := page_at_rest n, bucket := none, page_freelist := some 1, page_free := 1
    stats := ⟨add64 c.stats.page_allocs 1, sub64 (add64 c.stats.objects_used 1) 1,
      sub64 (add64 c.stats.bytes_used 1) 1⟩ }

theorem Scene.Resting.scan (h : c.Resting b.size) (hfree : (b.pages 0).free = true)
    (hactive : (b.pages 0).active = false) (y : UInt8) :
    [Event.maint, .maint, .maint, .maint, .maint].foldlM Engine.step ((c.flushed b.size y).engine b) =
      some (Scene.engine b { c.flushed b.size y with maint := .scanning 2 true (some (c.version, 1)) }) := by
  have hm := h.maint
  simp [Scene.engine, Scene.filled, Scene.flushed, used_page, Engine.step, Engine.maint_step, Engine.maint_page, hfree,
    hactive, hm, page_at_rest, Page.zero]

theorem Scene.Resting.evict (h : c.Resting b.size) (y : UInt8) :
    Engine.step (Scene.engine b { c.flushed b.size y with maint := .scanning 2 true (some (c.version, 1)) }) .maint =
      some ((c.emptied b.size y).engine b) := by
  have hm := h.maint
  simp [Scene.engine, Scene.filled, Scene.flushed, Scene.emptied, used_page, Engine.step, Engine.maint_step,
    Engine.evict, Engine.free_page, Engine.unlink, Engine.find_prev, Engine.push_free, Engine.set_page, hm,
    page_at_rest, Page.zero]

theorem Scene.Resting.emptied (h : c.Resting b.size) (y : UInt8) : (c.emptied b.size y).Resting b.size :=
  ⟨rfl, rfl, rfl, h.io_stack, h.thread, rfl, rfl, rfl, h.writer, h.maint⟩

/-- What the cycles need of the configuration. -/
structure Backdrop.Fits (b : Backdrop) : Prop where
  pos : 0 < b.size
  lt : b.size < 4294967296
  free : (b.pages 0).free = true
  active : (b.pages 0).active = false

theorem Scene.Resting.cycle (h : c.Resting b.size) (hb : b.Fits) (y : UInt8) :
    ∃ es, Run Step (c.engine b) es ((c.emptied b.size y).engine b) := by
  have hbig : (List.replicate b.size (0 : UInt8)).length = b.size := List.length_replicate
  have h1 := Run.of_foldlM (h.fill hb.pos y)
  have h2 := Run.of_foldlM (h.flush hb.pos hb.lt y hbig)
  have h3 := Run.of_foldlM (h.scan hb.free hb.active y)
  exact ⟨_, ((h1.append h2).append h3).snoc (h.evict y)⟩

theorem Scene.Resting.cycles (h : c.Resting b.size) (hb : b.Fits) (y : UInt8) (hv : c.version < 2 ^ 32) (n : Nat) :
    ∃ (es : List Event) (c' : Scene), Run Step (c.engine b) es (c'.engine b) ∧ c'.Resting b.size ∧ c'.version = (c.version + n) % 2 ^ 32 ∧
      c.objects ⊆ c'.objects := by
  induction n with
  | zero => exact ⟨[], c, .nil _, h, (Nat.mod_eq_of_lt hv).symm, List.Subset.refl _⟩
  | succ n ih =>
      obtain ⟨es, c', hrun, hrest, hversion, hsub⟩ := ih
      obtain ⟨es', hrun'⟩ := hrest.cycle hb y
      refine ⟨es ++ es', c'.emptied b.size y, hrun.append hrun', hrest.emptied y, ?_, fun o ho => ?_⟩
      · show (c'.version + 1) % 2 ^ 32 = _
        rw [hversion, Nat.mod_add_mod, Nat.add_assoc]
      · exact List.mem_cons_of_mem _ (hsub ho)

theorem Scene.Resting.read_back (h : c.Resting b.size) (hpos : 0 < b.size) (y z : UInt8)
    (ho : ⟨1, c.version, 0, [z]⟩ ∈ c.objects) :
    ∃ e', [Event.read 0 ⟨1, c.version, 0, [z]⟩, .pull 0, .io 0].foldlM Engine.step ((c.filled b.size y).engine b) =
      some e' ∧ (⟨1, c.version, 0, [z]⟩, some [y]) ∈ e'.results := by
  obtain ⟨hpage, hsize, hstack, hio, hth, hfl, hb, hpf, hw, hm⟩ := h
  simp [Scene.engine, Scene.filled, used_page, Engine.step, Engine.submit, Engine.set_thread, Engine.pull, Engine.io,
    Engine.read_section, Engine.read_from_wbuf, Engine.answer, Engine.finish, Engine.unlocked, hth, hm, ho,
    page_at_rest, Page.zero, hpos, slice, blit]

/-- The byte that was written first under version 1 is read back as the one written after the versions wrapped. -/
theorem stale_version_read : ∃ e es e', extstore_init two_pages small_conf = some (.ok e) ∧ Distinct two_pages ∧
    Run Step e es e' ∧ (⟨1, 1, 0, [7]⟩, some [9]) ∈ e'.results := by
  obtain ⟨e, he⟩ := Option.isSome_iff_exists.mp
    (by decide : (run (fun _ _ => true) two_pages small_conf []).isSome)
  have hpages : (run (fun _ _ => true) two_pages small_conf []).map (fun e =>
      (e.pages 1, (e.pages 0).free, (e.pages 0).active, e.page_buckets 0, e.page_freelist, e.page_free)) =
        some (page_at_rest (2 ^ 21), true, false, none, some 1, 1) := rfl
  have hrest : (run (fun _ _ => true) two_pages small_conf []).map (fun e =>
      ((e.wbufs 0).size, e.wbuf_stack, e.io_stack, e.io_threads 0, e.writers 0, e.maint, e.version)) =
        some (2 ^ 21, [0], 1, ⟨[], [], .next⟩, .idle, .waiting, 1) := rfl
  have hconf : (run (fun _ _ => true) two_pages small_conf []).map (fun e =>
      (e.page_size, e.io_threadcount, e.page_count, e.page_bucketcount, e.io_depth)) =
        some (2 ^ 21, 1, 2, 1, 1) := rfl
  rw [he] at hpages hrest hconf
  simp only [Option.map_some, Option.some.injEq, Prod.mk.injEq] at hpages hrest hconf
  obtain ⟨hpage, hfree, hactive, hbucket, hfreelist, hpage_free⟩ := hpages
  obtain ⟨hwbuf, hstack, hio_stack, hthread, hwriter, hmaint, hversion⟩ := hrest
  obtain ⟨hsize, htc, hcount, hbuckets, hdepth⟩ := hconf
  obtain ⟨e0, he0, hrun0⟩ := run_eq he
  cases hrun0
  let b : Backdrop := ⟨e.pages, e.wbufs, e.io_threads, e.page_buckets, e.free_page_buckets, e.writers, e.page_size⟩
  let c : Scene := ⟨e.pages 1, e.wbufs 0, e.wbuf_stack, e.io_stack, e.io_threads 0, e.page_freelist, e.page_buckets 0,
    e.version, e.page_free, e.stats, e.disk, e.writers 0, e.maint, e.objects, e.results⟩
  have heq : c.engine b = e := by
    cases e
    simp only at htc hcount hbuckets hdepth
    subst htc hcount hbuckets hdepth
    simp [Scene.engine, b, c]
  have hb : b.Fits := ⟨by simp [b, hsize], by simp [b, hsize], hfree, hactive⟩
  have hc : c.Resting b.size :=
    ⟨hpage.trans (congrArg page_at_rest hsize.symm), hwbuf.trans hsize.symm, hstack, hio_stack, hthread, hfreelist, hbucket, hpage_free, hwriter, hmaint⟩
  obtain ⟨es1, hrun1⟩ := hc.cycle hb 7
  have hc1 := hc.emptied (b := b) 7
  have hversion1 : (c.emptied b.size 7).version = 2 := by
    show (c.version + 1) % 2 ^ 32 = 2
    rw [show c.version = 1 from hversion]
    rfl
  obtain ⟨es2, c2, hrun2, hc2, hversion2, hsub⟩ := hc1.cycles hb 9 (by rw [hversion1]; decide) (2 ^ 32 - 1)
  have hversion2 : c2.version = 1 := by
    rw [hversion2, hversion1]
    rfl
  have hobject : ⟨1, c2.version, 0, [7]⟩ ∈ c2.objects := by
    refine hsub ?_
    rw [hversion2]
    show _ ∈ (⟨1, c.version, 0, [7]⟩ : Obj) :: c.objects
    rw [show c.version = 1 from hversion]
    exact List.mem_cons_self
  have hrun3 := Run.of_foldlM (hc2.fill hb.pos 9)
  obtain ⟨e', hread, hresult⟩ := hc2.read_back hb.pos 9 7 hobject
  rw [hversion2] at hread hresult
  rw [heq] at hrun1
  exact ⟨e, _, e', he0, two_pages_distinct, ((hrun1.append hrun2).append hrun3).append (Run.of_foldlM hread), hresult⟩

end Memcached.Exstore

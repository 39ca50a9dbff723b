import Mathlib.Data.UInt
import Mathlib.Logic.Function.Basic
import Memcached.Lib.Run

/-!
# The storage engine of exstore/extstore.c

Pages of the files are filled through write buffers, flushed by the io threads, read by the io threads from the buffer
or the file, and freed by the maintenance thread. A step of a thread is one section under the lock of a page or of the
engine, one read or write of a file, or one call of the library. Pages, buffers and threads are numbered; a file is
named by its place in the configuration, and the files are different ones. All reads and writes of files succeed in
full. A failed assertion and a null pointer end the run. Of the statistics those are kept that the code relies on.
-/

namespace Memcached.Exstore

open Function (update)

/-- The counters of the engine are of 64 bits, and wrap. -/
def add64 (a b : Nat) : Nat := (a + b) % 2 ^ 64

def sub64 (a b : Nat) : Nat := (a + (2 ^ 64 - b % 2 ^ 64)) % 2 ^ 64

/-! ## Data -/

/-- `_store_wbuf`; `buf_pos` is counted from `buf`. -/
structure Wbuf where
  buf : Nat → UInt8
  buf_pos : Nat
  free : Nat
  size : Nat
  offset : Nat
  full : Bool
  flushed : Bool

/-- `store_page`. -/
structure Page where
  obj_count : Nat
  bytes_used : Nat
  offset : Nat
  version : Nat
  refcount : Nat
  allocated : Nat
  written : Nat
  bucket : Nat
  free_bucket : Nat
  fd : Nat
  active : Bool
  closed : Bool
  free : Bool
  wbuf : Option Nat
  next : Option Nat
  deriving DecidableEq

structure Stats where
  page_allocs : Nat
  objects_used : Nat
  bytes_used : Nat

/-- An object that was written, and where `extstore_write` said it is. -/
structure Obj where
  page_id : Nat
  page_version : Nat
  offset : Nat
  bytes : List UInt8
  deriving DecidableEq

/-- An `obj_io` in a queue: a read of as many bytes as `o` has, where `o` is, or the flush of a write buffer. -/
inductive Io
  | read (o : Obj)
  | write (page_id data offset len : Nat)
  deriving DecidableEq

/-- Where an io thread is with the first io of its batch. -/
inductive IoPhase
  | next
  | pread
  | release
  | callback
  deriving DecidableEq

structure IoThread where
  queue : List Io
  batch : List Io
  phase : IoPhase
  deriving DecidableEq

/-- Where a thread is in `extstore_write_request`. -/
inductive Writer
  | idle
  | requested (page_id bucket free_bucket : Nat) (bytes : List UInt8)
  | page_full (bucket free_bucket : Nat)
  deriving DecidableEq

/-- Where the maintenance thread is: about to lock page `i`, or holding its lock with `active` read as false. -/
inductive Maint
  | waiting
  | scanning (i : Nat) (do_evict : Bool) (low : Option (Nat × Nat))
  | locked (i : Nat) (do_evict : Bool) (low : Option (Nat × Nat))
  deriving DecidableEq

/-- `store_engine` and its threads. `io_stack` counts the idle `obj_io`s. `objects` and `results` record what was
written and what each read returned. -/
structure Engine where
  pages : Nat → Page
  wbufs : Nat → Wbuf
  wbuf_stack : List Nat
  io_stack : Nat
  io_threads : Nat → IoThread
  page_freelist : Option Nat
  page_buckets : Nat → Option Nat
  free_page_buckets : Nat → Option Nat
  page_size : Nat
  version : Nat
  io_threadcount : Nat
  page_count : Nat
  page_free : Nat
  page_bucketcount : Nat
  io_depth : Nat
  stats : Stats
  disk : Nat → Nat → UInt8
  writers : Nat → Writer
  maint : Maint
  objects : List Obj
  results : List (Obj × Option (List UInt8))

inductive Event
  | write_request (t bucket free_bucket : Nat) (bytes : List UInt8)
  | write (t x : Nat)
  | read (x : Nat) (o : Obj)
  | pull (x : Nat)
  | io (x : Nat)
  | delete (page_id page_version : Nat) (count bytes : UInt32)
  | close_page (page_id page_version : Nat)
  | maint
  deriving DecidableEq

/-- `bytes` written over `f` from `pos` on. -/
def blit {α : Type} (f : Nat → α) (pos : Nat) (bytes : List α) : Nat → α :=
  fun i => if pos ≤ i then (bytes[i - pos]?).getD (f i) else f i

/-- `len` bytes of `f` from `pos` on. -/
def slice {α : Type} (f : Nat → α) (pos len : Nat) : List α := (List.range len).map fun i => f (pos + i)

namespace Engine

variable (e : Engine)

def set_page (p : Nat) (pg : Page) : Engine := { e with pages := update e.pages p pg }

def set_wbuf (w : Nat) (b : Wbuf) : Engine := { e with wbufs := update e.wbufs w b }

def set_thread (x : Nat) (th : IoThread) : Engine := { e with io_threads := update e.io_threads x th }

def set_writer (t : Nat) (k : Writer) : Engine := { e with writers := update e.writers t k }

/-- The maintenance thread does not hold the lock of page `p`. -/
def unlocked (p : Nat) : Bool :=
  match e.maint with
  | .locked i _ _ => i ≠ p
  | _ => true

/-! ## Pages -/

/-- The page `_allocate_page` takes off a free list; `none` if an assertion fails or the bucket does not exist. -/
def take_free (free_bucket : Nat) : Option (Option Nat × Engine) :=
  if free_bucket ≠ 0 ∧ e.page_bucketcount ≤ free_bucket then none
  else match if free_bucket = 0 then none else e.free_page_buckets free_bucket with
    | some tmp =>
        if e.page_free = 0 then none
        else some (some tmp, { e with
          free_page_buckets := update e.free_page_buckets free_bucket (e.pages tmp).next })
    | none =>
        match e.page_freelist with
        | some tmp => some (some tmp, { e with page_freelist := (e.pages tmp).next })
        | none => some (none, e)

/-- `tmp` becomes the page that `bucket` writes to; `_next_version` gives it its version. -/
def open_page (tmp bucket : Nat) : Engine :=
  { e with
    pages := update e.pages tmp { e.pages tmp with
      next := e.page_buckets bucket
      active := true
      free := false
      closed := false
      version := e.version
      bucket := bucket }
    page_buckets := update e.page_buckets bucket (some tmp)
    version := (e.version + 1) % 2 ^ 32
    page_free := e.page_free - 1
    stats := { e.stats with page_allocs := add64 e.stats.page_allocs 1 } }

/-- `_allocate_page`. -/
def allocate_page (bucket free_bucket : Nat) : Option (Option Nat × Engine) :=
  if (e.page_buckets bucket).any fun q => (e.pages q).allocated ≠ e.page_size then none
  else match e.take_free free_bucket with
    | none => none
    | some (none, e) => some (none, e)
    | some (some tmp, e) => some (some tmp, if e.page_free > 0 then e.open_page tmp bucket else e)

/-- The loop of `_free_page` over a bucket: the page before `p`, if `p` is found. -/
def find_prev (p : Nat) : Nat → Option Nat → Option Nat → Option (Option Nat)
  | 0, _, _ => none
  | _, _, none => none
  | n + 1, prev, some tmp => if tmp = p then some prev else find_prev p n (some tmp) (e.pages tmp).next

def unlink (p : Nat) : Engine :=
  let b := (e.pages p).bucket
  match e.find_prev p (e.page_count + 1) none (e.page_buckets b) with
  | none => e
  | some none =>
      { e with page_buckets := update e.page_buckets b (e.pages p).next }.set_page p { e.pages p with next := none }
  | some (some prev) =>
      let e := e.set_page prev { e.pages prev with next := (e.pages p).next }
      e.set_page p { e.pages p with next := none }

def push_free (p : Nat) : Engine :=
  let fb := (e.pages p).free_bucket
  if fb ≠ 0 then
    { e with free_page_buckets := update e.free_page_buckets fb (some p) }.set_page p
      { e.pages p with next := e.free_page_buckets fb }
  else { e with page_freelist := some p }.set_page p { e.pages p with next := e.page_freelist }

/-- `_free_page`. -/
def free_page (p : Nat) : Engine :=
  let pg := e.pages p
  let stats := { e.stats with
    objects_used := sub64 e.stats.objects_used pg.obj_count
    bytes_used := sub64 e.stats.bytes_used pg.bytes_used }
  let e := { e with stats := stats }.unlink p
  let e := e.set_page p { e.pages p with
    version := 0, obj_count := 0, bytes_used := 0, allocated := 0, written := 0, bucket := 0
    active := false, closed := false, free := true }
  let e := e.push_free p
  { e with page_free := e.page_free + 1 }

/-! ## Write buffers -/

def submit (x : Nat) (io : Io) : Engine :=
  e.set_thread x { e.io_threads x with queue := (e.io_threads x).queue ++ [io] }

/-- `_submit_wbuf`, to the thread that `_get_io_thread` picks. -/
def submit_wbuf (p w x : Nat) : Option Engine :=
  if e.io_stack = 0 then none
  else
    let b := e.wbufs w
    let e := { e with io_stack := e.io_stack - 1 }
    let e := e.set_wbuf w { b with buf := blit b.buf (b.size - b.free) (List.replicate b.free 0) }
    some (e.submit x (.write p w b.offset b.size))

/-- `_allocate_wbuf` of a page without one. -/
def allocate_wbuf (p : Nat) : Engine :=
  match e.wbuf_stack with
  | [] => e
  | w :: rest =>
      let pg := e.pages p
      let b := e.wbufs w
      let e := { e with wbuf_stack := rest }
      let e := e.set_wbuf w { b with offset := pg.allocated, free := b.size, buf_pos := 0, full := false, flushed := false }
      e.set_page p { pg with allocated := pg.allocated + b.size, wbuf := some w }

/-- The caller copies the object into the buffer, and `extstore_write`. -/
def extstore_write (p w : Nat) (bytes : List UInt8) : Engine :=
  let b := e.wbufs w
  let pg := e.pages p
  let len := bytes.length
  let o : Obj := ⟨p, pg.version, b.offset + (b.size - b.free), bytes⟩
  let e := e.set_wbuf w { b with buf := blit b.buf b.buf_pos bytes, buf_pos := b.buf_pos + len, free := b.free - len }
  let e := e.set_page p { pg with bytes_used := add64 pg.bytes_used len, obj_count := add64 pg.obj_count 1 }
  { e with
    stats := { e.stats with
      bytes_used := add64 e.stats.bytes_used len, objects_used := add64 e.stats.objects_used 1 }
    objects := o :: e.objects }

/-! ## `extstore_write_request` -/

/-- The first section: the page that the bucket writes to. -/
def write_request (t bucket free_bucket : Nat) (bytes : List UInt8) : Option Engine :=
  if e.page_bucketcount ≤ bucket then some e
  else match e.page_buckets bucket with
    | some p => some (e.set_writer t (.requested p bucket free_bucket bytes))
    | none =>
        match e.allocate_page bucket free_bucket with
        | none => none
        | some (none, e) => some e
        | some (some p, e) => some (e.set_writer t (.requested p bucket free_bucket bytes))

/-- If the object won't fit, the buffer is submitted. -/
def submit_full (p len x : Nat) : Option Engine :=
  match (e.pages p).wbuf with
  | none => some e
  | some w =>
      if (e.wbufs w).free < len ∧ (e.wbufs w).full = false then
        (e.submit_wbuf p w x).map fun e => e.set_wbuf w { e.wbufs w with full := true }
      else some e

def new_wbuf (p : Nat) : Engine :=
  if (e.pages p).wbuf = none ∧ (e.pages p).allocated < e.page_size then e.allocate_wbuf p else e

/-- The second section, under the lock of the page; the writer is done unless the page is full. -/
def write_section (t p bucket free_bucket : Nat) (bytes : List UInt8) (x : Nat) : Option Engine :=
  let pg := e.pages p
  if pg.active = false ∨ (pg.wbuf.all fun w => (e.wbufs w).full) ∧ e.page_size ≤ pg.allocated then
    some (e.set_writer t (.page_full bucket free_bucket))
  else
    (e.submit_full p bytes.length x).map fun e =>
      let e := (e.new_wbuf p).set_writer t .idle
      match (e.pages p).wbuf with
      | none => e
      | some w =>
          if (e.wbufs w).full = false ∧ bytes.length ≤ (e.wbufs w).free then e.extstore_write p w bytes else e

/-- The next section of a writer. -/
def write (t x : Nat) : Option Engine :=
  match e.writers t with
  | .idle => none
  | .requested p bucket free_bucket bytes =>
      if e.unlocked p then e.write_section t p bucket free_bucket bytes x else none
  | .page_full bucket free_bucket => (e.allocate_page bucket free_bucket).map fun r => r.2.set_writer t .idle

/-! ## The io threads -/

/-- The thread is done with the first io of its batch. -/
def finish (x : Nat) : Engine :=
  e.set_thread x { e.io_threads x with batch := (e.io_threads x).batch.tail, phase := .next }

def set_phase (x : Nat) (phase : IoPhase) : Engine := e.set_thread x { e.io_threads x with phase := phase }

/-- A batch of at most `io_depth` ios is taken off the queue. -/
def pull (x : Nat) : Option Engine :=
  let th := e.io_threads x
  if th.batch = [] then
    some (e.set_thread x { th with
      batch := th.queue.take (max 1 e.io_depth), queue := th.queue.drop (max 1 e.io_depth) })
  else none

def answer (o : Obj) (r : Option (List UInt8)) : Engine := { e with results := (o, r) :: e.results }

/-- `_read_from_wbuf`. -/
def read_from_wbuf (o : Obj) : Option (List UInt8) :=
  match (e.pages o.page_id).wbuf with
  | none => none
  | some w =>
      let b := e.wbufs w
      if o.offset < (e.pages o.page_id).written + b.size then
        some (slice b.buf (o.offset - b.offset) o.bytes.length)
      else none

/-- The locked part of a read. -/
def read_section (x : Nat) (o : Obj) : Option Engine :=
  let pg := e.pages o.page_id
  if pg.free = false ∧ pg.closed = false ∧ pg.version = o.page_version then
    if pg.active ∧ pg.written ≤ o.offset then
      (e.read_from_wbuf o).map fun bytes => (e.answer o (some bytes)).finish x
    else some ((e.set_page o.page_id { pg with refcount := pg.refcount + 1 }).set_phase x .pread)
  else some ((e.answer o none).finish x)

def pread (o : Obj) : List UInt8 :=
  let pg := e.pages o.page_id
  slice (e.disk pg.fd) (pg.offset + o.offset) o.bytes.length

def pwrite (p w offset len : Nat) : Engine :=
  let pg := e.pages p
  { e with disk := update e.disk pg.fd (blit (e.disk pg.fd) (pg.offset + offset) (slice (e.wbufs w).buf 0 len)) }

/-- `_wbuf_cb`. -/
def wbuf_cb (p w : Nat) : Option Engine :=
  let pg := e.pages p
  let b := e.wbufs w
  if pg.wbuf = some w ∧ pg.written = b.offset then
    let written := pg.written + b.size
    let e := e.set_wbuf w { b with flushed := true }
    let e := e.set_page p { pg with
      written := written, wbuf := none, active := if written = e.page_size then false else pg.active }
    some { e with wbuf_stack := w :: e.wbuf_stack, io_stack := e.io_stack + 1 }
  else none

/-- The next section of an io thread. -/
def io (x : Nat) : Option Engine :=
  match (e.io_threads x).phase, (e.io_threads x).batch with
  | _, [] => none
  | .next, .read o :: _ => if e.unlocked o.page_id then e.read_section x o else none
  | .pread, .read o :: _ => some ((e.answer o (some (e.pread o))).set_phase x .release)
  | .release, .read o :: _ =>
      if e.unlocked o.page_id then
        let pg := e.pages o.page_id
        some ((e.set_page o.page_id { pg with refcount := pg.refcount - 1 }).finish x)
      else none
  | .next, .write p w offset len :: _ => some ((e.pwrite p w offset len).set_phase x .callback)
  | .callback, .write p w _ _ :: _ => if e.unlocked p then (e.wbuf_cb p w).map fun e => e.finish x else none
  | _, _ => none

/-! ## Deletes and maintenance -/

def extstore_delete (p page_version : Nat) (count bytes : UInt32) : Engine :=
  let pg := e.pages p
  if pg.closed = false ∧ pg.version = page_version then
    let e := e.set_page p { pg with
      bytes_used := if bytes.toNat ≤ pg.bytes_used then pg.bytes_used - bytes.toNat else 0
      obj_count := if count.toNat ≤ pg.obj_count then pg.obj_count - count.toNat else 0 }
    { e with stats := { e.stats with
        bytes_used := sub64 e.stats.bytes_used bytes.toNat
        objects_used := sub64 e.stats.objects_used count.toNat } }
  else e

def extstore_close_page (p page_version : Nat) : Engine :=
  let pg := e.pages p
  if pg.closed = false ∧ pg.version = page_version then e.set_page p { pg with closed := true } else e

/-- What `extstore_maint_thread` does to a page that it has found not active, still holding its lock. -/
def maint_page (i : Nat) (do_evict : Bool) (low : Option (Nat × Nat)) : Engine :=
  let pg := e.pages i
  if pg.free then { e with maint := .scanning (i + 1) do_evict low }
  else
    let low := if pg.obj_count > 0 ∧ pg.closed = false ∧ pg.free_bucket = 0 ∧ (low.all fun l => pg.version < l.1) then
      some (pg.version, i) else low
    if (pg.obj_count = 0 ∨ pg.closed) ∧ pg.refcount = 0 then
      { e.free_page i with maint := .scanning (i + 1) false low }
    else { e with maint := .scanning (i + 1) do_evict low }

/-- The eviction at the end of a pass. -/
def evict (p : Nat) : Engine :=
  let pg := e.pages p
  if pg.closed then e
  else
    let e := e.set_page p { pg with closed := true }
    if pg.refcount = 0 then e.free_page p else e

def maint_step : Engine :=
  match e.maint with
  | .waiting => { e with maint := .scanning 0 (e.page_free = 0 ∨ e.page_freelist = none) none }
  | .scanning i do_evict low =>
      if i < e.page_count then
        if (e.pages i).active then { e with maint := .scanning (i + 1) do_evict low }
        else { e with maint := .locked i do_evict low }
      else
        match do_evict, low with
        | true, some (_, p) => { e.evict p with maint := .waiting }
        | _, _ => { e with maint := .waiting }
  | .locked i do_evict low => e.maint_page i do_evict low

end Engine

/-! ## `extstore_init` -/

/-- `extstore_conf_file`; `file` numbers the file that the path names. -/
structure ConfFile where
  page_count : UInt32
  file : Nat
  free_bucket : UInt32
  deriving DecidableEq

/-- `extstore_conf`. -/
structure Conf where
  page_size : UInt32
  page_buckets : UInt32
  wbuf_size : UInt32
  wbuf_count : UInt32
  io_threadcount : UInt32
  io_depth : UInt32
  deriving DecidableEq

inductive Res
  | bad_wbuf_size
  | need_more_wbuf
  | need_more_buckets
  | page_wbuf_alignment
  | too_many_pages
  deriving DecidableEq

/-- A page as `calloc` leaves it. -/
def Page.zero : Page := ⟨0, 0, 0, 0, 0, 0, 0, 0, 0, 0, false, false, false, none, none⟩

/-- The files while pages are given to them: the last device used, the pages each has left, and its offset. -/
structure Devices where
  f : Option Nat
  left : Nat → Nat
  offset : Nat → Nat
  pages : Nat → Page

/-- The next device with available pages, of `n`. -/
def find_device (left : Nat → Nat) (n : Nat) : Nat → Option Nat → Option Nat
  | 0, _ => none
  | k + 1, f =>
      let f := match f with
        | none => 0
        | some f => if f + 1 < n then f + 1 else 0
      if left f ≠ 0 then some f else find_device left n k (some f)

def init_page (fh : List ConfFile) (page_size i : Nat) (d : Devices) : Option Devices :=
  match find_device d.left fh.length fh.length d.f with
  | none => none
  | some f =>
      (fh[f]?).map fun h =>
        { f := some f
          left := update d.left f (d.left f - 1)
          offset := update d.offset f (d.offset f + page_size)
          pages := update d.pages i { Page.zero with
            fd := h.file, free_bucket := h.free_bucket.toNat, offset := d.offset f, free := true } }

/-- The first `n` pages, interleaved between the devices. -/
def init_pages (fh : List ConfFile) (page_size : Nat) : Nat → Option Devices
  | 0 => some ⟨none, fun f => (fh[f]?).elim 0 fun h => h.page_count.toNat, fun _ => 0, fun _ => Page.zero⟩
  | n + 1 => (init_pages fh page_size n).bind (init_page fh page_size n)

/-- The loop that links the pages from `i` down to 1 into the free lists. -/
def Engine.init_lists (e : Engine) : Nat → Option Engine
  | 0 => some e
  | i + 1 =>
      let p := i + 1
      let fb := (e.pages p).free_bucket
      if fb = 0 ∨ fb < e.page_bucketcount then ({ e.push_free p with page_free := e.page_free + 1 }).init_lists i
      else none

def Wbuf.new (size : Nat) : Wbuf := ⟨fun _ => 0, 0, size, size, 0, false, false⟩

/-- `none` is a division by zero or a write past the free lists. -/
def extstore_init (fh : List ConfFile) (cf : Conf) : Option (Except Res Engine) :=
  let temp_page_count := (fh.map fun f => f.page_count.toNat).sum
  if cf.wbuf_size = 0 then none
  else if cf.page_size % cf.wbuf_size ≠ 0 then some (.error .bad_wbuf_size)
  else if cf.page_buckets > cf.wbuf_count then some (.error .need_more_wbuf)
  else if cf.page_buckets < 1 then some (.error .need_more_buckets)
  else if cf.page_size % (1024 * 1024 * 2) ≠ 0 ∨ cf.wbuf_size % (1024 * 1024 * 2) ≠ 0 then
    some (.error .page_wbuf_alignment)
  else if temp_page_count ≥ 2 ^ 16 - 1 then some (.error .too_many_pages)
  else
    (init_pages fh cf.page_size.toNat temp_page_count).bind fun d =>
      let e : Engine :=
        { pages := d.pages
          wbufs := fun _ => Wbuf.new cf.wbuf_size.toNat
          wbuf_stack := (List.range cf.wbuf_count.toNat).reverse
          io_stack := cf.wbuf_count.toNat
          io_threads := fun _ => ⟨[], [], .next⟩
          page_freelist := none
          page_buckets := fun _ => none
          free_page_buckets := fun _ => none
          page_size := cf.page_size.toNat
          version := 1
          io_threadcount := cf.io_threadcount.toNat
          page_count := temp_page_count
          page_free := 0
          page_bucketcount := cf.page_buckets.toNat
          io_depth := cf.io_depth.toNat
          stats := ⟨0, 0, 0⟩
          disk := fun _ _ => 0
          writers := fun _ => .idle
          maint := .waiting
          objects := []
          results := [] }
      (e.init_lists (temp_page_count - 1)).map .ok

namespace Engine

variable (e : Engine)

/-! ## Steps -/

def step : Event → Option Engine
  | .write_request t bucket free_bucket bytes =>
      if e.writers t = .idle ∧ bytes.length < 2 ^ 32 then e.write_request t bucket free_bucket bytes else none
  | .write t x => if x < e.io_threadcount then e.write t x else none
  | .read x o => if x < e.io_threadcount ∧ o ∈ e.objects then some (e.submit x (.read o)) else none
  | .pull x => if x < e.io_threadcount then e.pull x else none
  | .io x => if x < e.io_threadcount then e.io x else none
  | .delete p page_version count bytes =>
      if p < e.page_count ∧ e.unlocked p then some (e.extstore_delete p page_version count bytes) else none
  | .close_page p page_version =>
      if p < e.page_count ∧ e.unlocked p then some (e.extstore_close_page p page_version) else none
  | .maint => some e.maint_step

end Engine

def Step (e : Engine) (ev : Event) (e' : Engine) : Prop := e.step ev = some e'

/-- The engine that `extstore_init` and then the events lead to, each of which has to be `ok` where it happens. -/
def run (ok : Engine → Event → Bool) (fh : List ConfFile) (cf : Conf) (es : List Event) : Option Engine :=
  match extstore_init fh cf with
  | some (.ok e) => es.foldlM (fun e ev => if ok e ev then e.step ev else none) e
  | _ => none

theorem run_eq {ok : Engine → Event → Bool} {fh : List ConfFile} {cf : Conf} {es : List Event} {e' : Engine}
    (h : run ok fh cf es = some e') :
    ∃ e, extstore_init fh cf = some (.ok e) ∧ Transition.Run (fun e ev e' => Step e ev e' ∧ ok e ev) e es e' := by
  unfold run at h
  split at h
  · rename_i e he
    refine ⟨e, he, (Transition.Run.of_foldlM h).mono fun {e ev e'} hstep => ?_⟩
    split at hstep
    · exact ⟨hstep, ‹_›⟩
    · cases hstep
  · cases h

end Memcached.Exstore

import Memcached.Lib.Ownership
import Memcached.Exstore.Lemmas.PageOwnership

/-!
# Write buffers and the pages they fill

A page has at most one buffer, no other page has it, and it lies where the page was written up to. A page without one
is written as far as it is allocated. This holds in every interleaving, whatever the versions are.
-/

namespace Memcached.Exstore

open Function (update update_self update_of_ne)
open Ownership (Apart)

variable {s e e' : Engine} {ev : Event} {L : Place → List Nat} {S p q w : Nat}

structure Wbuf.Ok (S : Nat) (b : Wbuf) : Prop where
  size : b.size = S
  fill : b.buf_pos + b.free = S

/-- How much of the buffer of the page is used. -/
def Page.filled (wbufs : Nat → Wbuf) (pg : Page) : Nat := pg.wbuf.elim 0 fun w => (wbufs w).buf_pos

structure Page.Ok (page_size S : Nat) (wbufs : Nat → Wbuf) (pg : Page) : Prop where
  allocated_le : pg.allocated ≤ page_size
  aligned : S ∣ pg.allocated
  buffered : ∀ w ∈ pg.wbuf, pg.active = true ∧ (wbufs w).offset = pg.written ∧ pg.written + S = pg.allocated
  unbuffered : pg.wbuf = none → pg.written = pg.allocated
  free : pg.free = true → pg.active = false ∧ pg.allocated = 0 ∧ pg.obj_count = 0
  bytes : pg.bytes_used ≤ pg.written + pg.filled wbufs

/-- Where the buffers are: on the stack, or with a page. -/
def Engine.wbufs_at (e : Engine) : Option Nat → List Nat
  | none => e.wbuf_stack
  | some p => (e.pages p).wbuf.toList

structure Buffers (S : Nat) (e : Engine) : Prop where
  pos : 0 < S
  dvd : S ∣ e.page_size
  wbuf : ∀ w, (e.wbufs w).Ok S
  page : ∀ p, (e.pages p).Ok e.page_size S e.wbufs
  apart : Apart e.wbufs_at
  range : ∀ p, (e.pages p).active = true → p < e.page_count
  locked : ∀ i ∈ e.maint.page, (e.pages i).wbuf = none ∧ ((e.pages i).active = false ∨ (e.pages i).obj_count = 0)
  low : ∀ l ∈ e.maint.low, (e.pages l.2).active = false

/-! ## Pages -/

theorem Page.Ok.wbuf_none {page_size : Nat} {wbufs : Nat → Wbuf} {pg : Page} (h : pg.Ok page_size S wbufs)
    (ha : pg.active = false) : pg.wbuf = none := by
  cases hw : pg.wbuf with
  | none => rfl
  | some w => exact absurd ((h.buffered w hw).1.symm.trans ha) (by decide)

theorem Page.Ok.congr {page_size : Nat} {wbufs wbufs' : Nat → Wbuf} {pg : Page} (h : pg.Ok page_size S wbufs)
    (hw : ∀ w ∈ pg.wbuf, (wbufs' w).offset = (wbufs w).offset ∧ (wbufs' w).buf_pos = (wbufs w).buf_pos) :
    pg.Ok page_size S wbufs' := by
  refine ⟨h.allocated_le, h.aligned, fun w hpw => ?_, h.unbuffered, h.free, ?_⟩
  · rw [(hw w hpw).1]
    exact h.buffered w hpw
  · have hb := h.bytes
    unfold Page.filled at hb ⊢
    cases hpw : pg.wbuf with
    | none =>
        rw [hpw] at hb
        exact hb
    | some w =>
        rw [hpw] at hb
        simp only [Option.elim_some] at hb ⊢
        rw [(hw w hpw).2]
        exact hb

theorem Buffers.one_page (h : Buffers S e) (hp : (e.pages p).wbuf = some w) (hq : (e.pages q).wbuf = some w) : p = q := by
  have hp' : w ∈ e.wbufs_at (some p) := by simp [Engine.wbufs_at, hp]
  have hq' : w ∈ e.wbufs_at (some q) := by simp [Engine.wbufs_at, hq]
  exact Option.some.inj (h.apart.place hp' hq')

theorem Buffers.not_stacked (h : Buffers S e) (hp : (e.pages p).wbuf = some w) : w ∉ e.wbuf_stack := fun hs => by
  have hp' : w ∈ e.wbufs_at (some p) := by simp [Engine.wbufs_at, hp]
  cases h.apart.place (i := none) hs hp'

/-- Nothing happens to the buffers or to what the pages know of them. -/
theorem Buffers.frame (h : Buffers S e) (hpages : e'.pages = e.pages) (hwbufs : e'.wbufs = e.wbufs)
    (hstack : e'.wbuf_stack = e.wbuf_stack) (hsize : e'.page_size = e.page_size) (hcount : e'.page_count = e.page_count)
    (hmaint : e'.maint = e.maint) : Buffers S e' := by
  have hat : e'.wbufs_at = e.wbufs_at := funext fun i => by
    cases i with
    | none => exact hstack
    | some p => simp only [Engine.wbufs_at, hpages]
  exact ⟨h.pos, hsize ▸ h.dvd, by rw [hwbufs]; exact h.wbuf, by rw [hpages, hwbufs, hsize]; exact h.page,
    hat ▸ h.apart, by rw [hpages, hcount]; exact h.range, by rw [hmaint, hpages]; exact h.locked,
    by rw [hmaint, hpages]; exact h.low⟩

theorem Buffers.set_page (h : Buffers S e) {pg : Page} (hpages : e'.pages = update e.pages p pg)
    (hok : pg.Ok e.page_size S e.wbufs) (hwbuf : pg.wbuf = (e.pages p).wbuf)
    (hactive : pg.active = (e.pages p).active)
    (hcounts : e.maint.page = some p → (e.pages p).obj_count = 0 → pg.obj_count = 0)
    (hwbufs : e'.wbufs = e.wbufs) (hstack : e'.wbuf_stack = e.wbuf_stack) (hsize : e'.page_size = e.page_size)
    (hcount : e'.page_count = e.page_count) (hmaint : e'.maint = e.maint) : Buffers S e' := by
  have hsame (q : Nat) : (e'.pages q).wbuf = (e.pages q).wbuf ∧ (e'.pages q).active = (e.pages q).active := by
    rw [hpages]
    by_cases hq : q = p
    · subst hq
      simp [hwbuf, hactive]
    · simp [hq]
  have hat : e'.wbufs_at = e.wbufs_at := funext fun i => by
    cases i with
    | none => exact hstack
    | some q => simp only [Engine.wbufs_at, hsame q]
  refine ⟨h.pos, hsize ▸ h.dvd, by rw [hwbufs]; exact h.wbuf, fun q => ?_, hat ▸ h.apart, fun q hq => ?_, fun i hi => ?_,
    fun l hl => ?_⟩
  · rw [hpages, hwbufs, hsize]
    by_cases hq : q = p
    · subst hq
      rw [update_self]
      exact hok
    · rw [update_of_ne hq]
      exact h.page q
  · rw [hcount]
    exact h.range q ((hsame q).2 ▸ hq)
  · rw [hmaint] at hi
    obtain ⟨hw, ha⟩ := h.locked i hi
    rw [(hsame i).1, (hsame i).2]
    refine ⟨hw, ?_⟩
    rcases ha with ha | ha
    · exact .inl ha
    · right
      rw [hpages]
      by_cases hip : i = p
      · subst hip
        rw [update_self]
        exact hcounts hi ha
      · rw [update_of_ne hip]
        exact ha
  · rw [hmaint] at hl
    rw [(hsame l.2).2]
    exact h.low l hl

/-! ## The actions on buffers -/

theorem Buffers.set_wbuf (h : Buffers S e) {b : Wbuf} (hw : (e.pages p).wbuf = some w)
    (hwbufs : e'.wbufs = update e.wbufs w b) (hb : b.Ok S) (hoffset : b.offset = (e.wbufs w).offset)
    (hpos : (e.wbufs w).buf_pos ≤ b.buf_pos) (hpages : e'.pages = e.pages) (hstack : e'.wbuf_stack = e.wbuf_stack)
    (hsize : e'.page_size = e.page_size) (hcount : e'.page_count = e.page_count) (hmaint : e'.maint = e.maint) :
    Buffers S e' := by
  have hat : e'.wbufs_at = e.wbufs_at := funext fun i => by
    cases i with
    | none => exact hstack
    | some p => simp only [Engine.wbufs_at, hpages]
  refine ⟨h.pos, hsize ▸ h.dvd, fun v => ?_, fun q => ?_, hat ▸ h.apart, by rw [hpages, hcount]; exact h.range,
    by rw [hmaint, hpages]; exact h.locked, by rw [hmaint, hpages]; exact h.low⟩
  · rw [hwbufs]
    by_cases hv : v = w
    · subst hv
      rw [update_self]
      exact hb
    · rw [update_of_ne hv]
      exact h.wbuf v
  · rw [hpages, hsize]
    have hq := h.page q
    by_cases hqw : (e.pages q).wbuf = some w
    · refine ⟨hq.allocated_le, hq.aligned, fun v hv => ?_, hq.unbuffered, hq.free, ?_⟩
      · obtain rfl := Option.some.inj (hqw.symm.trans hv)
        rw [hwbufs, update_self, hoffset]
        exact hq.buffered w hv
      · have hbytes := hq.bytes
        simp only [Page.filled, hqw, Option.elim_some] at hbytes ⊢
        rw [hwbufs, update_self]
        omega
    · refine hq.congr fun v hv => ?_
      have hvw : v ≠ w := fun he => hqw (he ▸ hv)
      rw [hwbufs, update_of_ne hvw]
      exact ⟨rfl, rfl⟩

theorem Buffers.submit_wbuf (h : Buffers S e) {x : Nat} (hw : (e.pages p).wbuf = some w)
    (he : e.submit_wbuf p w x = some e') : Buffers S (e'.set_wbuf w { e'.wbufs w with full := true }) := by
  unfold Engine.submit_wbuf at he
  split at he
  · cases he
  · obtain rfl := Option.some.inj he
    have hb := h.wbuf w
    refine h.set_wbuf hw (b := { e.wbufs w with
      buf := blit (e.wbufs w).buf ((e.wbufs w).size - (e.wbufs w).free) (List.replicate (e.wbufs w).free 0), full := true })
      ?_ ⟨hb.size, hb.fill⟩ rfl le_rfl rfl rfl rfl rfl rfl
    simp [Engine.set_wbuf, Engine.submit, Engine.set_thread]

theorem Buffers.extstore_write (h : Buffers S e) {bytes : List UInt8} (hu : e.unlocked p)
    (hw : (e.pages p).wbuf = some w) (hlen : bytes.length ≤ (e.wbufs w).free) :
    Buffers S (e.extstore_write p w bytes) := by
  have hfill := (h.wbuf w).fill
  have h1 : Buffers S (e.set_wbuf w { e.wbufs w with
      buf := blit (e.wbufs w).buf (e.wbufs w).buf_pos bytes, buf_pos := (e.wbufs w).buf_pos + bytes.length
      free := (e.wbufs w).free - bytes.length }) :=
    h.set_wbuf hw rfl ⟨(h.wbuf w).size, by dsimp only; omega⟩ rfl (Nat.le_add_right ..) rfl rfl rfl rfl rfl
  have hp := h.page p
  let pg : Page := { e.pages p with
    bytes_used := add64 (e.pages p).bytes_used bytes.length, obj_count := add64 (e.pages p).obj_count 1 }
  have hpages : (e.extstore_write p w bytes).pages = update e.pages p pg := rfl
  refine h1.set_page hpages ?_ rfl rfl (fun hm => absurd hm (Engine.unlocked_iff.mp hu)) rfl rfl rfl rfl rfl
  have hp1 := h1.page p
  have hactive := (hp.buffered w hw).1
  refine ⟨hp.allocated_le, hp.aligned, hp1.buffered, hp.unbuffered, fun hf => ?_, ?_⟩
  · exact absurd (hactive.symm.trans (hp.free hf).1) (by decide)
  · have hbytes := hp.bytes
    have hmod : add64 (e.pages p).bytes_used bytes.length ≤ (e.pages p).bytes_used + bytes.length := Nat.mod_le ..
    simp only [Page.filled, pg, hw, Option.elim_some, Engine.set_wbuf, update_self] at hbytes ⊢
    omega

theorem Buffers.allocate_wbuf (h : Buffers S e) (hu : e.unlocked p) (ha : (e.pages p).active = true)
    (hw : (e.pages p).wbuf = none) (hsize : (e.pages p).allocated < e.page_size) : Buffers S (e.allocate_wbuf p) := by
  unfold Engine.allocate_wbuf
  split
  · exact h
  · rename_i w rest hstack
    have hb := h.wbuf w
    have hp := h.page p
    have hnew (q : Nat) : (e.pages q).wbuf ≠ some w := fun hq => h.not_stacked hq (by simp [hstack])
    have hfits : (e.pages p).allocated + S ≤ e.page_size := by
      obtain ⟨a, ha⟩ := hp.aligned
      obtain ⟨c, hc⟩ := h.dvd
      rw [ha, hc] at hsize ⊢
      have hac : a < c := Nat.lt_of_mul_lt_mul_left hsize
      calc S * a + S = S * (a + 1) := (Nat.mul_succ S a).symm
        _ ≤ S * c := Nat.mul_le_mul_left S hac
    refine ⟨h.pos, h.dvd, fun v => ?_, fun q => ?_, ?_, fun q hq => ?_, fun i hi => ?_, fun l hl => ?_⟩
    · simp only [Engine.set_page, Engine.set_wbuf]
      by_cases hv : v = w
      · subst hv
        rw [update_self]
        exact ⟨hb.size, by simp [hb.size]⟩
      · rw [update_of_ne hv]
        exact h.wbuf v
    · simp only [Engine.set_page, Engine.set_wbuf]
      by_cases hq : q = p
      · subst hq
        rw [update_self, hb.size]
        refine ⟨hfits, (Nat.dvd_add_right hp.aligned).mpr (Nat.dvd_refl S), fun v hv => ?_, fun hn => (by cases hn),
          fun hf => ?_, ?_⟩
        · obtain rfl := Option.some.inj hv
          rw [update_self]
          exact ⟨ha, (hp.unbuffered hw).symm, by rw [hp.unbuffered hw]⟩
        · exact absurd (ha.symm.trans (hp.free hf).1) (by decide)
        · have hbytes := hp.bytes
          simp only [Page.filled, hw, Option.elim_none] at hbytes
          exact hbytes.trans (Nat.le_add_right ..)
      · rw [update_of_ne hq]
        refine (h.page q).congr fun v hv => ?_
        have hvw : v ≠ w := fun he => hnew q (he ▸ hv)
        rw [update_of_ne hvw]
        exact ⟨rfl, rfl⟩
    · refine h.apart.move (i := none) (j := some p) (by simp) ?_ fun k hk hkp => ?_
      · simp [Engine.wbufs_at, Engine.set_page, Engine.set_wbuf, hstack, hw]
      · cases k with
        | none => exact absurd rfl hk
        | some q =>
            have hq : q ≠ p := fun he => hkp (by rw [he])
            simp [Engine.wbufs_at, Engine.set_page, Engine.set_wbuf, hq]
    · simp only [Engine.set_page, Engine.set_wbuf] at hq ⊢
      by_cases hqp : q = p
      · exact hqp ▸ h.range p ha
      · rw [update_of_ne hqp] at hq
        exact h.range q hq
    · have hi : e.maint.page = some i := hi
      have hip : i ≠ p := fun he => Engine.unlocked_iff.mp hu (he ▸ hi)
      simp only [Engine.set_page, Engine.set_wbuf, update_of_ne hip]
      exact h.locked i hi
    · have hl : l ∈ e.maint.low := hl
      have hlp : l.2 ≠ p := fun he => by
        have := h.low l hl
        rw [he, ha] at this
        cases this
      simp only [Engine.set_page, Engine.set_wbuf, update_of_ne hlp]
      exact h.low l hl

theorem Buffers.wbuf_cb (h : Buffers S e) (he : e.wbuf_cb p w = some e') : Buffers S e' := by
  unfold Engine.wbuf_cb at he
  dsimp only at he
  split at he
  · rename_i hat
    obtain rfl := Option.some.inj he
    obtain ⟨hw, hwritten⟩ := hat
    have hp := h.page p
    have hb := h.wbuf w
    obtain ⟨hactive, hoffset, hallocated⟩ := hp.buffered w hw
    refine ⟨h.pos, h.dvd, fun v => ?_, fun q => ?_, ?_, fun q hq => ?_, fun i hi => ?_, fun l hl => ?_⟩
    · simp only [Engine.set_page, Engine.set_wbuf]
      by_cases hv : v = w
      · subst hv
        rw [update_self]
        exact ⟨hb.size, hb.fill⟩
      · rw [update_of_ne hv]
        exact h.wbuf v
    · simp only [Engine.set_page, Engine.set_wbuf]
      by_cases hq : q = p
      · subst hq
        rw [update_self, hb.size, hallocated]
        refine ⟨hp.allocated_le, hp.aligned, fun v hv => (by cases hv), fun _ => rfl, fun hf => ?_, ?_⟩
        · exact absurd (hactive.symm.trans (hp.free hf).1) (by decide)
        · have hbytes := hp.bytes
          have hfill := hb.fill
          simp only [Page.filled, hw, Option.elim_some, Option.elim_none] at hbytes ⊢
          omega
      · rw [update_of_ne hq]
        refine (h.page q).congr fun v hv => ?_
        have hvw : v ≠ w := fun he => hq (h.one_page (he ▸ hv) hw)
        rw [update_of_ne hvw]
        exact ⟨rfl, rfl⟩
    · refine h.apart.move (i := none) (j := some p) (by simp) ?_ fun k hk hkp => ?_
      · have hperm : (w :: e.wbuf_stack).Perm (e.wbuf_stack ++ [w]) := (List.perm_append_singleton w e.wbuf_stack).symm
        simpa [Engine.wbufs_at, Engine.set_page, Engine.set_wbuf, hw] using hperm
      · cases k with
        | none => exact absurd rfl hk
        | some q =>
            have hq : q ≠ p := fun he => hkp (by rw [he])
            simp [Engine.wbufs_at, Engine.set_page, Engine.set_wbuf, hq]
    · simp only [Engine.set_page, Engine.set_wbuf] at hq ⊢
      by_cases hqp : q = p
      · exact hqp ▸ h.range p hactive
      · rw [update_of_ne hqp] at hq
        exact h.range q hq
    · have hi : e.maint.page = some i := hi
      have hip : i ≠ p := fun he => by
        have := (h.locked i hi).1
        rw [he, hw] at this
        cases this
      simp only [Engine.set_page, Engine.set_wbuf, update_of_ne hip]
      exact h.locked i hi
    · have hl : l ∈ e.maint.low := hl
      have hlp : l.2 ≠ p := fun he => by
        have := h.low l hl
        rw [he, hactive] at this
        cases this
      simp only [Engine.set_page, Engine.set_wbuf, update_of_ne hlp]
      exact h.low l hl
  · cases he

/-! ## Opening and freeing -/

/-- What `_free_page` leaves of page `p` and of the others. -/
structure Freed (e e' : Engine) (p : Nat) : Prop where
  page : e'.pages p = { e.pages p with
    version := 0, obj_count := 0, bytes_used := 0, allocated := 0, written := 0, bucket := 0
    active := false, closed := false, free := true, next := (e'.pages p).next }
  other : ∀ q, q ≠ p → e'.pages q = { e.pages q with next := (e'.pages q).next }
  rest : e' = { e with
    pages := e'.pages, page_buckets := e'.page_buckets, free_page_buckets := e'.free_page_buckets
    page_freelist := e'.page_freelist, page_free := e'.page_free
    stats := { e.stats with
      objects_used := sub64 e.stats.objects_used (e.pages p).obj_count
      bytes_used := sub64 e.stats.bytes_used (e.pages p).bytes_used } }

/-- `e'` is `e` up to the lists and the links of the pages. -/
structure Relinked (e e' : Engine) : Prop where
  page : ∀ q, e'.pages q = { e.pages q with next := (e'.pages q).next }
  rest : e' = { e with
    pages := e'.pages, page_buckets := e'.page_buckets, free_page_buckets := e'.free_page_buckets
    page_freelist := e'.page_freelist, page_free := e'.page_free }

theorem unlink_relinked : Relinked e (e.unlink p) := by
  unfold Engine.unlink
  dsimp only
  split
  · exact ⟨fun q => rfl, rfl⟩
  · refine ⟨fun q => ?_, rfl⟩
    by_cases hq : q = p
    · subst hq
      simp [Engine.set_page]
    · simp [Engine.set_page, hq]
  · rename_i r _
    refine ⟨fun q => ?_, rfl⟩
    by_cases hq : q = p
    · subst hq
      by_cases hr : q = r
      · subst hr
        simp [Engine.set_page]
      · simp [Engine.set_page, hr]
    · by_cases hr : q = r
      · subst hr
        simp [Engine.set_page, hq]
      · simp [Engine.set_page, hq, hr]

theorem push_free_relinked : Relinked e (e.push_free p) := by
  unfold Engine.push_free
  dsimp only
  split <;>
  · refine ⟨fun q => ?_, rfl⟩
    by_cases hq : q = p
    · subst hq
      simp [Engine.set_page]
    · simp [Engine.set_page, hq]

theorem free_page_freed : Freed e (e.free_page p) p := by
  let e1 : Engine := { e with stats := { e.stats with
    objects_used := sub64 e.stats.objects_used (e.pages p).obj_count
    bytes_used := sub64 e.stats.bytes_used (e.pages p).bytes_used } }
  let e2 := (e1.unlink p).set_page p { (e1.unlink p).pages p with
    version := 0, obj_count := 0, bytes_used := 0, allocated := 0, written := 0, bucket := 0
    active := false, closed := false, free := true }
  have hu := unlink_relinked (e := e1) (p := p)
  have hf := push_free_relinked (e := e2) (p := p)
  have hpages : (e.free_page p).pages = (e2.push_free p).pages := rfl
  refine ⟨?_, fun q hq => ?_, ?_⟩
  · rw [hpages, hf.page p]
    simp only [e2, Engine.set_page, update_self]
    rw [hu.page p]
  · rw [hpages, hf.page q]
    simp only [e2, Engine.set_page, update_of_ne hq]
    rw [hu.page q]
  · have heq : e.free_page p = { e2.push_free p with page_free := (e2.push_free p).page_free + 1 } := rfl
    rw [heq, hf.rest]
    simp only [e2, Engine.set_page]
    rw [hu.rest]

theorem take_free_rest {free_bucket : Nat} {r : Option Nat} {e1 : Engine} (h : e.take_free free_bucket = some (r, e1)) :
    e1 = { e with free_page_buckets := e1.free_page_buckets, page_freelist := e1.page_freelist } := by
  unfold Engine.take_free at h
  repeat' split at h
  all_goals first | cases h; rfl | cases h

theorem Owned.take_free (h : Owned e L) {free_bucket : Nat} {e1 : Engine}
    (ht : e.take_free free_bucket = some (some p, e1)) : (e.pages p).free = true ∧ p < e.page_count := by
  obtain ⟨i, hi, hhead, -⟩ := take_free_some ht
  obtain ⟨rest, hL, -⟩ := h.listed.open_page hi (b := 0) hhead
  have hp : p ∈ L i := by simp [hL]
  refine ⟨?_, (h.listed.range i p hp).2⟩
  rw [← is_free_home]
  exact (congrArg Place.is_free (h.listed.home i p hp)).trans hi

theorem Buffers.open_page (h : Buffers S e) (ho : Owned e L) {free_bucket bucket : Nat} {e1 : Engine}
    (ht : e.take_free free_bucket = some (some p, e1)) : Buffers S (e1.open_page p bucket) := by
  obtain ⟨hfree, hlt⟩ := ho.take_free ht
  have hp := h.page p
  obtain ⟨hinactive, hallocated, hcount⟩ := hp.free hfree
  have hwbuf := hp.wbuf_none hinactive
  rw [take_free_rest ht]
  have hat : ∀ k, (Engine.open_page { e with
      free_page_buckets := e1.free_page_buckets, page_freelist := e1.page_freelist } p bucket).wbufs_at k =
        e.wbufs_at k := fun k => by
    cases k with
    | none => rfl
    | some q =>
        by_cases hq : q = p
        · subst hq
          simp [Engine.wbufs_at, Engine.open_page]
        · simp [Engine.wbufs_at, Engine.open_page, hq]
  refine ⟨h.pos, h.dvd, h.wbuf, fun q => ?_, funext hat ▸ h.apart, fun q hq => ?_, fun i hi => ?_, fun l hl => ?_⟩
  · by_cases hq : q = p
    · subst hq
      simp only [Engine.open_page, update_self]
      exact ⟨hp.allocated_le, hp.aligned, fun w hw => absurd (hwbuf.symm.trans hw) (by simp), hp.unbuffered,
        fun hf => (by cases hf), hp.bytes⟩
    · simp only [Engine.open_page, update_of_ne hq]
      exact h.page q
  · by_cases hqp : q = p
    · exact hqp ▸ hlt
    · simp only [Engine.open_page, update_of_ne hqp] at hq
      exact h.range q hq
  · obtain ⟨hw, ha⟩ := h.locked i hi
    by_cases hip : i = p
    · subst hip
      simp only [Engine.open_page, update_self]
      exact ⟨hw, .inr hcount⟩
    · simp only [Engine.open_page, update_of_ne hip]
      exact ⟨hw, ha⟩
  · have hlp : l.2 ≠ p := fun he => by
      have := (ho.low l hl).2.2
      rw [he, hfree] at this
      cases this
    simp only [Engine.open_page, update_of_ne hlp]
    exact h.low l hl

theorem Buffers.maintains (h : Buffers S e) (hm : e.maintains p) : (e.pages p).wbuf = none := by
  rcases hm with ⟨hpage, -⟩ | ⟨v, hlow⟩
  · exact (h.locked p hpage).1
  · exact (h.page p).wbuf_none (h.low _ hlow)

theorem Buffers.free_page (h : Buffers S e) (ho : Owned e L) {m : Maint} (hm : e.maintains p) (hpage : m.page = none)
    (hlow : ∀ l ∈ m.low, l ∈ e.maint.low ∧ e.maint.page = some p ∧ e.maint.index ≤ m.index) :
    Buffers S { e.free_page p with maint := m } := by
  have hf := free_page_freed (e := e) (p := p)
  have hwbuf := h.maintains hm
  have hrest := hf.rest
  have hsame : (e.free_page p).wbufs = e.wbufs ∧ (e.free_page p).wbuf_stack = e.wbuf_stack ∧
      (e.free_page p).page_size = e.page_size ∧ (e.free_page p).page_count = e.page_count := by
    rw [hrest]
    exact ⟨rfl, rfl, rfl, rfl⟩
  obtain ⟨hwbufs, hstack, hsize, hcount⟩ := hsame
  have hp := h.page p
  have hwbufp (q : Nat) : ((e.free_page p).pages q).wbuf = (e.pages q).wbuf := by
    by_cases hq : q = p
    · subst hq
      rw [hf.page]
    · rw [hf.other q hq]
  have hat : ({ e.free_page p with maint := m } : Engine).wbufs_at = e.wbufs_at := funext fun k => by
    cases k with
    | none => exact hstack
    | some q => simp only [Engine.wbufs_at, hwbufp]
  refine ⟨h.pos, hsize ▸ h.dvd, hwbufs ▸ h.wbuf, fun q => ?_, hat ▸ h.apart, fun q hq => ?_, fun i hi => ?_,
    fun l hl => ?_⟩
  · show ((e.free_page p).pages q).Ok (e.free_page p).page_size S (e.free_page p).wbufs
    rw [hsize, hwbufs]
    by_cases hq : q = p
    · subst hq
      rw [hf.page]
      exact ⟨Nat.zero_le _, Nat.dvd_zero _, fun w hw => absurd (hwbuf.symm.trans hw) (by simp), fun _ => rfl,
        fun _ => ⟨rfl, rfl, rfl⟩, Nat.zero_le _⟩
    · rw [hf.other q hq]
      have hq := h.page q
      exact ⟨hq.allocated_le, hq.aligned, hq.buffered, hq.unbuffered, hq.free, hq.bytes⟩
  · have hq : ((e.free_page p).pages q).active = true := hq
    show q < (e.free_page p).page_count
    rw [hcount]
    by_cases hqp : q = p
    · subst hqp
      rw [hf.page] at hq
      cases hq
    · rw [hf.other q hqp] at hq
      exact h.range q hq
  · rw [hpage] at hi
    cases hi
  · obtain ⟨hl, hlocked, -⟩ := hlow l hl
    have hlp : l.2 ≠ p := by
      have := (ho.low l hl).1
      rw [Maint.index_of_page hlocked] at this
      exact this.ne
    show ((e.free_page p).pages l.2).active = false
    rw [hf.other l.2 hlp]
    exact h.low l hl

/-! ## Every action -/

theorem Buffers.act (h : Buffers S e) (ho : Owned e L) (hact : Act s ev e e') : Buffers S e' := by
  cases hact with
  | writer hk => exact h.frame rfl rfl rfl rfl rfl rfl
  | open_page hs hstats hb ht hfree => exact h.open_page ho ht
  | lose_page ht hfree =>
      rw [take_free_rest ht]
      exact h.frame rfl rfl rfl rfl rfl rfl
  | submit_wbuf hw hfull hx he => exact h.submit_wbuf hw he
  | allocate_wbuf hu ha hw hsize => exact h.allocate_wbuf hu ha hw hsize
  | write hev hstats hu ha hw hfull hlen => exact h.extstore_write hu hw hlen
  | read hx ho => exact h.frame rfl rfl rfl rfl rfl rfl
  | pull hx hbatch => exact h.frame rfl rfl rfl rfl rfl rfl
  | miss hx hat hdead => exact h.frame rfl rfl rfl rfl rfl rfl
  | hit hx hat hlive ha hbytes => exact h.frame rfl rfl rfl rfl rfl rfl
  | @start_pread x o hx hat hlive ha =>
      have hp := h.page o.page_id
      exact h.set_page rfl ⟨hp.allocated_le, hp.aligned, hp.buffered, hp.unbuffered, hp.free, hp.bytes⟩ rfl rfl
        (fun _ hc => hc) rfl rfl rfl rfl rfl
  | pread hx hat => exact h.frame rfl rfl rfl rfl rfl rfl
  | @release x o hx hat =>
      have hp := h.page o.page_id
      exact h.set_page rfl ⟨hp.allocated_le, hp.aligned, hp.buffered, hp.unbuffered, hp.free, hp.bytes⟩ rfl rfl
        (fun _ hc => hc) rfl rfl rfl rfl rfl
  | pwrite hx hat => exact h.frame rfl rfl rfl rfl rfl rfl
  | callback hx hat he => exact (h.wbuf_cb he).frame rfl rfl rfl rfl rfl rfl
  | @delete p page_version count bytes hev hs hp =>
      unfold Engine.extstore_delete
      dsimp only
      split
      · have hp := h.page p
        refine h.set_page (p := p) rfl ⟨hp.allocated_le, hp.aligned, hp.buffered, hp.unbuffered,
          fun hf => ?_, ?_⟩ rfl rfl (fun _ hc => ?_) rfl rfl rfl rfl rfl
        · obtain ⟨ha, hal, hc⟩ := hp.free hf
          exact ⟨ha, hal, by dsimp only; rw [hc]; simp⟩
        · refine le_trans ?_ hp.bytes
          dsimp only
          split
          · exact Nat.sub_le ..
          · exact Nat.zero_le _
        · dsimp only
          rw [hc]
          simp
      · exact h
  | close p =>
      have hp := h.page p
      exact h.set_page (p := p) rfl ⟨hp.allocated_le, hp.aligned, hp.buffered, hp.unbuffered, hp.free, hp.bytes⟩
        rfl rfl (fun _ hc => hc) rfl rfl rfl rfl rfl
  | free_page hm href hpage hlow => exact h.free_page ho hm hpage hlow
  | maint hpage hlow =>
      refine ⟨h.pos, h.dvd, h.wbuf, h.page, h.apart, h.range, fun i hi => ?_, fun l hl => ?_⟩
      · obtain ⟨-, ha⟩ := hpage i hi
        exact ⟨(h.page i).wbuf_none ha, .inl ha⟩
      · rcases hlow l hl with ⟨hl, -⟩ | ⟨hlocked, -, hpos, -⟩
        · exact h.low l hl
        · exact (h.locked _ hlocked).2.resolve_right (Nat.pos_iff_ne_zero.mp hpos)

end Memcached.Exstore

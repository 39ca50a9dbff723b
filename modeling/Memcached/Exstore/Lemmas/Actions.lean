import Mathlib.Logic.Relation
import Memcached.Exstore.Engine

/-!
# What a step can do

A step of a thread is a chain of actions, each of which changes little of the engine and is guarded by what the code
has checked. What every action keeps, every step keeps.
-/

namespace Memcached.Exstore

open Relation (ReflTransGen)

/-- The page that the maintenance thread holds the lock of, having read that it is not active. -/
def Maint.page : Maint → Option Nat
  | .locked i _ _ => some i
  | _ => none

/-- The page to evict, with its version. -/
def Maint.low : Maint → Option (Nat × Nat)
  | .waiting => none
  | .scanning _ _ low => low
  | .locked _ _ low => low

/-- The pages before this one have been looked at in this pass. -/
def Maint.index : Maint → Nat
  | .waiting => 0
  | .scanning i _ _ => i
  | .locked i _ _ => i

theorem Maint.index_of_page {m : Maint} {i : Nat} (h : m.page = some i) : m.index = i := by
  cases m with
  | waiting => cases h
  | scanning => cases h
  | locked => exact Option.some.inj h

/-- The bucket that a writer writes to. -/
def Writer.bucket : Writer → Option Nat
  | .idle => none
  | .requested _ bucket _ _ => some bucket
  | .page_full bucket _ => some bucket

namespace Engine

/-- The event takes a page off a free list. -/
def allocating (e : Engine) : Event → Bool
  | .write_request _ bucket free_bucket _ =>
      bucket < e.page_bucketcount && (e.page_buckets bucket).isNone && (e.take_free free_bucket).any fun r => r.1.isSome
  | .write t _ =>
      match e.writers t with
      | .page_full _ free_bucket => (e.take_free free_bucket).any fun r => r.1.isSome
      | _ => false
  | _ => false

/-- The maintenance thread may free page `p`: it holds its lock and has seen that it is in use, or evicts it. -/
def maintains (e : Engine) (p : Nat) : Prop :=
  e.maint.page = some p ∧ (e.pages p).free = false ∨ ∃ v, e.maint.low = some (v, p)

/-- Where thread `x` is. -/
def at_io (e : Engine) (x : Nat) (phase : IoPhase) (io : Io) : Prop :=
  (e.io_threads x).phase = phase ∧ (e.io_threads x).batch.head? = some io

/-- The page holds what it held when `o` was written. -/
def live (e : Engine) (o : Obj) : Prop :=
  (e.pages o.page_id).free = false ∧ (e.pages o.page_id).closed = false ∧ (e.pages o.page_id).version = o.page_version

theorem unlocked_iff {e : Engine} {p : Nat} : e.unlocked p = true ↔ e.maint.page ≠ some p := by
  unfold unlocked Maint.page
  cases e.maint <;> simp

end Engine

/-- The actions that a step with event `ev` from `s` is made of. -/
inductive Act (s : Engine) (ev : Event) : Engine → Engine → Prop
  | writer {e : Engine} {t : Nat} {k : Writer}
      (hk : ∀ b ∈ k.bucket, b < e.page_bucketcount ∨ (e.writers t).bucket = some b) : Act s ev e (e.set_writer t k)
  | open_page {e e1 : Engine} {free_bucket p bucket : Nat} (hs : s.allocating ev) (hstats : e.stats = s.stats)
      (hb : bucket < e.page_bucketcount ∨ ∃ t, (e.writers t).bucket = some bucket)
      (ht : e.take_free free_bucket = some (some p, e1)) (hfree : 0 < e1.page_free) : Act s ev e (e1.open_page p bucket)
  | lose_page {e e1 : Engine} {free_bucket p : Nat} (ht : e.take_free free_bucket = some (some p, e1))
      (hfree : e1.page_free = 0) : Act s ev e e1
  | submit_wbuf {e e1 : Engine} {p w x : Nat} (hw : (e.pages p).wbuf = some w) (hfull : (e.wbufs w).full = false)
      (hx : x < e.io_threadcount) (h : e.submit_wbuf p w x = some e1) :
      Act s ev e (e1.set_wbuf w { e1.wbufs w with full := true })
  | allocate_wbuf {e : Engine} {p : Nat} (hu : e.unlocked p) (ha : (e.pages p).active = true)
      (hw : (e.pages p).wbuf = none) (hsize : (e.pages p).allocated < e.page_size) : Act s ev e (e.allocate_wbuf p)
  | write {e : Engine} {p w : Nat} {bytes : List UInt8} (hev : ∃ t x, ev = .write t x) (hstats : e.stats = s.stats)
      (hu : e.unlocked p) (ha : (e.pages p).active = true) (hw : (e.pages p).wbuf = some w)
      (hfull : (e.wbufs w).full = false) (hlen : bytes.length ≤ (e.wbufs w).free) :
      Act s ev e (e.extstore_write p w bytes)
  | read {e : Engine} {x : Nat} {o : Obj} (hx : x < e.io_threadcount) (ho : o ∈ e.objects) :
      Act s ev e (e.submit x (.read o))
  | pull {e : Engine} {x : Nat} (hx : x < e.io_threadcount) (hbatch : (e.io_threads x).batch = []) :
      Act s ev e (e.set_thread x { e.io_threads x with
        batch := (e.io_threads x).queue.take (max 1 e.io_depth)
        queue := (e.io_threads x).queue.drop (max 1 e.io_depth) })
  | miss {e : Engine} {x : Nat} {o : Obj} (hx : x < e.io_threadcount) (hat : e.at_io x .next (.read o))
      (hdead : ¬e.live o) : Act s ev e ((e.answer o none).finish x)
  | hit {e : Engine} {x : Nat} {o : Obj} {bytes : List UInt8} (hx : x < e.io_threadcount)
      (hat : e.at_io x .next (.read o)) (hlive : e.live o)
      (ha : (e.pages o.page_id).active = true ∧ (e.pages o.page_id).written ≤ o.offset)
      (h : e.read_from_wbuf o = some bytes) : Act s ev e ((e.answer o (some bytes)).finish x)
  | start_pread {e : Engine} {x : Nat} {o : Obj} (hx : x < e.io_threadcount) (hat : e.at_io x .next (.read o))
      (hlive : e.live o) (ha : ¬((e.pages o.page_id).active = true ∧ (e.pages o.page_id).written ≤ o.offset)) :
      Act s ev e ((e.set_page o.page_id
        { e.pages o.page_id with refcount := (e.pages o.page_id).refcount + 1 }).set_phase x .pread)
  | pread {e : Engine} {x : Nat} {o : Obj} (hx : x < e.io_threadcount) (hat : e.at_io x .pread (.read o)) :
      Act s ev e ((e.answer o (some (e.pread o))).set_phase x .release)
  | release {e : Engine} {x : Nat} {o : Obj} (hx : x < e.io_threadcount) (hat : e.at_io x .release (.read o)) :
      Act s ev e ((e.set_page o.page_id
        { e.pages o.page_id with refcount := (e.pages o.page_id).refcount - 1 }).finish x)
  | pwrite {e : Engine} {x p w offset len : Nat} (hx : x < e.io_threadcount)
      (hat : e.at_io x .next (.write p w offset len)) : Act s ev e ((e.pwrite p w offset len).set_phase x .callback)
  | callback {e e1 : Engine} {x p w offset len : Nat} (hx : x < e.io_threadcount)
      (hat : e.at_io x .callback (.write p w offset len)) (h : e.wbuf_cb p w = some e1) : Act s ev e (e1.finish x)
  | delete {e : Engine} {p page_version : Nat} {count bytes : UInt32} (hev : ev = .delete p page_version count bytes)
      (hs : e = s) (hp : p < e.page_count) : Act s ev e (e.extstore_delete p page_version count bytes)
  | close {e : Engine} (p : Nat) : Act s ev e (e.set_page p { e.pages p with closed := true })
  | free_page {e : Engine} {p : Nat} {m : Maint} (hm : e.maintains p) (href : (e.pages p).refcount = 0)
      (hpage : m.page = none)
      (hlow : ∀ l ∈ m.low, l ∈ e.maint.low ∧ e.maint.page = some p ∧ e.maint.index ≤ m.index) :
      Act s ev e { e.free_page p with maint := m }
  | maint {e : Engine} {m : Maint}
      (hpage : ∀ i ∈ m.page, i < e.page_count ∧ (e.pages i).active = false)
      (hlow : ∀ l ∈ m.low, l ∈ e.maint.low ∧ e.maint.index ≤ m.index ∨
        e.maint.page = some l.2 ∧ (e.pages l.2).free = false ∧ 0 < (e.pages l.2).obj_count ∧ l.2 < m.index) :
      Act s ev e { e with maint := m }

abbrev Acts (s : Engine) (ev : Event) : Engine → Engine → Prop := ReflTransGen (Act s ev)

variable {s e e' : Engine} {ev : Event}

/-! ## The writers -/

theorem take_free_none {free_bucket : Nat} (h : e.take_free free_bucket = some (none, e')) : e' = e := by
  unfold Engine.take_free at h
  repeat' split at h
  all_goals first | cases h; rfl | cases h

theorem take_free_buckets {free_bucket : Nat} {r : Option Nat} (h : e.take_free free_bucket = some (r, e')) :
    e'.page_bucketcount = e.page_bucketcount ∧ e'.writers = e.writers := by
  unfold Engine.take_free at h
  repeat' split at h
  all_goals first | cases h; exact ⟨rfl, rfl⟩ | cases h

theorem allocate_page_acts {bucket free_bucket : Nat} {r : Option Nat}
    (h : s.allocate_page bucket free_bucket = some (r, e'))
    (hb : bucket < s.page_bucketcount ∨ ∃ t, (s.writers t).bucket = some bucket)
    (hs : (s.take_free free_bucket).any (fun r => r.1.isSome) → s.allocating ev) :
      Acts s ev s e' ∧ e'.page_bucketcount = s.page_bucketcount ∧ e'.writers = s.writers := by
  unfold Engine.allocate_page at h
  split at h
  · cases h
  · split at h
    · cases h
    · rename_i e1 ht
      obtain ⟨-, rfl⟩ := Prod.mk.inj (Option.some.inj h)
      obtain rfl := take_free_none ht
      exact ⟨.refl, rfl, rfl⟩
    · rename_i p e1 ht
      obtain ⟨-, rfl⟩ := Prod.mk.inj (Option.some.inj h)
      split
      · rename_i hfree
        exact ⟨.single (.open_page (hs (by simp [ht])) rfl hb ht hfree), (take_free_buckets ht).1, (take_free_buckets ht).2⟩
      · rename_i hfree
        exact ⟨.single (.lose_page ht (by omega)), take_free_buckets ht⟩

theorem write_request_acts {t bucket free_bucket : Nat} {bytes : List UInt8}
    (h : s.write_request t bucket free_bucket bytes = some e') :
    Acts s (.write_request t bucket free_bucket bytes) s e' := by
  unfold Engine.write_request at h
  split at h
  · obtain rfl := Option.some.inj h
    exact .refl
  · rename_i hb
    have hk (b p : Nat) (hb' : b ∈ (Writer.requested p bucket free_bucket bytes).bucket) : b < s.page_bucketcount := by
      obtain rfl := Option.some.inj hb'
      omega
    split at h
    · obtain rfl := Option.some.inj h
      exact .single (.writer fun b hb' => .inl (hk b _ hb'))
    · rename_i hbucket
      have hs (ha : (s.take_free free_bucket).any (fun r => r.1.isSome)) :
          s.allocating (.write_request t bucket free_bucket bytes) := by
        simp only [Engine.allocating, hbucket, ha, Option.isNone_none, Bool.and_true, decide_eq_true_eq]
        omega
      split at h
      · cases h
      · rename_i ht
        obtain rfl := Option.some.inj h
        exact (allocate_page_acts ht (.inl (by omega)) hs).1
      · rename_i ht
        obtain rfl := Option.some.inj h
        obtain ⟨hacts, hcount, -⟩ := allocate_page_acts ht (.inl (by omega)) hs
        refine hacts.tail (.writer fun b hb' => .inl ?_)
        rw [hcount]
        exact hk b _ hb'

/-- What stays as it was while the buffer of a page is submitted and replaced. -/
structure Readied (e e' : Engine) (p : Nat) : Prop where
  stats : e'.stats = e.stats
  active : (e'.pages p).active = (e.pages p).active
  maint : e'.maint = e.maint

theorem submit_full_acts {p len x : Nat} (hx : x < e.io_threadcount) (h : e.submit_full p len x = some e') :
    Acts s ev e e' ∧ Readied e e' p := by
  unfold Engine.submit_full at h
  split at h
  · obtain rfl := Option.some.inj h
    exact ⟨.refl, rfl, rfl, rfl⟩
  · rename_i w hw
    split at h
    · rename_i hfull
      obtain ⟨e1, h1, rfl⟩ := Option.map_eq_some_iff.mp h
      refine ⟨.single (.submit_wbuf hw hfull.2 hx h1), ?_⟩
      unfold Engine.submit_wbuf at h1
      split at h1
      · cases h1
      · obtain rfl := Option.some.inj h1
        exact ⟨rfl, rfl, rfl⟩
    · obtain rfl := Option.some.inj h
      exact ⟨.refl, rfl, rfl, rfl⟩

theorem new_wbuf_acts {p : Nat} (hu : e.unlocked p) (ha : (e.pages p).active = true) :
    Acts s ev e (e.new_wbuf p) ∧ Readied e (e.new_wbuf p) p := by
  unfold Engine.new_wbuf
  split
  · rename_i h
    refine ⟨.single (.allocate_wbuf hu ha h.1 h.2), ?_⟩
    unfold Engine.allocate_wbuf
    split
    · exact ⟨rfl, rfl, rfl⟩
    · exact ⟨rfl, by simp [Engine.set_page, Engine.set_wbuf], rfl⟩
  · exact ⟨.refl, rfl, rfl, rfl⟩

theorem write_section_acts {t p bucket free_bucket x y : Nat} {bytes : List UInt8}
    (hk : s.writers t = .requested p bucket free_bucket bytes) (hu : s.unlocked p) (hx : x < s.io_threadcount) (h : s.write_section t p bucket free_bucket bytes x = some e') :
    Acts s (.write t y) s e' := by
  unfold Engine.write_section at h
  dsimp only at h
  split at h
  · obtain rfl := Option.some.inj h
    refine .single (.writer fun b hb => .inr ?_)
    rw [hk]
    exact hb
  · rename_i hopen
    have hactive : (s.pages p).active = true := by
      rw [not_or] at hopen
      simpa using hopen.1
    obtain ⟨e1, h1, rfl⟩ := Option.map_eq_some_iff.mp h
    obtain ⟨hacts1, hr1⟩ : Acts s (.write t y) s e1 ∧ Readied s e1 p := submit_full_acts hx h1
    have hu1 : e1.unlocked p := by
      rw [Engine.unlocked_iff, hr1.maint]
      exact Engine.unlocked_iff.mp hu
    obtain ⟨hacts2, hr2⟩ : Acts s (.write t y) e1 (e1.new_wbuf p) ∧ Readied e1 (e1.new_wbuf p) p :=
      new_wbuf_acts hu1 (hr1.active.trans hactive)
    have hacts := (hacts1.trans hacts2).tail (.writer (t := t) (k := .idle) fun _ hb => (nomatch hb))
    split
    · exact hacts
    · rename_i w hw
      split
      · rename_i hfits
        refine hacts.tail (.write ⟨t, y, rfl⟩ (hr2.stats.trans hr1.stats) ?_ ?_ hw hfits.1 hfits.2)
        · rw [Engine.unlocked_iff]
          show (e1.new_wbuf p).maint.page ≠ some p
          rw [hr2.maint]
          exact Engine.unlocked_iff.mp hu1
        · exact hr2.active.trans (hr1.active.trans hactive)
      · exact hacts

theorem write_acts {t x : Nat} (hx : x < s.io_threadcount) (h : s.write t x = some e') : Acts s (.write t x) s e' := by
  unfold Engine.write at h
  split at h
  · cases h
  · split at h
    · exact write_section_acts ‹_› ‹_› hx h
    · cases h
  · rename_i bucket free_bucket hk
    obtain ⟨⟨r, e1⟩, h1, rfl⟩ := Option.map_eq_some_iff.mp h
    have ha (ha : (s.take_free free_bucket).any fun r => r.1.isSome) : s.allocating (.write t x) := by
      simpa [Engine.allocating, hk] using ha
    obtain ⟨hacts, -⟩ := allocate_page_acts h1 (.inr ⟨t, by rw [hk]; rfl⟩) ha
    exact hacts.tail (.writer fun _ hb => (nomatch hb))

/-! ## The io threads -/

theorem read_section_acts {x : Nat} {o : Obj} (hx : x < e.io_threadcount) (hat : e.at_io x .next (.read o))
    (h : e.read_section x o = some e') : Act s ev e e' := by
  unfold Engine.read_section at h
  dsimp only at h
  split at h
  · rename_i hlive
    split at h
    · rename_i ha
      obtain ⟨bytes, hbytes, rfl⟩ := Option.map_eq_some_iff.mp h
      exact .hit hx hat hlive ha hbytes
    · rename_i ha
      obtain rfl := Option.some.inj h
      exact .start_pread hx hat hlive ha
  · rename_i hdead
    obtain rfl := Option.some.inj h
    exact .miss hx hat hdead

theorem io_acts {x : Nat} (hx : x < e.io_threadcount) (h : e.io x = some e') : Act s ev e e' := by
  unfold Engine.io at h
  split at h
  · cases h
  · rename_i o rest hphase hbatch
    split at h
    · exact read_section_acts hx ⟨hphase, by simp [hbatch]⟩ h
    · cases h
  · rename_i o rest hphase hbatch
    obtain rfl := Option.some.inj h
    exact .pread hx ⟨hphase, by simp [hbatch]⟩
  · rename_i o rest hphase hbatch
    split at h
    · obtain rfl := Option.some.inj h
      exact .release hx ⟨hphase, by simp [hbatch]⟩
    · cases h
  · rename_i p w offset len rest hphase hbatch
    obtain rfl := Option.some.inj h
    exact .pwrite hx ⟨hphase, by simp [hbatch]⟩
  · rename_i p w offset len rest hphase hbatch
    split at h
    · obtain ⟨e1, h1, rfl⟩ := Option.map_eq_some_iff.mp h
      have hat : e.at_io x .callback (.write p w offset len) := ⟨hphase, by simp [hbatch]⟩
      exact .callback hx hat h1
    · cases h
  · cases h

/-! ## The maintenance thread -/

theorem maint_page_acts {i : Nat} {do_evict : Bool} {low : Option (Nat × Nat)}
    (hm : e.maint = .locked i do_evict low) : Act s ev e (e.maint_page i do_evict low) := by
  have hlow : e.maint.low = low := by rw [hm]; rfl
  have hpage : e.maint.page = some i := by rw [hm]; rfl
  have hindex : e.maint.index ≤ i + 1 := by rw [hm]; exact Nat.le_succ i
  unfold Engine.maint_page
  dsimp only
  split
  · refine .maint (fun _ h => (nomatch h)) fun l hl => .inl ⟨?_, hindex⟩
    rw [hlow]
    exact hl
  · rename_i hfree
    split
    · rename_i h
      have hkeep : ¬((e.pages i).obj_count > 0 ∧ (e.pages i).closed = false ∧ (e.pages i).free_bucket = 0 ∧
          (low.all fun l => decide ((e.pages i).version < l.1)) = true) := fun hk => by
        rcases h.1 with h0 | h0
        · omega
        · rw [h0] at hk
          exact absurd hk.2.1 (by decide)
      rw [if_neg hkeep]
      refine .free_page (.inl ⟨hpage, by simpa using hfree⟩) h.2 rfl fun l hl => ⟨?_, hpage, hindex⟩
      rw [hlow]
      exact hl
    · refine .maint (fun _ h => (nomatch h)) fun l hl => ?_
      simp only [Maint.low] at hl
      split at hl
      · rename_i hk
        obtain rfl := Option.some.inj hl
        exact .inr ⟨hpage, by simpa using hfree, hk.1, Nat.lt_succ_self i⟩
      · rw [hlow]
        exact .inl ⟨hl, hindex⟩

theorem evict_acts {v p : Nat} (hm : e.maint.low = some (v, p)) :
    Acts s ev e { e.evict p with maint := .waiting } := by
  have hwait {e : Engine} : Act s ev e { e with maint := .waiting } :=
    .maint (fun _ h => (nomatch h)) fun _ h => nomatch h
  unfold Engine.evict
  dsimp only
  split
  · exact .single hwait
  · have hclose : Acts s ev e _ := .single (.close p)
    split
    · rename_i href
      exact hclose.tail
        (.free_page (.inr ⟨v, hm⟩) (by simpa [Engine.set_page] using href) rfl fun _ h => nomatch h)
    · exact hclose.tail hwait

theorem maint_step_acts : Acts e ev e e.maint_step := by
  unfold Engine.maint_step
  split
  · exact .single (.maint (fun _ h => (nomatch h)) fun _ h => nomatch h)
  · rename_i i do_evict low hm
    have hlow : e.maint.low = low := by rw [hm]; rfl
    have hindex : e.maint.index = i := by rw [hm]; rfl
    split
    · rename_i hi
      split
      · refine .single (.maint (fun _ h => (nomatch h)) fun l hl => .inl ⟨?_, ?_⟩)
        · rw [hlow]
          exact hl
        · rw [hindex]
          exact Nat.le_succ i
      · rename_i ha
        refine .single (.maint (fun j hj => ?_) fun l hl => .inl ⟨?_, hindex.le⟩)
        · obtain rfl := Option.some.inj hj
          exact ⟨hi, by simpa using ha⟩
        · rw [hlow]
          exact hl
    · split
      · exact evict_acts hlow
      · exact .single (.maint (fun _ h => (nomatch h)) fun _ h => nomatch h)
  · exact .single (maint_page_acts ‹_›)

/-! ## Every step -/

theorem step_acts (h : Step s ev e') : Acts s ev s e' := by
  unfold Step Engine.step at h
  split at h
  · split at h
    · exact write_request_acts h
    · cases h
  · split at h
    · exact write_acts ‹_› h
    · cases h
  · split at h
    · rename_i hx
      obtain rfl := Option.some.inj h
      exact .single (.read hx.1 hx.2)
    · cases h
  · split at h
    · rename_i hx
      unfold Engine.pull at h
      dsimp only at h
      split at h
      · obtain rfl := Option.some.inj h
        exact .single (.pull hx ‹_›)
      · cases h
    · cases h
  · split at h
    · exact .single (io_acts ‹_› h)
    · cases h
  · split at h
    · rename_i hp
      obtain rfl := Option.some.inj h
      exact .single (.delete rfl rfl hp.1)
    · cases h
  · split at h
    · obtain rfl := Option.some.inj h
      unfold Engine.extstore_close_page
      dsimp only
      split
      · exact .single (.close _)
      · exact .refl
    · cases h
  · obtain rfl := Option.some.inj h
    exact maint_step_acts

theorem step_rule {P : Engine → Prop} (h : Step s ev e') (hact : ∀ {e1 e2}, Act s ev e1 e2 → P e1 → P e2) (hs : P s) :
    P e' := by
  have hacts := step_acts h
  clear h
  induction hacts with
  | refl => exact hs
  | tail _ hstep ih => exact hact hstep ih

end Memcached.Exstore

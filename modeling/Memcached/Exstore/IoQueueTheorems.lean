import Mathlib.Data.List.Perm.Subperm
import Memcached.Exstore.IoQueue
import Memcached.Lib.Run

/-!
# Every io is in one place

What is submitted to a thread is, in this order, what the thread has performed, its batch, and its queue.
-/

namespace Memcached.Exstore

open Linked Transition
open Function (update)

/-! ## Places -/

/-- The links spell what is left of the batch. -/
def IoWork.Holds (next : IoPtr → Option IoPtr) : IoWork → List IoPtr → Prop
  | .idle, batch => batch = []
  | .loop cur_io, batch => Walk next cur_io batch
  | .op cur_io rest, batch => ∃ l, batch = cur_io :: l ∧ Walk next rest l

/-- The queues and batches of the threads are chains that end, without an io in common; and with what was performed they
are what was submitted. -/
structure IoEngine.Placed (e : IoEngine) (submitted performed batch queue : Nat → List IoPtr) : Prop where
  queue_walk : ∀ x < e.io_threadcount, Walk e.next (e.io_threads x).queue (queue x)
  batch_walk : ∀ x < e.io_threadcount, (e.io_threads x).work.Holds e.next (batch x)
  order : ∀ x < e.io_threadcount, submitted x = performed x ++ (batch x ++ queue x)
  depth : ∀ x < e.io_threadcount, (e.io_threads x).depth = UInt32.ofNat (queue x).length
  nodup : ∀ x < e.io_threadcount, (batch x ++ queue x).Nodup
  apart : ∀ x < e.io_threadcount, ∀ y < e.io_threadcount, ∀ io, io ∈ batch x ++ queue x → io ∈ batch y ++ queue y → x = y

section
variable {e e' : IoEngine} {next : IoPtr → Option IoPtr} {o v : Option IoPtr} {l xs : List IoPtr} {io t tmp : IoPtr}
  {n x : Nat} {work : IoWork} {submitted performed batch queue : Nat → List IoPtr} {seen : Nat → SeenDepth}

/-! ## Loops -/

theorem length_le_addresses (h : l.Nodup) : l.length ≤ ADDRESSES := by
  have hnd : (l.map UInt64.toNat).Nodup := h.map fun _ _ heq => UInt64.toNat_inj.mp heq
  have hsub : l.map UInt64.toNat ⊆ List.range ADDRESSES := by
    intro n hn
    obtain ⟨io, -, rfl⟩ := List.mem_map.mp hn
    exact List.mem_range.mpr io.toNat_lt
  simpa using (hnd.subperm hsub).length_le

theorem ios_eq (h : Walk next o l) (hn : l.length ≤ n) : ios next n o = l := by
  induction l generalizing o n with
  | nil =>
      obtain rfl : o = none := h
      cases n <;> rfl
  | cons io l ih =>
      obtain ⟨rfl, hw⟩ := h
      cases n with
      | zero => simp at hn
      | succ n => rw [ios, ih hw (by simpa using hn)]

theorem ios_walk (h : Walk next o l) : ios next ADDRESSES o = l := ios_eq h (length_le_addresses h.nodup)

theorem last_io_eq {queue : IoPtr} (h : Walk next (some tmp) (xs ++ [t])) (hn : xs.length < n)
    (hqueue : queue ∉ (xs ++ [t]).tail) : last_io next queue n tmp = some t := by
  induction xs generalizing tmp n with
  | nil =>
      obtain ⟨heq, hnone⟩ := h
      obtain rfl := Option.some.inj heq
      cases n with
      | zero => simp at hn
      | succ n => rw [last_io, show next tmp = none from hnone]
  | cons x xs ih =>
      obtain ⟨heq, hw⟩ := h
      obtain rfl := Option.some.inj heq
      cases n with
      | zero => simp at hn
      | succ n =>
          cases hx : next tmp with
          | none =>
              rw [hx] at hw
              cases xs with
              | nil => cases hw.1
              | cons y xs => cases hw.1
          | some y =>
              rw [hx] at hw
              have hy : y ∈ xs ++ [t] := by
                cases xs with
                | nil => simp [Option.some.inj hw.1]
                | cons z xs => simp [Option.some.inj hw.1]
              have hne : y ≠ queue := fun heq => hqueue (heq ▸ hy)
              rw [last_io, hx]
              simp only [hne, if_false]
              exact ih hw (by simpa using hn) fun hmem => hqueue (List.mem_of_mem_tail hmem)

theorem count_ios_eq (h : Walk next o l) (hn : l.length ≤ n) (depth : UInt32) :
    count_ios next n o depth = some (depth + UInt32.ofNat l.length) := by
  induction l generalizing o n depth with
  | nil =>
      obtain rfl : o = none := h
      cases n <;> simp [count_ios]
  | cons io l ih =>
      obtain ⟨rfl, hw⟩ := h
      cases n with
      | zero => simp at hn
      | succ n =>
          rw [count_ios, ih hw (by simpa using hn), List.length_cons, UInt32.ofNat_add]
          simp [UInt32.add_assoc, UInt32.add_comm]

/-- A batch ends at an io of the queue, and `i` counts the ios up to it. -/
theorem batch_end_eq (io_depth i : UInt32) (h : Walk next (some io) (io :: l)) :
    ∃ xs t ys, io :: l = xs ++ t :: ys ∧ batch_end next io_depth n i io = (i + UInt32.ofNat xs.length, t) := by
  induction n generalizing i io l with
  | zero => exact ⟨[], io, l, rfl, by simp [batch_end]⟩
  | succ n ih =>
      rw [batch_end]
      split
      · cases hnext : next io with
        | none => exact ⟨[], io, l, rfl, by simp⟩
        | some last =>
            have hw := h.2
            rw [hnext] at hw
            cases l with
            | nil => cases hw
            | cons y l =>
                obtain rfl := Option.some.inj hw.1
                obtain ⟨xs, t, ys, heq, hend⟩ := ih (i + 1) hw
                refine ⟨io :: xs, t, ys, by rw [heq, List.cons_append], ?_⟩
                simp [hend, UInt32.ofNat_add, UInt32.add_assoc, UInt32.add_comm]
      · exact ⟨[], io, l, rfl, by simp⟩

theorem ofNat_sub {ys : List IoPtr} :
    UInt32.ofNat (xs ++ t :: ys).length - (1 + UInt32.ofNat xs.length) = UInt32.ofNat ys.length := by
  have hlen : UInt32.ofNat (xs ++ t :: ys).length = UInt32.ofNat ys.length + (1 + UInt32.ofNat xs.length) := by
    simp only [List.length_append, List.length_cons, UInt32.ofNat_add]
    ac_rfl
  rw [hlen, UInt32.add_sub_cancel]

theorem find_smallest_cases (seen : Nat → SeenDepth) (n x : Nat) (tid : Option Nat) (low : Int) :
    find_smallest seen n x tid low = tid ∨ ∃ y < x + n, find_smallest seen n x tid low = some y := by
  induction n generalizing x tid low with
  | zero => exact .inl rfl
  | succ n ih =>
      rw [find_smallest]
      split
      · exact .inr ⟨x, by omega, rfl⟩
      split
      · obtain heq | ⟨y, hy, heq⟩ := ih (x + 1) (some x) (seen x).kept.toNat
        · exact .inr ⟨x, by omega, heq⟩
        · exact .inr ⟨y, by omega, heq⟩
      · obtain heq | ⟨y, hy, heq⟩ := ih (x + 1) tid low
        · exact .inl heq
        · exact .inr ⟨y, by omega, heq⟩

theorem get_io_thread_lt (h : get_io_thread seen n = some x) : x < n := by
  obtain heq | ⟨y, hy, heq⟩ := find_smallest_cases seen n 0 none (2 ^ 63 - 1)
  · cases heq.symm.trans h
  · obtain rfl := Option.some.inj (heq.symm.trans h)
    simpa using hy

/-- With a thread, one is found: no depth is as large as `LLONG_MAX`. -/
theorem get_io_thread_some (seen : Nat → SeenDepth) (h : 0 < n) : ∃ x, get_io_thread seen n = some x := by
  cases n with
  | zero => cases h
  | succ n =>
      rw [get_io_thread, find_smallest]
      split
      · exact ⟨0, rfl⟩
      · have hlow : ((seen 0).compared.toNat : Int) < 2 ^ 63 - 1 := by
          have := (seen 0).compared.toNat_lt
          omega
        rw [if_pos hlow]
        obtain heq | ⟨y, -, heq⟩ := find_smallest_cases seen n (0 + 1) (some 0) (seen 0).kept.toNat
        · exact ⟨0, heq⟩
        · exact ⟨y, heq⟩

/-! ## Steps -/

theorem IoWork.Holds.batch_eq (h : work.Holds next l) : work.batch next = l := by
  cases work with
  | idle => exact h.symm
  | loop cur_io => exact ios_walk h
  | op cur_io rest =>
      obtain ⟨l, rfl, hw⟩ := h
      rw [IoWork.batch, ios_walk hw]

theorem IoWork.Holds.congr {next' : IoPtr → Option IoPtr} (h : work.Holds next l) (hnext : ∀ io ∈ l, next' io = next io) :
    work.Holds next' l := by
  cases work with
  | idle => exact h
  | loop cur_io => exact Walk.congr h hnext
  | op cur_io rest =>
      obtain ⟨l, rfl, hw⟩ := h
      exact ⟨l, rfl, hw.congr fun io hio => hnext io (by simp [hio])⟩

theorem IoEngine.Placed.mem_pending (h : e.Placed submitted performed batch queue) :
    io ∈ e.pending ↔ ∃ x < e.io_threadcount, io ∈ batch x ++ queue x := by
  simp only [IoEngine.pending, List.mem_flatMap, List.mem_range]
  refine exists_congr fun x => and_congr_right fun hx => ?_
  rw [(h.batch_walk x hx).batch_eq, ios_walk (h.queue_walk x hx)]

/-- What the chain of the queue becomes. -/
theorem put_last_eq {chain : List IoPtr} (hqueue : Walk next o l) (hchain : Walk next (some io) chain)
    (hnew : ∀ p ∈ chain, p ∉ l) :
    ∃ next', put_last next o io = some next' ∧ Walk next' (if o = none then some io else o) (l ++ chain) ∧
      Walk next' (some io) chain ∧ ∀ p, p ∉ l → next' p = next p := by
  obtain rfl | ⟨xs, t, rfl⟩ := List.eq_nil_or_concat l
  · obtain rfl : o = none := hqueue
    exact ⟨next, rfl, by simpa using hchain, hchain, fun _ _ => rfl⟩
  · rw [List.concat_eq_append] at hqueue hnew ⊢
    have hnd := hqueue.nodup
    have hlen := length_le_addresses hnd
    have ht : t ∉ chain := fun hmem => hnew t hmem (by simp)
    cases o with
    | none => cases xs <;> cases hqueue.1
    | some tmp =>
        have htail : tmp ∉ (xs ++ [t]).tail := by
          cases xs with
          | nil => simp
          | cons x xs =>
              obtain rfl := Option.some.inj hqueue.1
              exact (List.nodup_cons.mp hnd).1
        rw [List.length_append, List.length_singleton] at hlen
        have hlast := last_io_eq hqueue hlen htail
        refine ⟨update next t (some io), by simp [put_last, hlast], ?_, hchain.update ht, fun p hp => ?_⟩
        · simpa using hqueue.relink hchain ht
        · exact Function.update_of_ne (fun heq => hp (by simp [heq])) ..

/-- One thread is changed, and the links of its own ios. -/
theorem IoEngine.Placed.set_thread {s p b q : List IoPtr} (h : e.Placed submitted performed batch queue) (x : Nat)
    (next : IoPtr → Option IoPtr) (th : StoreIoThread)
    (hsame : ∀ y < e.io_threadcount, y ≠ x → ∀ io ∈ batch y ++ queue y, next io = e.next io)
    (hqueue : Walk next th.queue q) (hbatch : th.work.Holds next b) (horder : s = p ++ (b ++ q))
    (hdepth : th.depth = UInt32.ofNat q.length) (hnodup : (b ++ q).Nodup)
    (hapart : ∀ y < e.io_threadcount, y ≠ x → ∀ io ∈ b ++ q, io ∉ batch y ++ queue y) :
    IoEngine.Placed { e with next := next, io_threads := update e.io_threads x th } (update submitted x s)
      (update performed x p) (update batch x b) (update queue x q) := by
  have hlists (y : Nat) : update batch x b y ++ update queue x q y = if y = x then b ++ q else batch y ++ queue y := by
    by_cases hyx : y = x
    · subst hyx
      simp
    · simp [hyx]
  refine ⟨fun y hy => ?_, fun y hy => ?_, fun y hy => ?_, fun y hy => ?_, fun y hy => ?_, fun y hy z hz io => ?_⟩
  · by_cases hyx : y = x
    · subst hyx
      simpa using hqueue
    · simpa [hyx] using (h.queue_walk y hy).congr fun io hio => hsame y hy hyx io (List.mem_append_right _ hio)
  · by_cases hyx : y = x
    · subst hyx
      simpa using hbatch
    · simpa [hyx] using (h.batch_walk y hy).congr fun io hio => hsame y hy hyx io (List.mem_append_left _ hio)
  · by_cases hyx : y = x
    · subst hyx
      simpa using horder
    · simpa [hyx] using h.order y hy
  · by_cases hyx : y = x
    · subst hyx
      simpa using hdepth
    · simpa [hyx] using h.depth y hy
  · rw [hlists]
    split
    · exact hnodup
    · exact h.nodup y hy
  · rw [hlists, hlists]
    by_cases hyx : y = x
    · by_cases hzx : z = x
      · exact fun _ _ => hyx.trans hzx.symm
      · rw [if_pos hyx, if_neg hzx]
        exact fun hio hio' => absurd hio' (hapart z hz hzx io hio)
    · by_cases hzx : z = x
      · rw [if_neg hyx, if_pos hzx]
        exact fun hio hio' => absurd hio (hapart y hy hyx io hio')
      · rw [if_neg hyx, if_neg hzx]
        exact h.apart y hy z hz io

theorem IoEngine.Placed.submit {chain : List IoPtr} (h : e.Placed submitted performed batch queue)
    (hlegal : e.Legal (.extstore_submit seen chain)) (hx : get_io_thread seen e.io_threadcount = some x) :
    ∃ e', e.step (.extstore_submit seen chain) = some e' ∧ e'.io_threadcount = e.io_threadcount ∧
      e'.Placed (update submitted x (submitted x ++ chain)) performed batch (update queue x (queue x ++ chain)) := by
  obtain ⟨hchain, hne, hnew⟩ := hlegal
  have hlt := get_io_thread_lt hx
  have hfresh (y : Nat) (hy : y < e.io_threadcount) (io : IoPtr) (hio : io ∈ chain) : io ∉ batch y ++ queue y :=
    fun hmem => hnew io hio (h.mem_pending.mpr ⟨y, hy, hmem⟩)
  cases chain with
  | nil => exact absurd rfl hne
  | cons io rest =>
      obtain ⟨next', hnext, hqueue, hw, hsame⟩ := put_last_eq (h.queue_walk x hlt) hchain
        fun io hio hmem => hfresh x hlt io hio (List.mem_append_right _ hmem)
      have hcount := count_ios_eq hw (length_le_addresses hw.nodup) (e.io_threads x).depth
      have hnd := h.nodup x hlt
      have hplaced := h.set_thread (s := submitted x ++ io :: rest) (p := performed x) (b := batch x)
        (q := queue x ++ io :: rest) x next'
        { e.io_threads x with
          queue := if (e.io_threads x).queue = none then some io else (e.io_threads x).queue
          depth := (e.io_threads x).depth + UInt32.ofNat (io :: rest).length }
        (fun y hy hyx p hp => hsame p fun hmem => hyx (h.apart y hy x hlt p hp (List.mem_append_right _ hmem)))
        hqueue
        ((h.batch_walk x hlt).congr fun p hp => hsame p fun hmem => (List.nodup_append.mp hnd).2.2 p hp p hmem rfl)
        (by simp [h.order x hlt])
        (by simp [h.depth x hlt, UInt32.ofNat_add])
        (by
          rw [← List.append_assoc]
          exact List.nodup_append.mpr ⟨hnd, hw.nodup, fun p hp p' hp' heq => hfresh x hlt p' hp' (heq ▸ hp)⟩)
        (by
          intro y hy hyx p hp hp'
          rw [← List.append_assoc] at hp
          obtain hold | hchain := List.mem_append.mp hp
          · exact hyx (h.apart y hy x hlt p hp' hold)
          · exact hfresh y hy p hchain hp')
      rw [Function.update_eq_self, Function.update_eq_self] at hplaced
      refine ⟨_, ?_, ?_, hplaced⟩
      · simp only [IoEngine.step, List.head?_cons, Option.bind_some, IoEngine.extstore_submit, hx, hnext, hcount,
          Option.bind_eq_bind]
      · rfl

/-- A batch is cut off the queue of an idle thread. -/
theorem IoEngine.Placed.pull (h : e.Placed submitted performed batch queue) (hx : x < e.io_threadcount)
    (hstep : e.pull x = some e') : ∃ batch' queue', e'.Placed submitted performed batch' queue' := by
  have hqueue := h.queue_walk x hx
  have hbatch := h.batch_walk x hx
  have hnd := h.nodup x hx
  have horder := h.order x hx
  have hdepth := h.depth x hx
  rw [IoEngine.pull] at hstep
  dsimp only at hstep
  split at hstep
  · obtain rfl := Option.some.inj hstep
    exact ⟨batch, queue, h⟩
  · next io_stack hidle hstack =>
    rw [hidle] at hbatch
    have hnil : batch x = [] := hbatch
    rw [hstack] at hqueue
    cases hq : queue x with
    | nil =>
        rw [hq] at hqueue
        cases hqueue
    | cons io l =>
        rw [hq] at hqueue
        obtain rfl := Option.some.inj hqueue.1
        obtain ⟨xs, t, ys, hsplit, hend⟩ := batch_end_eq (n := e.io_depth.toNat) e.io_depth 1 hqueue
        simp only [hend, Option.some.injEq] at hstep
        rw [hsplit] at hq hqueue
        obtain ⟨hcut, hrest⟩ := hqueue.cut
        rw [hnil, hq, List.nil_append] at hnd horder
        have hmem (p : IoPtr) : p ∈ (xs ++ [t]) ++ ys ↔ p ∈ batch x ++ queue x := by simp [hnil, hq]
        have hplaced := h.set_thread (s := submitted x) (p := performed x) (b := xs ++ [t]) (q := ys) x
          (update e.next t none)
          ⟨e.next t, (e.io_threads x).depth - (1 + UInt32.ofNat xs.length), .loop (some io_stack)⟩
          (fun y hy hyx p hp => Function.update_of_ne (fun heq => hyx (h.apart y hy x hx p hp (by simp [heq, hnil, hq]))) ..)
          hrest hcut (by simp [horder])
          (by rw [hdepth, hq, ofNat_sub])
          (by simpa using hnd)
          (fun y hy hyx p hp hp' => hyx (h.apart y hy x hx p hp' ((hmem p).mp hp)))
        rw [Function.update_eq_self, Function.update_eq_self, hstep] at hplaced
        exact ⟨_, _, hplaced⟩
  · cases hstep

/-- A thread goes on with its batch. -/
theorem IoEngine.Placed.set_work {p b : List IoPtr} (h : e.Placed submitted performed batch queue)
    (hx : x < e.io_threadcount) (hwork : work.Holds e.next b) (horder : performed x ++ batch x = p ++ b)
    (hsub : b.Sublist (batch x)) :
    (e.set_work x work).Placed submitted (update performed x p) (update batch x b) queue := by
  have hlists : (b ++ queue x).Sublist (batch x ++ queue x) := List.Sublist.append_right hsub _
  have hplaced := h.set_thread (s := submitted x) (p := p) (b := b) (q := queue x) x e.next
    { e.io_threads x with work := work }
    (fun _ _ _ _ _ => rfl) (h.queue_walk x hx) hwork
    (by rw [h.order x hx, ← List.append_assoc, horder, List.append_assoc])
    (h.depth x hx) ((h.nodup x hx).sublist hlists)
    (fun y hy hyx io hio hio' => hyx (h.apart y hy x hx io hio' (hlists.subset hio)))
  rw [Function.update_eq_self, Function.update_eq_self] at hplaced
  exact hplaced

theorem IoEngine.Placed.note_next (h : e.Placed submitted performed batch queue) (hx : x < e.io_threadcount)
    (hstep : e.note_next x = some e') : e'.Placed submitted performed batch queue := by
  have hbatch := h.batch_walk x hx
  rw [IoEngine.note_next] at hstep
  split at hstep
  · next hwork =>
    obtain rfl := Option.some.inj hstep
    have hnil : batch x = [] := by
      rw [hwork] at hbatch
      cases hb : batch x with
      | nil => rfl
      | cons io l =>
          rw [hb] at hbatch
          cases hbatch.1
    have hidle : IoWork.idle.Holds e.next (batch x) := hnil
    have hplaced := h.set_work (p := performed x) hx hidle rfl (List.Sublist.refl _)
    rw [Function.update_eq_self, Function.update_eq_self] at hplaced
    exact hplaced
  · next cur_io hwork =>
    obtain rfl := Option.some.inj hstep
    have hop : (IoWork.op cur_io (e.next cur_io)).Holds e.next (batch x) := by
      rw [hwork] at hbatch
      cases hb : batch x with
      | nil =>
          rw [hb] at hbatch
          cases hbatch
      | cons io l =>
          rw [hb] at hbatch
          obtain rfl := Option.some.inj hbatch.1
          exact ⟨l, rfl, hbatch.2⟩
    have hplaced := h.set_work (p := performed x) hx hop rfl (List.Sublist.refl _)
    rw [Function.update_eq_self, Function.update_eq_self] at hplaced
    exact hplaced
  · cases hstep

/-- The first io of the batch is performed. -/
theorem IoEngine.Placed.callback (h : e.Placed submitted performed batch queue) (hx : x < e.io_threadcount)
    (hstep : e.callback x io = some e') :
    ∃ batch', e'.Placed submitted (update performed x (performed x ++ [io])) batch' queue := by
  have hbatch := h.batch_walk x hx
  rw [IoEngine.callback] at hstep
  split at hstep
  · next cur_io rest hwork =>
    split at hstep
    · next heq =>
      subst heq
      obtain rfl := Option.some.inj hstep
      rw [hwork] at hbatch
      obtain ⟨l, hl, hw⟩ := hbatch
      have hloop : (IoWork.loop rest).Holds e.next l := hw
      exact ⟨_, h.set_work hx hloop (by simp [hl]) (by simp [hl])⟩
    · cases hstep
  · cases hstep

theorem IoEngine.Placed.set_next (h : e.Placed submitted performed batch queue) (hio : io ∉ e.pending) :
    IoEngine.Placed { e with next := update e.next io v } submitted performed batch queue where
  queue_walk := fun x hx =>
    (h.queue_walk x hx).update fun hmem => hio (h.mem_pending.mpr ⟨x, hx, List.mem_append_right _ hmem⟩)
  batch_walk := by
    intro x hx
    refine (h.batch_walk x hx).congr fun p hp => Function.update_of_ne (fun heq => ?_) ..
    exact hio (h.mem_pending.mpr ⟨x, hx, List.mem_append_left _ (heq ▸ hp)⟩)
  order := h.order
  depth := h.depth
  nodup := h.nodup
  apart := h.apart

theorem io_step_threadcount {ev : IoEvent} (h : e.step ev = some e') : e'.io_threadcount = e.io_threadcount := by
  cases ev with
  | extstore_submit seen chain =>
      obtain ⟨io, -, h⟩ := Option.bind_eq_some_iff.mp h
      obtain ⟨x, -, h⟩ := Option.bind_eq_some_iff.mp h
      obtain ⟨next, -, h⟩ := Option.bind_eq_some_iff.mp h
      obtain ⟨depth, -, h⟩ := Option.bind_eq_some_iff.mp h
      cases h
      rfl
  | pull x =>
      simp only [IoEngine.step, IoEngine.pull] at h
      split at h <;> cases h <;> rfl
  | note_next x =>
      simp only [IoEngine.step, IoEngine.note_next] at h
      split at h <;> cases h <;> rfl
  | callback x io =>
      simp only [IoEngine.step, IoEngine.callback] at h
      split at h
      · split at h <;> cases h
        rfl
      · cases h
  | set_next io next =>
      cases h
      rfl

/-- A step adds what it submits and what it performs. -/
theorem IoEngine.Placed.step {ev : IoEvent} (h : e.Placed submitted performed batch queue) (hstep : IoStep e ev e') :
    ∃ batch' queue', e'.Placed (fun x => submitted x ++ ev.submits e.io_threadcount x)
      (fun x => performed x ++ ev.performs x) batch' queue' := by
  obtain ⟨hlegal, hstep⟩ := hstep
  cases ev with
  | extstore_submit seen chain =>
      obtain ⟨io, hhead, hsubmit⟩ := Option.bind_eq_some_iff.mp hstep
      obtain ⟨x, hx, -⟩ := Option.bind_eq_some_iff.mp hsubmit
      obtain ⟨e₁, hstep₁, -, hplaced⟩ := h.submit hlegal hx
      obtain rfl := Option.some.inj (hstep₁.symm.trans hstep)
      have hsubmitted : (fun y => submitted y ++ (IoEvent.extstore_submit seen chain).submits e.io_threadcount y) =
          update submitted x (submitted x ++ chain) := by
        funext y
        by_cases hyx : y = x
        · subst hyx
          simp [IoEvent.submits, hx]
        · simp [IoEvent.submits, hx, hyx, Ne.symm hyx]
      rw [hsubmitted]
      exact ⟨batch, _, by simpa [IoEvent.performs] using hplaced⟩
  | pull x =>
      obtain ⟨batch', queue', hplaced⟩ := h.pull hlegal hstep
      exact ⟨batch', queue', by simpa [IoEvent.submits, IoEvent.performs] using hplaced⟩
  | note_next x => exact ⟨batch, queue, by simpa [IoEvent.submits, IoEvent.performs] using h.note_next hlegal hstep⟩
  | callback x io =>
      obtain ⟨batch', hplaced⟩ := h.callback hlegal hstep
      have hperformed : (fun y => performed y ++ (IoEvent.callback x io).performs y) =
          update performed x (performed x ++ [io]) := by
        funext y
        by_cases hyx : y = x
        · subst hyx
          simp [IoEvent.performs]
        · simp [IoEvent.performs, hyx, Ne.symm hyx]
      rw [hperformed]
      exact ⟨batch', queue, by simpa [IoEvent.submits] using hplaced⟩
  | set_next io next =>
      cases hstep
      exact ⟨batch, queue, by simpa [IoEvent.submits, IoEvent.performs] using h.set_next hlegal⟩

/-! ## Runs -/

theorem placed_start {n : Nat} {io_depth : UInt32} :
    (IoEngine.start n io_depth).Placed (fun _ => []) (fun _ => []) (fun _ => []) fun _ => [] where
  queue_walk := fun _ _ => rfl
  batch_walk := fun _ _ => rfl
  order := fun _ _ => rfl
  depth := fun _ _ => rfl
  nodup := fun _ _ => List.nodup_nil
  apart := fun _ _ _ _ _ h => absurd h List.not_mem_nil

theorem IoEngine.Placed.run {es : List IoEvent} (hrun : Run IoStep e es e')
    (h : e.Placed submitted performed batch queue) :
    ∃ batch' queue', e'.Placed (fun x => submitted x ++ es.flatMap (·.submits e.io_threadcount x))
      (fun x => performed x ++ es.flatMap (·.performs x)) batch' queue' := by
  induction hrun generalizing submitted performed batch queue with
  | nil e => exact ⟨batch, queue, by simpa using h⟩
  | cons hstep _ ih =>
      obtain ⟨batch₁, queue₁, h₁⟩ := h.step hstep
      obtain ⟨batch₂, queue₂, h₂⟩ := ih h₁
      rw [io_step_threadcount hstep.2] at h₂
      exact ⟨batch₂, queue₂, by simpa [List.append_assoc] using h₂⟩

theorem io_queues_placed {n : Nat} {io_depth : UInt32} {es : List IoEvent} (h : Run IoStep (.start n io_depth) es e) :
    (∃ batch queue, e.Placed (fun x => es.flatMap (·.submits n x)) (fun x => es.flatMap (·.performs x)) batch queue) ∧
      ∀ seen chain, 0 < n → e.Legal (.extstore_submit seen chain) → ∃ e', e.step (.extstore_submit seen chain) = some e' := by
  obtain ⟨batch, queue, hplaced⟩ := placed_start.run h
  simp only [List.nil_append] at hplaced
  refine ⟨⟨batch, queue, hplaced⟩, fun seen chain hn hlegal => ?_⟩
  have hcount : e.io_threadcount = n :=
    h.invariant (P := fun e => e.io_threadcount = n) (fun h hstep => (io_step_threadcount hstep.2).trans h) rfl
  obtain ⟨x, hx⟩ := get_io_thread_some seen hn
  obtain ⟨e', hstep, -⟩ := hplaced.submit hlegal (hcount ▸ hx)
  exact ⟨e', hstep⟩

end

def IoEngine.legal_step (e : IoEngine) (ev : IoEvent) : Option IoEngine := if e.Legal ev then e.step ev else none

theorem IoStep.of_legal_step {e e' : IoEngine} {ev : IoEvent} (h : e.legal_step ev = some e') : IoStep e ev e' := by
  rw [IoEngine.legal_step] at h
  split at h
  · next hlegal => exact ⟨hlegal, h⟩
  · cases h

/-- Two threads with batches of two. One gets three ios; the first is submitted once more after its callback. -/
def three_ios : List IoEvent :=
  [.set_next 1 (some 2), .extstore_submit (fun _ => ⟨0, 0, 0⟩) [1, 2], .extstore_submit (fun _ => ⟨0, 0, 0⟩) [3],
    .pull 0, .note_next 0, .callback 0 1, .set_next 1 none, .extstore_submit (fun _ => ⟨1, 1, 1⟩) [1], .note_next 0,
    .callback 0 2, .note_next 0, .pull 0]

theorem io_queues_placed_witness : ∃ e, Run IoStep (.start 2 2) three_ios e ∧
    (∃ batch queue, e.Placed (fun x => three_ios.flatMap (·.submits 2 x)) (fun x => three_ios.flatMap (·.performs x))
      batch queue) ∧
    e.Legal (.extstore_submit (fun _ => ⟨0, 0, 0⟩) [4]) ∧
    ∃ e', e.step (.extstore_submit (fun _ => ⟨0, 0, 0⟩) [4]) = some e' := by
  have hsome : (three_ios.foldlM IoEngine.legal_step (IoEngine.start 2 2)).any
      (fun e : IoEngine => e.Legal (.extstore_submit (fun _ => ⟨0, 0, 0⟩) [4])) = true := by decide +kernel
  obtain ⟨e, he, hlegal⟩ := (Option.any_eq_true ..).mp hsome
  have hrun : Run IoStep (.start 2 2) three_ios e := (Run.of_foldlM he).mono IoStep.of_legal_step
  obtain ⟨hplaced, hdefined⟩ := io_queues_placed hrun
  exact ⟨e, hrun, hplaced, of_decide_eq_true hlegal, hdefined _ _ (by decide) (of_decide_eq_true hlegal)⟩

/-! ## A full queue -/

section
variable {e e' : IoEngine} {k : Nat}

/-- The events that put `k` ios into the queue of an only thread, one by one. -/
def filling : Nat → List IoEvent
  | 0 => []
  | k + 1 =>
      filling k ++ [.set_next (UInt64.ofNat k) none, .extstore_submit (fun _ => ⟨0, 0, 0⟩) [UInt64.ofNat k]]

theorem filling_submits : (filling k).flatMap (·.submits 1 0) = (List.range k).map UInt64.ofNat := by
  induction k with
  | zero => rfl
  | succ k ih =>
      rw [filling, List.flatMap_append, ih, List.range_succ, List.map_append]
      rfl

theorem filling_performs : (filling k).flatMap (·.performs 0) = [] := by
  induction k with
  | zero => rfl
  | succ k ih =>
      rw [filling, List.flatMap_append, ih]
      rfl

theorem submit_work {seen : Nat → SeenDepth} {io : IoPtr} {x : Nat} (h : e.extstore_submit seen io = some e') :
    (e'.io_threads x).work = (e.io_threads x).work := by
  obtain ⟨y, -, h⟩ := Option.bind_eq_some_iff.mp h
  obtain ⟨next, -, h⟩ := Option.bind_eq_some_iff.mp h
  obtain ⟨depth, -, h⟩ := Option.bind_eq_some_iff.mp h
  cases h
  by_cases hxy : x = y
  · subst hxy
    simp
  · simp [hxy]

/-- As the thread does not run, its queue holds the ios. -/
theorem filling_queue (hrun : Run IoStep (.start 1 1) (filling k) e) (hidle : (e.io_threads 0).work = .idle) :
    ∃ submitted performed batch queue, e.Placed submitted performed batch queue ∧ e.io_threadcount = 1 ∧ batch 0 = [] ∧
      queue 0 = (List.range k).map UInt64.ofNat := by
  obtain ⟨batch, queue, h⟩ := placed_start.run hrun
  have hcount : e.io_threadcount = 1 :=
    hrun.invariant (P := fun e => e.io_threadcount = 1) (fun h hstep => (io_step_threadcount hstep.2).trans h) rfl
  have hzero : 0 < e.io_threadcount := by simp [hcount]
  have hbatch := h.batch_walk 0 hzero
  rw [hidle] at hbatch
  have hnil : batch 0 = [] := hbatch
  have horder := h.order 0 hzero
  simp only [hnil, List.nil_append, filling_performs] at horder
  exact ⟨_, _, batch, queue, h, hcount, hnil, horder.symm.trans filling_submits⟩

theorem filling_run (hk : k ≤ ADDRESSES) : ∃ e, Run IoStep (.start 1 1) (filling k) e ∧ (e.io_threads 0).work = .idle := by
  induction k with
  | zero => exact ⟨_, .nil _, rfl⟩
  | succ k ih =>
      obtain ⟨e, hrun, hidle⟩ := ih (by omega)
      obtain ⟨submitted, performed, batch, queue, h, hcount, hbatch, hqueue⟩ := filling_queue hrun hidle
      have hnew : ∀ x < e.io_threadcount, UInt64.ofNat k ∉ batch x ++ queue x := by
        intro x hx hmem
        obtain rfl : x = 0 := by omega
        rw [hbatch, hqueue, List.nil_append] at hmem
        obtain ⟨i, hi, heq⟩ := List.mem_map.mp hmem
        have hlt := List.mem_range.mp hi
        have hnat := congrArg UInt64.toNat heq
        rw [UInt64.toNat_ofNat', UInt64.toNat_ofNat'] at hnat
        simp only [ADDRESSES] at hk
        omega
      have hlegal : e.Legal (.set_next (UInt64.ofNat k) none) := fun hmem =>
        let ⟨x, hx, hmem⟩ := h.mem_pending.mp hmem
        hnew x hx hmem
      have h₁ := h.set_next (v := none) hlegal
      have hlegal₁ : IoEngine.Legal { e with next := update e.next (UInt64.ofNat k) none }
          (.extstore_submit (fun _ => ⟨0, 0, 0⟩) [UInt64.ofNat k]) := by
        refine ⟨⟨rfl, Function.update_self ..⟩, by simp, fun io hio hmem => ?_⟩
        obtain rfl := List.mem_singleton.mp hio
        obtain ⟨x, hx, hmem⟩ := h₁.mem_pending.mp hmem
        exact hnew x hx hmem
      obtain ⟨e₂, hstep, -, -⟩ := h₁.submit (x := 0) hlegal₁ (by rw [hcount]; rfl)
      refine ⟨e₂, hrun.append (.cons ⟨hlegal, rfl⟩ (.cons ⟨hlegal₁, hstep⟩ (.nil _))), ?_⟩
      exact (submit_work hstep).trans hidle

/-- With 2^32 ios in the queue, `depth` is 0. -/
theorem depth_wraps : ∃ es e queue, Run IoStep (.start 1 1) es e ∧ Walk e.next (e.io_threads 0).queue queue ∧
    (e.io_threads 0).depth.toNat ≠ queue.length := by
  obtain ⟨e, hrun, hidle⟩ := filling_run (k := 2 ^ 32) (by decide)
  obtain ⟨submitted, performed, batch, queue, h, hcount, -, hqueue⟩ := filling_queue hrun hidle
  have hzero : 0 < e.io_threadcount := by simp [hcount]
  have hlen : (queue 0).length = 2 ^ 32 := by rw [hqueue, List.length_map, List.length_range]
  refine ⟨_, e, queue 0, hrun, h.queue_walk 0 hzero, ?_⟩
  rw [h.depth 0 hzero, hlen]
  decide

end

end Memcached.Exstore

import Memcached.Lib.Run
import Memcached.MemoryLru.Lemmas.Bipbuf

/-!
# The bip buffer is a queue

What is polled, and then what waits in the regions, is what was pushed, in order. The two ways to write leave the same
queue, but for the place that `bipbuf_offer` copies to while region A is written.
-/

namespace Memcached.MemoryLru

open Transition (Run)

variable {u u' : Usage} {e : BipEvent} {es : List BipEvent} {me : Bipbuf} {data : Nat → UInt8} {d : List UInt8} {n : Nat}

/-- A push of at most what was requested, a poll of at most the last size that a peek gave. -/
def BipEvent.Asked (u : Usage) : BipEvent → Prop
  | .push bytes (some size) => size ≤ bytes.length
  | .poll size => size ≤ u.peeked
  | _ => True

/-- As `Asked`, and polls since the last peek do not exceed its size together. -/
def BipEvent.Fits (u : Usage) : BipEvent → Prop
  | .push bytes (some size) => size ≤ bytes.length
  | .poll size => u.taken + size ≤ u.peeked
  | _ => True

instance : Decidable (e.Asked u) :=
  match e with
  | .push bytes (some size) => inferInstanceAs (Decidable (size ≤ bytes.length))
  | .poll size => inferInstanceAs (Decidable (size ≤ u.peeked))
  | .push _ none | .peek => isTrue trivial

instance : Decidable (e.Fits u) :=
  match e with
  | .push bytes (some size) => inferInstanceAs (Decidable (size ≤ bytes.length))
  | .poll size => inferInstanceAs (Decidable (u.taken + size ≤ u.peeked))
  | .push _ none | .peek => isTrue trivial

/-- Position `i` holds a byte that waits to be read. -/
def Bipbuf.unread (me : Bipbuf) (i : Nat) : Prop :=
  me.a_start ≤ i ∧ i < me.a_end ∨ me.b_inuse = true ∧ i < me.b_end

structure Fifo (u : Usage) : Prop where
  bytes : u.written.flatten = u.polled ++ u.buf.queue
  shown : match bipbuf_peek_all u.buf with
    | none => u.buf.queue = []
    | some (at_, n) => 0 < n ∧ Memory.read u.buf.data at_ n <+: u.buf.queue ∧
        ∃ k, u.polled.length + n = (u.written.take k).flatten.length
  regions : u.buf.a_start ≤ u.buf.a_end ∧ u.buf.a_end ≤ u.buf.size ∧
    (u.buf.b_inuse = true → u.buf.b_end ≤ u.buf.a_start)
  granted : ∀ n at_, bipbuf_request u.buf n = some at_ →
    at_ + n ≤ u.buf.size ∧ ∀ i, at_ ≤ i → i < at_ + n → ¬u.buf.unread i

/-- What each event keeps: the bytes that a peek showed are still in region A, which ends where a push ended. -/
structure Usage.Inv (u : Usage) : Prop where
  buf : u.buf.Inv
  bytes : u.written.flatten = u.polled ++ u.buf.queue
  peeked : u.peeked - u.taken ≤ u.buf.a_end - u.buf.a_start
  whole : ∃ k ≤ u.written.length, u.polled.length + (u.buf.a_end - u.buf.a_start) = (u.written.take k).flatten.length

theorem Usage.Inv.start {size : Nat} (h : size < 2 ^ 32) : (Usage.start size data).Inv where
  buf := .new h
  bytes := rfl
  peeked := Nat.le_refl 0
  whole := ⟨0, Nat.le_refl 0, rfl⟩

theorem length_queue : me.queue.length = me.a_end - me.a_start + if me.b_inuse then me.b_end else 0 := by
  unfold Bipbuf.queue
  split <;> simp

/-- Where region B is empty, region A ends where the last push ended. -/
theorem whole_of_no_b (hbytes : u.written.flatten = u.polled ++ u.buf.queue) (hb : u.buf.b_end = 0) :
    ∃ k ≤ u.written.length, u.polled.length + (u.buf.a_end - u.buf.a_start) = (u.written.take k).flatten.length := by
  have hlen : u.buf.queue.length = u.buf.a_end - u.buf.a_start := by
    rw [length_queue, hb, ite_self, Nat.add_zero]
  refine ⟨u.written.length, Nat.le_refl _, ?_⟩
  rw [List.take_length, hbytes, List.length_append, hlen]

/-! ## One event -/

theorem Usage.Inv.written_only (h : u.Inv) {bytes : List UInt8} {at_ : Nat}
    (hr : bipbuf_request u.buf bytes.length = some at_) : ({ u with buf := copy_in u.buf at_ bytes } : Usage).Inv where
  buf := h.buf.copy_in
  bytes := by
    simp only
    rw [queue_copy_in h.buf hr (Nat.le_refl _)]
    exact h.bytes
  peeked := h.peeked
  whole := h.whole

theorem Usage.Inv.pushed (h : u.Inv) {at_ size : Nat} (hr : bipbuf_request u.buf n = some at_) (hm : size ≤ n)
    (hrec : Memory.read u.buf.data at_ size = d) :
    ({ u with buf := (bipbuf_push u.buf size).2, written := u.written ++ [d] } : Usage).Inv := by
  obtain ⟨hbuf, hqueue⟩ := push_spec h.buf hr hm
  have hbytes : (u.written ++ [d]).flatten = u.polled ++ (bipbuf_push u.buf size).2.queue := by
    rw [hqueue, hrec, List.flatten_append, h.bytes, List.append_assoc]
    simp
  have hord := h.buf.ordered
  have hpeeked := h.peeked
  obtain ⟨k, hk, hwhole⟩ := h.whole
  have hpush := push_eq h.buf hr hm
  cases hb : u.buf.b_inuse with
  | true =>
      rw [hb, if_pos rfl] at hpush
      refine { buf := hbuf, bytes := hbytes, peeked := ?_, whole := ⟨k, ?_, ?_⟩ }
      · simpa [hpush] using hpeeked
      · rw [List.length_append]
        omega
      · rw [List.take_append_of_le_length hk, ← hwhole]
        simp [hpush]
  | false =>
      rw [hb, if_neg Bool.false_ne_true] at hpush
      refine { buf := hbuf, bytes := hbytes, peeked := ?_, whole := whole_of_no_b hbytes ?_ }
      · simp only [hpush, check_a_end, check_a_start]
        omega
      · simpa [hpush] using h.buf.no_b hb

theorem Usage.Inv.peek (h : u.Inv) : (u.step .peek).Inv := by
  refine { h with peeked := ?_ }
  simp only [Usage.step]
  cases hp : bipbuf_peek_all u.buf with
  | none => simp
  | some shown =>
      have hsize := (peek_some hp h.buf).2.1
      simp [hsize]

theorem Usage.Inv.poll (h : u.Inv) (hfit : u.taken + n ≤ u.peeked) : (u.step (.poll n)).Inv := by
  have hpeeked := h.peeked
  simp only [Usage.step]
  cases hp : bipbuf_poll u.buf n with
  | mk shown buf =>
  cases shown with
  | none => exact h
  | some at_ =>
      obtain ⟨hbuf, hqueue, hleft⟩ := poll_spec h.buf (by omega) hp
      have hbytes : u.written.flatten = (u.polled ++ Memory.read u.buf.data at_ n) ++ buf.queue := by
        rw [h.bytes, hqueue, List.append_assoc]
      refine { buf := hbuf, bytes := hbytes, peeked := ?_, whole := ?_ }
      · simp only
        omega
      · rcases hleft with hleft | ⟨hall, hb⟩
        · obtain ⟨k, hk, hwhole⟩ := h.whole
          refine ⟨k, hk, ?_⟩
          simp only [List.length_append, Memory.length_read]
          omega
        · exact whole_of_no_b hbytes (hbuf.no_b hb)

theorem Usage.Inv.step (h : u.Inv) (hok : e.Fits u) : (u.step e).Inv := by
  cases e with
  | push bytes size =>
      simp only [Usage.step]
      cases hr : bipbuf_request u.buf bytes.length with
      | none => exact h
      | some at_ =>
          have hcopied := h.written_only hr
          cases size with
          | none => exact hcopied
          | some size =>
              have hgranted : bipbuf_request (copy_in u.buf at_ bytes) bytes.length = some at_ := hr
              have hpushed := push_eq hcopied.buf hgranted hok
              have hrec : Memory.read (copy_in u.buf at_ bytes).data at_ size = bytes.take size :=
                Memory.read_write_take hok
              simpa [hpushed] using hcopied.pushed hgranted hok hrec
  | peek => exact h.peek
  | poll size => exact h.poll hok

/-! ## Runs -/

theorem Usage.Inv.fifo (h : u.Inv) : Fifo u := by
  have hbuf := h.buf
  refine ⟨h.bytes, ?_, ⟨hbuf.ordered, hbuf.inside, fun _ => hbuf.apart⟩, ?_⟩
  · cases hp : bipbuf_peek_all u.buf with
    | none => exact peek_none hp hbuf
    | some shown =>
        obtain ⟨at_, n⟩ := shown
        obtain ⟨rfl, rfl, hpos⟩ := peek_some hp hbuf
        obtain ⟨k, -, hwhole⟩ := h.whole
        exact ⟨hpos, List.prefix_append _ _, k, hwhole⟩
  · intro n at_ hr
    have hord := hbuf.ordered
    have hin := hbuf.inside
    obtain ⟨-, ⟨hb, rfl, hfit⟩ | ⟨hb, rfl, hfit⟩⟩ := request_some hbuf hr
    · refine ⟨by omega, fun i hlo hhi hun => ?_⟩
      rcases hun with ⟨hge, -⟩ | ⟨-, hlt⟩ <;> omega
    · refine ⟨hfit, fun i hlo hhi hun => ?_⟩
      rcases hun with ⟨-, hlt⟩ | ⟨hinuse, -⟩
      · omega
      · rw [hb] at hinuse
        cases hinuse

theorem fifo_of_run {size : UInt32} (h : Run (fun u e u' => e.Fits u ∧ u' = u.step e) (Usage.start size.toNat data) es u) :
    Fifo u := by
  have hinv : u.Inv := h.invariant (fun hu ⟨hok, heq⟩ => heq ▸ hu.step hok) (.start size.toNat_lt)
  exact hinv.fifo

open Transition (Guarded)

/-- A buffer of eight bytes: six are pushed, five of them taken, three pushed to the front, and then the sixth taken. -/
def round_the_end : List BipEvent :=
  [.push [1, 2, 3, 4, 5, 6, 0] (some 6), .peek, .poll 5, .push [7, 8, 9] (some 3), .peek, .poll 1, .peek]

theorem fifo_round_the_end : Fifo (round_the_end.foldl Usage.step (Usage.start (8 : UInt32).toNat fun _ => 0)) :=
  have hguarded : Guarded (fun u e => BipEvent.Fits u e) Usage.step (Usage.start (8 : UInt32).toNat fun _ => 0)
      round_the_end := by decide
  fifo_of_run hguarded.run

/-- Two polls of two bytes after a peek of three. -/
theorem not_fifo_polled_twice : ∃ es, Guarded (fun u e => BipEvent.Asked u e) Usage.step
      (Usage.start (16 : UInt32).toNat fun _ => 0) es ∧
    ¬Fifo (es.foldl Usage.step (Usage.start (16 : UInt32).toNat fun _ => 0)) := by
  refine ⟨[.push [1, 2, 3] (some 3), .peek, .poll 2, .poll 2], by decide, ?_⟩
  intro h
  have hbytes := h.bytes
  revert hbytes
  decide

/-! ## The two ways to write -/

/-- `bipbuf_offer` does as `bipbuf_request`, a copy and `bipbuf_push` do. -/
structure Agrees (me : Bipbuf) (d : List UInt8) : Prop where
  result : (bipbuf_offer me d).1 = (request_copy_push me d).1
  queue : (bipbuf_offer me d).2.queue = (request_copy_push me d).2.queue
  fails : if bipbuf_request me d.length = none then bipbuf_offer me d = (0, me)
    else (bipbuf_offer me d).1 = d.length

/-- From `a_start` to the end of the block, the block at the front of the buffer and the block behind region A leave the
same bytes. -/
def Coincides (me : Bipbuf) (d : List UInt8) : Prop :=
  ∀ i, me.a_start ≤ i → i < me.a_end + d.length →
    d.getD i (me.data i) = if me.a_end ≤ i then d.getD (i - me.a_end) (me.data i) else me.data i

theorem loose_apply (size : UInt32) (data : Nat → UInt8) (ops : List BipOp) :
    (ops.foldl Bipbuf.apply (bipbuf_new size.toNat data)).Loose := by
  have hkeep : ∀ me : Bipbuf, me.Loose → (ops.foldl Bipbuf.apply me).Loose := by
    induction ops with
    | nil => exact fun me hme => hme
    | cons op ops ih => exact fun me hme => ih _ hme.apply
  exact hkeep _ (.new size.toNat_lt)

theorem request_copy_push_eq (hroom : ¬bipbuf_unused me < d.length) : request_copy_push me d =
    (d.length, check_for_switch_to_b
      (advance (copy_in me (if me.b_inuse then me.b_end else me.a_end) d) d.length)) := by
  have hr : bipbuf_request me d.length = some (if me.b_inuse then me.b_end else me.a_end) := by
    rw [bipbuf_request, if_neg hroom]
    split <;> rfl
  have hroom' : ∀ at_, ¬bipbuf_unused (copy_in me at_ d) < d.length := fun _ => hroom
  rw [request_copy_push, hr]
  simp only [bipbuf_push, hroom', if_false]

theorem queue_eq_iff_coincides (h : me.Loose) (hb : me.b_inuse = false) (hroom : ¬bipbuf_unused me < d.length) :
    (check_for_switch_to_b (advance (copy_in me me.b_end d) d.length)).queue =
      (check_for_switch_to_b (advance (copy_in me me.a_end d) d.length)).queue ↔ Coincides me d := by
  obtain ⟨hsize, hfit⟩ := h.room hroom
  rw [hb, if_neg Bool.false_ne_true] at hfit
  have hlt := h.size_lt
  have hqueue : ∀ at_, (check_for_switch_to_b (advance (copy_in me at_ d) d.length)).queue =
      Memory.read (Memory.write me.data at_ d) me.a_start (me.a_end + d.length - me.a_start) := by
    intro at_
    have hadv : advance (copy_in me at_ d) d.length = { copy_in me at_ d with a_end := me.a_end + d.length } := by
      unfold advance
      rw [if_neg (by simp [copy_in, hb])]
      simp only [copy_in]
      rw [uint32_add (by omega)]
    have hno : ({ copy_in me at_ d with a_end := me.a_end + d.length } : Bipbuf).b_inuse = false →
        ({ copy_in me at_ d with a_end := me.a_end + d.length } : Bipbuf).b_end = 0 := h.no_b
    rw [hadv, queue_check hno]
    simp [Bipbuf.queue, copy_in, hb]
  rw [hqueue, hqueue, h.no_b hb, Memory.read_eq_iff]
  constructor
  · intro heq i hlo hhi
    have hi := heq (i - me.a_start) (by omega)
    rw [Nat.add_sub_cancel' hlo] at hi
    simpa [Memory.write] using hi
  · intro heq i hi
    simpa [Memory.write] using heq (me.a_start + i) (by omega) (by omega)

theorem offer_agrees_iff (size : UInt32) (data : Nat → UInt8) (ops : List BipOp) (d : List UInt8) :
    Agrees (ops.foldl Bipbuf.apply (bipbuf_new size.toNat data)) d ↔
      (ops.foldl Bipbuf.apply (bipbuf_new size.toNat data)).b_inuse = true ∨
      bipbuf_unused (ops.foldl Bipbuf.apply (bipbuf_new size.toNat data)) < d.length ∨
      Coincides (ops.foldl Bipbuf.apply (bipbuf_new size.toNat data)) d := by
  have hloose := loose_apply size data ops
  generalize ops.foldl Bipbuf.apply (bipbuf_new size.toNat data) = me at hloose ⊢
  by_cases hroom : bipbuf_unused me < d.length
  · have hr : bipbuf_request me d.length = none := by rw [bipbuf_request, if_pos hroom]
    have hrefused : Agrees me d := by
      constructor <;> simp [offer_eq, request_copy_push, hr, hroom]
    simp [hrefused, hroom]
  have hgranted : bipbuf_request me d.length ≠ none := by
    rw [bipbuf_request, if_neg hroom]
    split <;> simp
  have hagrees : Agrees me d ↔ (bipbuf_offer me d).2.queue = (request_copy_push me d).2.queue := by
    constructor
    · exact fun h => h.queue
    · intro h
      refine ⟨?_, h, ?_⟩
      · rw [offer_eq, request_copy_push_eq hroom, if_neg hroom]
      · rw [if_neg hgranted, offer_eq, if_neg hroom]
  rw [hagrees, offer_eq, request_copy_push_eq hroom, if_neg hroom]
  cases hb : me.b_inuse with
  | true => simp
  | false =>
      rw [if_neg Bool.false_ne_true, queue_eq_iff_coincides hloose hb hroom]
      simp [hroom]

/-- A byte offered behind another goes over it. -/
theorem offer_disagrees : ¬Agrees ([.offer [1]].foldl Bipbuf.apply (bipbuf_new (8 : UInt32).toNat fun _ => 0)) [2] := by
  intro h
  have hqueue := h.queue
  revert hqueue
  decide

end Memcached.MemoryLru

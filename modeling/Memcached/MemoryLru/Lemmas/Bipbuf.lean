import Memcached.MemoryLru.Bipbuf

/-!
# What the operations of the bip buffer do

While the two regions are apart and inside the buffer no index wraps, and each operation is what it says.
-/

namespace Memcached.MemoryLru

variable {me : Bipbuf} {n m at_ : Nat} {data : List UInt8}

/-- The regions are inside the buffer, with B before A; A is empty only in an empty buffer. A buffer whose size is no
`int` is never used. -/
structure Bipbuf.Inv (me : Bipbuf) : Prop where
  size_lt : me.size < 2 ^ 32
  ordered : me.a_start ≤ me.a_end
  inside : me.a_end ≤ me.size
  apart : me.b_end ≤ me.a_start
  no_b : me.b_inuse = false → me.b_end = 0
  empty : me.a_start = me.a_end → me.a_start = 0 ∧ me.b_inuse = false
  large : 2 ^ 31 ≤ me.size → me.a_end = 0

theorem Bipbuf.Inv.new {size : Nat} {data : Nat → UInt8} (h : size < 2 ^ 32) : (bipbuf_new size data).Inv where
  size_lt := h
  ordered := Nat.le_refl 0
  inside := Nat.zero_le _
  apart := Nat.le_refl 0
  no_b _ := rfl
  empty _ := ⟨rfl, rfl⟩
  large _ := rfl

/-! ## Arithmetic -/

theorem uint32_sub {a b : Nat} (hle : b ≤ a) (ha : a < 2 ^ 32) : uint32 (a - b) = a - b := by
  unfold uint32
  omega

theorem uint32_add {a b : Nat} (h : a + b < 2 ^ 32) : uint32 (a + b) = a + b := by
  unfold uint32
  omega

theorem ulong_sub {a b : Nat} (hle : b ≤ a) (ha : a < 2 ^ 32) : ulong (a - b) = a - b := by
  unfold ulong
  omega

theorem int32_of_lt {a : Nat} (h : a < 2 ^ 31) : int32 a = a := by
  unfold int32
  rw [Int.bmod_def]
  omega

theorem int32_of_ge {a : Nat} (h : 2 ^ 31 ≤ a) (ha : a < 2 ^ 32) : int32 a < 0 := by
  unfold int32
  rw [Int.bmod_def]
  omega

/-! ## Room -/

theorem unused_eq (h : me.Inv) (hsize : me.size < 2 ^ 31) :
    bipbuf_unused me = if me.b_inuse then ((me.a_start - me.b_end : Nat) : Int) else ((me.size - me.a_end : Nat) : Int) := by
  obtain ⟨hlt, hord, hin, hap, -, -, -⟩ := h
  unfold bipbuf_unused
  rw [uint32_sub hap (by omega), ulong_sub hin hlt, int32_of_lt (by omega), int32_of_lt (by omega)]

theorem unused_large (h : me.Inv) (hsize : 2 ^ 31 ≤ me.size) : bipbuf_unused me < 0 := by
  have hend := h.large hsize
  have hstart := h.ordered
  have hb := (h.empty (by omega)).2
  have hneg := int32_of_ge hsize h.size_lt
  simp only [bipbuf_unused, hb, hend, Bool.false_eq_true, if_false]
  rwa [ulong_sub (Nat.zero_le _) h.size_lt, Nat.sub_zero]

theorem room (h : me.Inv) (hroom : ¬bipbuf_unused me < n) :
    me.size < 2 ^ 31 ∧ if me.b_inuse then me.b_end + n ≤ me.a_start else me.a_end + n ≤ me.size := by
  by_cases hsize : me.size < 2 ^ 31
  · rw [unused_eq h hsize] at hroom
    obtain ⟨-, hord, hin, hap, -, -, -⟩ := h
    constructor
    · exact hsize
    · split at hroom
      · rw [if_pos ‹_›]
        omega
      · rw [if_neg ‹_›]
        omega
  · have hneg := unused_large h (by omega)
    omega

theorem request_some (h : me.Inv) (hr : bipbuf_request me n = some at_) :
    me.size < 2 ^ 31 ∧ ((me.b_inuse = true ∧ at_ = me.b_end ∧ me.b_end + n ≤ me.a_start) ∨
      (me.b_inuse = false ∧ at_ = me.a_end ∧ me.a_end + n ≤ me.size)) := by
  unfold bipbuf_request at hr
  split at hr
  · cases hr
  next hroom =>
  obtain ⟨hsize, hfit⟩ := room h hroom
  cases hb : me.b_inuse with
  | true =>
      simp only [hb, if_true, Option.some.injEq] at hr hfit
      exact ⟨hsize, .inl ⟨rfl, hr.symm, hfit⟩⟩
  | false =>
      simp only [hb, Bool.false_eq_true, if_false, Option.some.injEq] at hr hfit
      exact ⟨hsize, .inr ⟨rfl, hr.symm, hfit⟩⟩

/-! ## Writing -/

theorem check_eq (h : me.a_end ≤ me.size) (hsize : me.size < 2 ^ 32) (hap : me.b_end ≤ me.a_start)
    (hord : me.a_start ≤ me.a_end) : check_for_switch_to_b me =
      if me.size - me.a_end < me.a_start - me.b_end then { me with b_inuse := true } else me := by
  unfold check_for_switch_to_b
  rw [ulong_sub h hsize, uint32_sub hap (by omega)]

@[simp] theorem check_a_start : (check_for_switch_to_b me).a_start = me.a_start := by
  unfold check_for_switch_to_b
  split <;> rfl

@[simp] theorem check_a_end : (check_for_switch_to_b me).a_end = me.a_end := by
  unfold check_for_switch_to_b
  split <;> rfl

@[simp] theorem check_b_end : (check_for_switch_to_b me).b_end = me.b_end := by
  unfold check_for_switch_to_b
  split <;> rfl

@[simp] theorem check_size : (check_for_switch_to_b me).size = me.size := by
  unfold check_for_switch_to_b
  split <;> rfl

@[simp] theorem check_data : (check_for_switch_to_b me).data = me.data := by
  unfold check_for_switch_to_b
  split <;> rfl

theorem queue_check (hb : me.b_inuse = false → me.b_end = 0) : (check_for_switch_to_b me).queue = me.queue := by
  unfold check_for_switch_to_b
  split
  · cases hin : me.b_inuse with
    | true => simp [Bipbuf.queue, hin]
    | false => simp [Bipbuf.queue, hin, hb hin]
  · rfl

/-- The switch is made when a region was written or read, and leaves a buffer in order. -/
theorem Bipbuf.Inv.check (h : me.Inv) : (check_for_switch_to_b me).Inv := by
  rw [check_eq h.inside h.size_lt h.apart h.ordered]
  split
  next hswitch =>
      refine { h with no_b := fun hb => (nomatch hb), empty := fun he => ?_ }
      have hstart := (h.empty he).1
      simp only at hswitch he
      omega
  · exact h

/-- Bytes that are copied to the place of a request are not among those that wait. -/
theorem queue_copy_in (h : me.Inv) (hr : bipbuf_request me n = some at_) (hlen : data.length ≤ n) :
    (copy_in me at_ data).queue = me.queue := by
  obtain ⟨-, ⟨hb, rfl, hfit⟩ | ⟨hb, rfl, hfit⟩⟩ := request_some h hr
  · simp only [Bipbuf.queue, copy_in, hb, if_true]
    rw [Memory.read_write_of_apart (by omega), Memory.read_write_of_apart (by omega)]
  · have hord := h.ordered
    simp only [Bipbuf.queue, copy_in, hb, Bool.false_eq_true, if_false]
    rw [Memory.read_write_of_apart (by omega)]

theorem Bipbuf.Inv.copy_in (h : me.Inv) : (copy_in me at_ data).Inv := { h with }

/-- The region that a granted request of `n` bytes is in has room for `m` of them. -/
theorem push_eq (h : me.Inv) (hr : bipbuf_request me n = some at_) (hm : m ≤ n) :
    bipbuf_push me m = (m, check_for_switch_to_b
      (if me.b_inuse then { me with b_end := me.b_end + m } else { me with a_end := me.a_end + m })) := by
  have hroom : ¬bipbuf_unused me < m := by
    intro hlt
    have hgranted : ¬bipbuf_unused me < n := by
      intro hno
      rw [bipbuf_request, if_pos hno] at hr
      cases hr
    omega
  have hlt := h.size_lt
  have hord := h.ordered
  have hin := h.inside
  rw [bipbuf_push, if_neg hroom, advance]
  obtain ⟨-, ⟨hb, -, hfit⟩ | ⟨hb, -, hfit⟩⟩ := request_some h hr
  · simp only [hb, if_true]
    rw [uint32_add (by omega)]
  · simp only [hb, Bool.false_eq_true, if_false]
    rw [uint32_add (by omega)]

/-- What is pushed of a granted request: the bytes at its place go to the end of the queue. -/
theorem push_spec (h : me.Inv) (hr : bipbuf_request me n = some at_) (hm : m ≤ n) :
    (bipbuf_push me m).2.Inv ∧ (bipbuf_push me m).2.queue = me.queue ++ Memory.read me.data at_ m := by
  have hord := h.ordered
  have hap := h.apart
  rw [push_eq h hr hm]
  obtain ⟨hsize, ⟨hb, rfl, hfit⟩ | ⟨hb, rfl, hfit⟩⟩ := request_some h hr
  · rw [if_pos hb]
    have hinv : ({ me with b_end := me.b_end + m } : Bipbuf).Inv :=
      { h with
        apart := by simp only; omega
        no_b := fun hno => absurd (hb.symm.trans hno) nofun }
    constructor
    · exact hinv.check
    · rw [queue_check hinv.no_b]
      simp only [Bipbuf.queue, hb, if_true]
      rw [Memory.read_add, Nat.zero_add, List.append_assoc]
  · rw [if_neg (by simp [hb])]
    have hinv : ({ me with a_end := me.a_end + m } : Bipbuf).Inv :=
      { h with
        ordered := by simp only; omega
        inside := by simp only; omega
        empty := fun he => by
          simp only at he
          exact h.empty (by omega)
        large := fun hbig => absurd hsize (Nat.not_lt.mpr hbig) }
    constructor
    · exact hinv.check
    · rw [queue_check hinv.no_b]
      simp only [Bipbuf.queue, hb, Bool.false_eq_true, if_false, List.append_nil]
      rw [show me.a_end + m - me.a_start = (me.a_end - me.a_start) + m by omega, Memory.read_add,
        Nat.add_sub_cancel' hord]

/-! ## Reading -/

theorem peek_none (h : bipbuf_peek_all me = none) (hinv : me.Inv) : me.queue = [] := by
  unfold bipbuf_peek_all bipbuf_is_empty at h
  split at h
  next hempty =>
      have heq := of_decide_eq_true hempty
      simp [Bipbuf.queue, heq, (hinv.empty heq).2]
  · cases h

theorem peek_some (h : bipbuf_peek_all me = some (at_, n)) (hinv : me.Inv) :
    at_ = me.a_start ∧ n = me.a_end - me.a_start ∧ 0 < n := by
  have hord := hinv.ordered
  have hin := hinv.inside
  have hlt := hinv.size_lt
  unfold bipbuf_peek_all bipbuf_is_empty at h
  split at h
  · cases h
  next hempty =>
      have hne : me.a_start ≠ me.a_end := fun heq => hempty (decide_eq_true heq)
      rw [uint32_sub hord (by omega), Option.some.injEq, Prod.mk.injEq] at h
      omega

theorem check_front (h : me.a_start = 0) (hb : me.b_end = 0) : check_for_switch_to_b me = me := by
  unfold check_for_switch_to_b
  rw [h, hb, if_neg (by simp [uint32])]

theorem Bipbuf.Inv.poll_part (h : me.Inv) (hn : n < me.a_end - me.a_start) :
    ({ me with a_start := me.a_start + n } : Bipbuf).Inv :=
  { h with
    ordered := by simp only; omega
    apart := by
      have := h.apart
      simp only
      omega
    empty := fun he => by
      simp only at he
      omega }

theorem Bipbuf.Inv.poll_all (h : me.Inv) :
    ({ me with a_start := 0, a_end := me.b_end, b_end := 0, b_inuse := false } : Bipbuf).Inv := by
  have hord := h.ordered
  have hin := h.inside
  have hap := h.apart
  refine { h with ordered := Nat.zero_le _, inside := ?_, apart := Nat.le_refl 0, no_b := fun _ => rfl,
                  empty := fun _ => ⟨rfl, rfl⟩, large := fun hbig => ?_ }
  · simp only
    omega
  · have hend := h.large hbig
    simp only
    omega

/-- The cases of a poll of region A: nothing is there, some of it is left, all of it is taken. -/
theorem poll_eq (h : me.Inv) (hn : n ≤ me.a_end - me.a_start) : bipbuf_poll me n =
    if me.a_start = me.a_end then (none, me)
    else (some me.a_start,
      if n < me.a_end - me.a_start then check_for_switch_to_b { me with a_start := me.a_start + n }
      else { me with a_start := 0, a_end := me.b_end, b_end := 0, b_inuse := false }) := by
  have hord := h.ordered
  have hin := h.inside
  have hlt := h.size_lt
  unfold bipbuf_poll bipbuf_is_empty
  by_cases hempty : me.a_start = me.a_end
  · simp [hempty]
  rw [if_neg (by simpa using hempty), if_neg hempty, uint32_add (by omega), if_neg (by omega)]
  by_cases hpart : n < me.a_end - me.a_start
  · rw [if_pos hpart]
    simp only [refill]
    rw [if_neg (by omega)]
  · have hall : me.a_start + n = me.a_end := by omega
    rw [if_neg hpart]
    simp only [refill, hall, if_true]
    cases hb : me.b_inuse with
    | true => rw [if_pos rfl, check_front rfl rfl]
    | false =>
        simp only [h.no_b hb]
        rw [if_neg Bool.false_ne_true, check_front rfl rfl]

theorem poll_spec {me' : Bipbuf} (h : me.Inv) (hn : n ≤ me.a_end - me.a_start)
    (hp : bipbuf_poll me n = (some at_, me')) :
    me'.Inv ∧ me.queue = Memory.read me.data at_ n ++ me'.queue ∧
      (n + (me'.a_end - me'.a_start) = me.a_end - me.a_start ∨
        n = me.a_end - me.a_start ∧ me'.b_inuse = false) := by
  have hord := h.ordered
  rw [poll_eq h hn] at hp
  split at hp
  · cases hp
  rw [Prod.mk.injEq, Option.some.injEq] at hp
  obtain ⟨rfl, rfl⟩ := hp
  split
  next hpart =>
      have hinv := h.poll_part hpart
      refine ⟨hinv.check, ?_, .inl ?_⟩
      · rw [queue_check hinv.no_b]
        simp only [Bipbuf.queue]
        rw [← List.append_assoc, ← Memory.read_add]
        congr 2
        omega
      · simp only [check_a_start, check_a_end]
        omega
  next hall =>
      have heq : n = me.a_end - me.a_start := by omega
      refine ⟨h.poll_all, ?_, .inr ⟨heq, rfl⟩⟩
      subst heq
      cases hb : me.b_inuse with
      | true => simp [Bipbuf.queue, hb]
      | false => simp [Bipbuf.queue, hb, h.no_b hb]

/-! ## Callers that keep no rule -/

/-- What stays true of the indices whatever is done. -/
structure Bipbuf.Loose (me : Bipbuf) : Prop where
  size_lt : me.size < 2 ^ 32
  a_start_le : me.a_start ≤ me.size
  a_end_le : me.a_end ≤ me.size
  b_end_le : me.b_end ≤ me.size
  no_b : me.b_inuse = false → me.b_end = 0
  large : 2 ^ 31 ≤ me.size → me.a_start = 0 ∧ me.a_end = 0 ∧ me.b_inuse = false

theorem Bipbuf.Loose.new {size : Nat} {mem : Nat → UInt8} (h : size < 2 ^ 32) : (bipbuf_new size mem).Loose where
  size_lt := h
  a_start_le := Nat.zero_le _
  a_end_le := Nat.zero_le _
  b_end_le := Nat.zero_le _
  no_b _ := rfl
  large _ := ⟨rfl, rfl, rfl⟩

theorem Bipbuf.Loose.copy_in (h : me.Loose) : (copy_in me at_ data).Loose := { h with }

theorem Bipbuf.Loose.check (h : me.Loose) (hsize : me.size < 2 ^ 31) : (check_for_switch_to_b me).Loose := by
  unfold check_for_switch_to_b
  split
  · exact { h with no_b := fun hb => (nomatch hb), large := fun hbig => absurd hsize (Nat.not_lt.mpr hbig) }
  · exact h

/-- Room behind region A, or between the regions, is inside the buffer. -/
theorem Bipbuf.Loose.room (h : me.Loose) (hroom : ¬bipbuf_unused me < n) :
    me.size < 2 ^ 31 ∧ (if me.b_inuse then me.b_end else me.a_end) + n ≤ me.size := by
  obtain ⟨hlt, hstart, hend, hbend, hno, hlarge⟩ := h
  by_cases hsize : me.size < 2 ^ 31
  · refine ⟨hsize, ?_⟩
    unfold bipbuf_unused at hroom
    cases hb : me.b_inuse with
    | true =>
        rw [hb, if_pos rfl] at hroom
        rw [if_pos rfl]
        by_cases hap : me.b_end ≤ me.a_start
        · rw [uint32_sub hap (by omega), int32_of_lt (by omega)] at hroom
          omega
        · -- the distance is negative, as an `int` too
          have hneg : int32 (uint32 (me.a_start - me.b_end)) < 0 := by
            apply int32_of_ge
            · unfold uint32
              omega
            · unfold uint32
              omega
          omega
    | false =>
        rw [hb, if_neg Bool.false_ne_true, ulong_sub hend hlt, int32_of_lt (by omega)] at hroom
        rw [if_neg Bool.false_ne_true]
        omega
  · obtain ⟨-, hzero, hb⟩ := hlarge (by omega)
    have hneg := int32_of_ge (Nat.le_of_not_lt hsize) hlt
    simp only [bipbuf_unused, hb, hzero, Bool.false_eq_true, if_false] at hroom
    rw [ulong_sub (Nat.zero_le _) hlt, Nat.sub_zero] at hroom
    omega

theorem Bipbuf.Loose.advance (h : me.Loose) (hroom : ¬bipbuf_unused me < n) :
    (check_for_switch_to_b (advance me n)).Loose := by
  obtain ⟨hsize, hfit⟩ := h.room hroom
  have hlt := h.size_lt
  unfold MemoryLru.advance
  by_cases hb : me.b_inuse = true
  · rw [if_pos hb] at hfit
    rw [if_pos hb, uint32_add (by omega)]
    have hloose : ({ me with b_end := me.b_end + n } : Bipbuf).Loose :=
      { h with b_end_le := hfit, no_b := fun hno => absurd (hb.symm.trans hno) nofun }
    exact hloose.check hsize
  · rw [if_neg hb] at hfit
    rw [if_neg hb, uint32_add (by omega)]
    have hloose : ({ me with a_end := me.a_end + n } : Bipbuf).Loose :=
      { h with a_end_le := hfit, large := fun hbig => absurd hsize (Nat.not_lt.mpr hbig) }
    exact hloose.check hsize

theorem Bipbuf.Loose.push (h : me.Loose) : (bipbuf_push me n).2.Loose := by
  unfold bipbuf_push
  split
  · exact h
  next hroom => exact h.advance hroom

theorem offer_eq : bipbuf_offer me data = if bipbuf_unused me < data.length then (0, me)
    else (data.length, check_for_switch_to_b (advance (copy_in me me.b_end data) data.length)) := by
  simp only [bipbuf_offer, ite_self]

theorem Bipbuf.Loose.offer (h : me.Loose) : (bipbuf_offer me data).2.Loose := by
  rw [offer_eq]
  split
  · exact h
  next hroom =>
      have hcopied : (MemoryLru.copy_in me me.b_end data).Loose := h.copy_in
      exact hcopied.advance hroom

theorem Bipbuf.Loose.refill (h : me.Loose) : (refill me).Loose := by
  unfold MemoryLru.refill
  split
  · split
    next hb =>
        exact { h with
          a_start_le := Nat.zero_le _
          a_end_le := h.b_end_le
          b_end_le := Nat.zero_le _
          no_b := fun _ => rfl
          large := fun hbig => absurd (h.large hbig).2.2 (by simp [hb]) }
    · exact { h with
        a_start_le := Nat.zero_le _
        a_end_le := Nat.zero_le _
        large := fun hbig => ⟨rfl, rfl, (h.large hbig).2.2⟩ }
  · exact h

theorem refill_size : (refill me).size = me.size := by
  unfold refill
  split
  · split <;> rfl
  · rfl

theorem Bipbuf.Loose.poll (h : me.Loose) : (bipbuf_poll me n).2.Loose := by
  unfold bipbuf_poll
  split
  · exact h
  next hempty =>
      split
      · exact h
      next hin =>
          have hsize : me.size < 2 ^ 31 := by
            by_contra hbig
            obtain ⟨hstart, hend, -⟩ := h.large (by omega)
            exact hempty (by simp [bipbuf_is_empty, hstart, hend])
          have hmoved : ({ me with a_start := uint32 (me.a_start + n) } : Bipbuf).Loose :=
            { h with
              a_start_le := Nat.le_of_not_lt hin
              large := fun hbig => absurd hsize (Nat.not_lt.mpr hbig) }
          exact hmoved.refill.check (by rwa [refill_size])

theorem Bipbuf.Loose.apply {op : BipOp} (h : me.Loose) : (me.apply op).Loose := by
  cases op with
  | push size => exact h.push
  | offer data => exact h.offer
  | poll size => exact h.poll
  | write at_ bytes => exact h.copy_in

end Memcached.MemoryLru

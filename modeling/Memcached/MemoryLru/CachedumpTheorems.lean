import Memcached.MemoryLru.Cachedump

/-!
# The lines of a cache dump

The loop stops at the first line that is too long for a buffer that would begin where the line would, since the address
of the buffer is compared with its size.
-/

namespace Memcached.MemoryLru

open Thread (c_string)

variable {process_started : UInt64} {buffer limit shown i j k : Nat} {malloc : Option Nat} {queue : List Listed}
  {ls : List (List UInt8)} {written : List UInt8} {it : Listed}

/-- The lines of the items in the queue, of at most `limit` of them. -/
def lines (process_started : UInt64) (queue : List Listed) (limit : Nat) : List (List UInt8) :=
  let items := queue.filter fun it => ¬it.pseudo
  (if limit = 0 then items else items.take limit).map (Listed.line process_started)

/-- The length of the first `k` lines. -/
def length_upto (ls : List (List UInt8)) (k : Nat) : Nat := (ls.take k).flatten.length

/-- No more than `k` lines fit, with the six bytes behind them. -/
structure Longest (ls : List (List UInt8)) (k : Nat) : Prop where
  le : k ≤ ls.length
  fits : length_upto ls k + 6 ≤ memlimit
  next : k < ls.length → memlimit < length_upto ls (k + 1) + 6

structure Dumps (process_started : UInt64) (malloc : Option Nat) (queue : List Listed) (limit : Nat) (out : Dump) :
    Prop where
  unlocked : out.locked = false
  inside : out.reached ≤ memlimit
  text : match malloc with
    | none => out.buffer = none
    | some _ => ∃ k, Longest (lines process_started queue limit) k ∧
        out.buffer = some (((lines process_started queue limit).take k).flatten ++ c_string "END\r\n") ∧
        out.bytes = length_upto (lines process_started queue limit) k + 5

/-! ## Lines -/

theorem line_ne_nil : it.line process_started ≠ [] := by
  have hhead : (c_string "ITEM ").length = 5 := rfl
  intro hnil
  have hlen := congrArg List.length hnil
  simp only [Listed.line, List.length_append, hhead, List.length_nil] at hlen
  omega

theorem length_format_d (n : Int32) : (format_d n).length ≤ 11 := by
  have hle := n.toInt_lt
  have hge := n.le_toInt
  have hdigits : (Decimal.digits n.toInt.natAbs).length ≤ 10 := Decimal.length_digits_le (by decide) (by omega)
  have hminus : (c_string "-").length = 1 := rfl
  unfold format_d
  split
  · rw [List.length_append]
    omega
  · omega

theorem length_line_lt : (it.line process_started).length < 512 := by
  have hkey := it.nkey_le
  have hshort : (it.key.takeWhile (· ≠ 0)).length ≤ it.key.length := (List.takeWhile_sublist _).length_le
  have hsize := length_format_d (it.nbytes - 2)
  have htime : (Decimal.digits (if it.exptime = 0 then 0 else it.exptime.toUInt64 + process_started).toNat).length ≤ 20 :=
    Decimal.length_digits_le (by decide) (Nat.lt_of_lt_of_le (UInt64.toNat_lt _) (by decide))
  have htexts : (c_string "ITEM ").length = 5 ∧ (c_string " [").length = 2 ∧ (c_string " b; ").length = 4 ∧
      (c_string " s]\r\n").length = 5 := ⟨rfl, rfl, rfl, rfl⟩
  obtain ⟨h1, h2, h3, h4⟩ := htexts
  have hmax : Thread.KEY_MAX_LENGTH = 250 := rfl
  simp only [Listed.line, List.length_append]
  omega

theorem length_upto_succ (hi : i < ls.length) : length_upto ls (i + 1) = length_upto ls i + (ls.get ⟨i, hi⟩).length := by
  unfold length_upto
  rw [List.take_succ_eq_append_getElem hi, List.flatten_append, List.length_append]
  simp

theorem length_upto_mono (h : i ≤ j) : length_upto ls i ≤ length_upto ls j := by
  obtain ⟨d, rfl⟩ := Nat.exists_eq_add_of_le h
  unfold length_upto
  rw [List.take_add, List.flatten_append, List.length_append]
  omega

theorem length_upto_inj (hne : ∀ l ∈ ls, l ≠ []) (hi : i ≤ ls.length) (hj : j ≤ ls.length)
    (h : length_upto ls i = length_upto ls j) : i = j := by
  have hlt : ∀ {i j}, i < j → j ≤ ls.length → length_upto ls i < length_upto ls j := by
    intro i j hij hj
    have hpos : 0 < (ls.get ⟨i, by omega⟩).length := List.length_pos_of_ne_nil (hne _ (List.getElem_mem _))
    have hsucc : length_upto ls (i + 1) = length_upto ls i + (ls.get ⟨i, by omega⟩).length := length_upto_succ (by omega)
    have hmono : length_upto ls (i + 1) ≤ length_upto ls j := length_upto_mono hij
    omega
  rcases Nat.lt_trichotomy i j with hij | heq | hji
  · have := hlt hij hj
    omega
  · exact heq
  · have := hlt hji hi
    omega

/-! ## The loop -/

/-- The test for the end of the buffer, where the line is short enough for it. -/
def passes (buffer : Nat) (l : List UInt8) : Bool := buffer + l.length + 6 ≤ memlimit

theorem dump_loop_eq : dump_loop process_started buffer limit queue shown written =
    written ++ (((if limit = 0 then queue.filter fun it => ¬it.pseudo
      else (queue.filter fun it => ¬it.pseudo).take (limit - shown)).map (Listed.line process_started)).takeWhile
        (passes buffer)).flatten := by
  induction queue generalizing shown written with
  | nil => simp [dump_loop]
  | cons it rest ih =>
      by_cases hgo : limit = 0 ∨ shown < limit
      swap
      · have hnone : limit - shown = 0 := by omega
        rw [dump_loop, if_neg hgo, if_neg (by omega), hnone]
        simp
      rw [dump_loop, if_pos hgo]
      by_cases hpseudo : it.pseudo
      · rw [if_pos hpseudo, ih, List.filter_cons_of_neg (by simpa using hpseudo)]
      rw [if_neg hpseudo, List.filter_cons_of_pos (by simpa using hpseudo)]
      have hitems : ∀ items : List Listed, (if limit = 0 then it :: items else (it :: items).take (limit - shown)) =
          it :: if limit = 0 then items else items.take (limit - (shown + 1)) := by
        intro items
        split
        · rfl
        · rw [show limit - shown = (limit - (shown + 1)) + 1 by omega, List.take_succ_cons]
      rw [hitems, List.map_cons]
      by_cases hlong : buffer + (it.line process_started).length + 6 > memlimit
      · rw [if_pos hlong, List.takeWhile_cons_of_neg (by simpa [passes] using hlong)]
        simp
      · rw [if_neg hlong, ih, List.takeWhile_cons_of_pos (by simpa [passes] using hlong)]
        simp

/-- How many lines the loop writes. -/
def stop (buffer : Nat) (ls : List (List UInt8)) : Nat := (ls.takeWhile (passes buffer)).length

theorem takeWhile_eq_take_stop : ls.takeWhile (passes buffer) = ls.take (stop buffer ls) :=
  (List.prefix_iff_eq_take.mp (List.takeWhile_prefix _))

theorem stop_le : stop buffer ls ≤ ls.length := (List.takeWhile_sublist _).length_le

theorem stop_le_iff (hi : i < ls.length) : stop buffer ls ≤ i ↔
    ∃ j ≤ i, ∃ l, ls[j]? = some l ∧ memlimit < buffer + l.length + 6 := by
  induction ls generalizing i with
  | nil => cases hi
  | cons l ls ih =>
      by_cases hpass : passes buffer l
      · have hstop : stop buffer (l :: ls) = stop buffer ls + 1 := by
          rw [stop, List.takeWhile_cons_of_pos hpass, List.length_cons, stop]
        rw [hstop]
        cases i with
        | zero =>
            simp only [passes, decide_eq_true_eq] at hpass
            constructor
            · omega
            · rintro ⟨j, hj, l', hl', hlong⟩
              obtain rfl : j = 0 := by omega
              simp only [List.getElem?_cons_zero, Option.some.injEq] at hl'
              subst hl'
              omega
        | succ i =>
            rw [Nat.add_le_add_iff_right, ih (by simpa using hi)]
            constructor
            · rintro ⟨j, hj, l', hl', hlong⟩
              exact ⟨j + 1, by omega, l', hl', hlong⟩
            · rintro ⟨j, hj, l', hl', hlong⟩
              cases j with
              | zero =>
                  simp only [passes, decide_eq_true_eq] at hpass
                  simp only [List.getElem?_cons_zero, Option.some.injEq] at hl'
                  subst hl'
                  omega
              | succ j => exact ⟨j, by omega, l', hl', hlong⟩
      · have hstop : stop buffer (l :: ls) = 0 := by
          rw [stop, List.takeWhile_cons_of_neg hpass, List.length_nil]
        rw [hstop]
        simp only [passes, decide_eq_true_eq, Nat.not_le] at hpass
        simp only [Nat.zero_le, true_iff]
        exact ⟨0, Nat.zero_le _, l, rfl, hpass⟩

/-! ## What is returned -/

theorem item_cachedump_some : item_cachedump process_started (some buffer) queue limit =
    { buffer := some (((lines process_started queue limit).take
        (stop buffer (lines process_started queue limit))).flatten ++ c_string "END\r\n")
      bytes := length_upto (lines process_started queue limit) (stop buffer (lines process_started queue limit)) + 5
      reached := length_upto (lines process_started queue limit) (stop buffer (lines process_started queue limit)) + 6
      locked := false } := by
  have hloop : dump_loop process_started buffer limit queue 0 [] = ((lines process_started queue limit).take
      (stop buffer (lines process_started queue limit))).flatten := by
    rw [dump_loop_eq, List.nil_append, Nat.sub_zero, ← takeWhile_eq_take_stop, lines]
  simp only [item_cachedump, hloop, length_upto]

theorem longest_stop_iff : Longest ls (stop buffer ls) ↔
    ∀ i < ls.length, (stop buffer ls ≤ i ↔ memlimit < length_upto ls (i + 1) + 6) := by
  have hle : stop buffer ls ≤ ls.length := stop_le
  constructor
  · intro h i hi
    constructor
    · intro hstop
      have hnext := h.next (by omega)
      have hmono : length_upto ls (stop buffer ls + 1) ≤ length_upto ls (i + 1) := length_upto_mono (by omega)
      omega
    · intro hlong
      by_contra hbefore
      have hfits := h.fits
      have hmono : length_upto ls (i + 1) ≤ length_upto ls (stop buffer ls) := length_upto_mono (by omega)
      omega
  · intro h
    refine ⟨hle, ?_, fun hlt => (h _ hlt).mp (Nat.le_refl _)⟩
    cases hk : stop buffer ls with
    | zero =>
        have hzero : length_upto ls 0 = 0 := by simp [length_upto]
        rw [hzero]
        decide
    | succ k =>
        have hnot := h k (by omega)
        omega

theorem dumps_iff_longest :
    Dumps process_started (some buffer) queue limit (item_cachedump process_started (some buffer) queue limit) ↔
      Longest (lines process_started queue limit) (stop buffer (lines process_started queue limit)) := by
  have hne : ∀ l ∈ lines process_started queue limit, l ≠ [] := by
    intro l hl
    obtain ⟨it, -, rfl⟩ := List.mem_map.mp hl
    exact line_ne_nil
  rw [item_cachedump_some]
  constructor
  · intro h
    obtain ⟨k, hlongest, hbuffer, -⟩ := h.text
    have hlen := congrArg (fun b => (b.getD []).length) hbuffer
    simp only [Option.getD_some, List.length_append, Nat.add_right_cancel_iff] at hlen
    obtain rfl : stop buffer (lines process_started queue limit) = k :=
      length_upto_inj hne stop_le hlongest.le hlen
    exact hlongest
  · intro hlongest
    exact ⟨rfl, hlongest.fits, _, hlongest, rfl, rfl⟩

theorem dumps_iff : Dumps process_started malloc queue limit (item_cachedump process_started malloc queue limit) ↔
    ∃ buffer, malloc = some buffer ∧ ∀ i < (lines process_started queue limit).length,
      ((∃ j ≤ i, ∃ l, (lines process_started queue limit)[j]? = some l ∧ memlimit < buffer + l.length + 6) ↔
        memlimit < length_upto (lines process_started queue limit) (i + 1) + 6) := by
  cases malloc with
  | none =>
      constructor
      · intro h
        exact absurd h.unlocked (by simp [item_cachedump])
      · rintro ⟨_, hnone, -⟩
        cases hnone
  | some buffer =>
      rw [dumps_iff_longest, longest_stop_iff]
      constructor
      · intro h
        refine ⟨buffer, rfl, fun i hi => ?_⟩
        rw [← stop_le_iff hi]
        exact h i hi
      · rintro ⟨_, ⟨⟩, h⟩ i hi
        rw [stop_le_iff hi]
        exact h i hi

/-- Where the address of the buffer is not below its size, nothing but END is returned. -/
theorem dumps_iff_of_high (hhigh : memlimit ≤ buffer) :
    Dumps process_started (some buffer) queue limit (item_cachedump process_started (some buffer) queue limit) ↔
      lines process_started queue limit = [] := by
  have hshort : ∀ l ∈ lines process_started queue limit, l.length < 512 := by
    intro l hl
    obtain ⟨it, -, rfl⟩ := List.mem_map.mp hl
    exact length_line_lt
  rw [dumps_iff_longest]
  cases hls : lines process_started queue limit with
  | nil =>
      have hempty : Longest [] 0 := ⟨Nat.le_refl 0, by decide, nofun⟩
      have hstop : stop buffer [] = 0 := rfl
      rw [hstop]
      simp [hempty]
  | cons l ls =>
      have hstop : stop buffer (l :: ls) = 0 := by
        rw [stop, List.takeWhile_cons_of_neg (by simp only [passes, decide_eq_true_eq]; omega), List.length_nil]
      rw [hstop]
      constructor
      · intro h
        have hnext := h.next (by simp)
        have hlen : length_upto (l :: ls) (0 + 1) = l.length := by simp [length_upto]
        have hl := hshort l (by simp [hls])
        have hmax : memlimit = 2097152 := rfl
        omega
      · intro hnil
        cases hnil

/-- A queue of one item, and a buffer where `malloc` has large blocks. -/
theorem not_dumped : ¬Dumps 0 (some 0x7f0000000010) [⟨[97], 3, 0, by decide⟩] 0
    (item_cachedump 0 (some 0x7f0000000010) [⟨[97], 3, 0, by decide⟩] 0) := by
  rw [dumps_iff_of_high (by decide)]
  simp [lines, Listed.pseudo]

end Memcached.MemoryLru

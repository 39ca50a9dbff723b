import Memcached.Lib.Run
import Memcached.Thread.StatsBuf

/-!
# The buffer for statistics holds the records

With lines whose lengths stay 32-bit numbers, nothing is cut off and nothing is written outside of the buffer.
-/

namespace Memcached.Thread

open Transition
open Memory (read write read_add read_write_of_apart read_write_take)

/-! ## What is appended -/

/-- The record of a line. -/
def StatLine.record (protocol : Protocol) (opaque_id : UInt32) (l : StatLine) : List UInt8 :=
  match protocol with
  | .binary_prot => stat_header l.key.length (l.key.length + l.val.length) opaque_id ++ l.key ++ l.val
  | .ascii_prot => StatsBuf.ascii_stat l.key l.val

namespace StatsBuf

/-- The line is not a value without a key, and the buffer is large enough for it or grows. -/
def accepts (s : StatsBuf) (protocol : Protocol) (l : StatLine) : Bool :=
  ¬ (l.key = [] ∧ l.val ≠ []) ∧ (s.grow_stats_buf (needed l protocol) l.allocated).any (·.2)

/-- The records of the lines that are accepted, one after the other. -/
def records (protocol : Protocol) (opaque_id : UInt32) : StatsBuf → List StatLine → List UInt8
  | _, [] => []
  | s, l :: ls => (if s.accepts protocol l then l.record protocol opaque_id else []) ++
      records protocol opaque_id ((s.append_stats l protocol opaque_id).getD s) ls

/-- The buffer holds `text`, and `offset` is its length. -/
def Holds (s : StatsBuf) (text : List UInt8) : Prop :=
  match s.buffer with
  | none => text = []
  | some mem => s.offset = text.length ∧ s.offset ≤ s.size ∧ read mem 0 s.offset = text

/-- The size is doubled until `asked` bytes behind `offset` are free. -/
def Doubled (size offset asked free : Nat) : Prop :=
  ∃ k, free = size * 2 ^ k - offset ∧ asked ≤ free ∧ ∀ j < k, size * 2 ^ j - offset < asked

/-- What is then free for `asked` bytes; a new buffer starts with 2048. -/
def Free (s : StatsBuf) (asked free : Nat) : Prop :=
  match s.buffer with
  | none => Doubled 2048 0 asked free
  | some _ => Doubled s.size s.offset asked free

/-- If the line is not a value without a key, and the bytes it asks for are free or are allocated: its length is a 32-bit
number or, printed, an `int`; and there the bytes that are then free, cut to 32 bits, are a positive `int` that is large
enough. -/
def Fits (protocol : Protocol) (s : StatsBuf) (l : StatLine) : Prop :=
  ¬ (l.key = [] ∧ l.val ≠ []) → l.allocated = true ∨ s.buffer.isSome ∧ needed l protocol ≤ s.size - s.offset →
    match protocol with
    | .binary_prot => l.key.length + l.val.length < 2 ^ 32
    | .ascii_prot => (ascii_stat l.key l.val).length < 2 ^ 31 ∧ ∀ free, s.Free (needed l .ascii_prot) free →
        (ascii_stat l.key l.val).length + 2 ≤ free % 2 ^ 32 ∧ free % 2 ^ 32 < 2 ^ 31

/-- A line that fits is appended. -/
def Step (protocol : Protocol) (opaque_id : UInt32) (s : StatsBuf) (l : StatLine) (s' : StatsBuf) : Prop :=
  s.Fits protocol l ∧ s.append_stats l protocol opaque_id = some s'

section
variable {s s' : StatsBuf} {l : StatLine} {ls : List StatLine} {protocol : Protocol} {opaque_id : UInt32}
  {text bytes : List UInt8} {n asked offset nsize available : Nat} {allocated rv : Bool}

/-! ## Growth -/

/-- Doubling ends at the first size that is large enough. -/
theorem double_eq (n nsize : Nat) (hpos : 0 < nsize) (hoffset : offset ≤ nsize) (hasked : asked ≤ 2 ^ 33)
    (hlt : nsize < 2 ^ 64) (hroom : nsize < 2 ^ 63 ∨ asked ≤ nsize - offset) (hfuel : asked + offset ≤ nsize * 2 ^ n) :
    ∃ k, double asked offset n nsize (nsize - offset) = some (nsize * 2 ^ k) ∧ asked ≤ nsize * 2 ^ k - offset ∧
      ∀ j < k, nsize * 2 ^ j - offset < asked := by
  induction n generalizing nsize with
  | zero =>
      rw [double, if_neg (by omega)]
      exact ⟨0, by simp, by omega, fun j hj => by omega⟩
  | succ n ih =>
      rw [double]
      split
      · next hmore =>
        have hsmall : 2 * nsize % 2 ^ 64 = 2 * nsize := Nat.mod_eq_of_lt (by omega)
        have havailable : (2 * nsize + (2 ^ 64 - offset)) % 2 ^ 64 = 2 * nsize - offset := by omega
        have hpow : ∀ k, 2 * nsize * 2 ^ k = nsize * 2 ^ (k + 1) := fun k => by
          rw [Nat.pow_succ]
          ac_rfl
        simp only [hsmall, havailable]
        obtain ⟨k, hk, hfree, hleast⟩ := ih (2 * nsize) (by omega) (by omega) (by omega) (by omega)
          (by rw [hpow]; exact hfuel)
        rw [hpow] at hk hfree
        refine ⟨k + 1, hk, hfree, fun j hj => ?_⟩
        cases j with
        | zero => simpa using hmore
        | succ j =>
            rw [← hpow]
            exact hleast j (by omega)
      · exact ⟨0, by simp, by omega, fun j hj => by omega⟩

/-- A buffer has a size, and no object is larger. -/
def Sized (s : StatsBuf) : Prop := s.buffer.isSome = true → 0 < s.size ∧ s.size ≤ PTRDIFF_MAX

/-- Growing keeps what the buffer holds; with success the bytes that are asked for are free. -/
theorem grow_stats_buf_eq (allocated : Bool) (h : s.Holds text) (hsized : s.Sized) (hasked : asked ≤ 2 ^ 33) :
    ∃ s' rv, s.grow_stats_buf asked allocated = some (s', rv) ∧ s'.Holds text ∧ s'.Sized ∧
      (rv = true → s'.buffer.isSome = true ∧ (0 < asked → s.Free asked (s'.size - s'.offset)) ∧
        (allocated = true ∨ s.buffer.isSome ∧ asked ≤ s.size - s.offset)) := by
  cases hbuf : s.buffer with
  | none =>
      obtain rfl : text = [] := by simpa [Holds, hbuf] using h
      -- no byte is free before a new buffer is doubled
      have hdouble : ∃ g, double asked 0 64 1024 0 = some g ∧ 0 < g ∧ (0 < asked → s.Free asked g) := by
        rw [double]
        split
        · obtain ⟨k, hk, hfree, hleast⟩ := double_eq 63 2048 (Nat.zero_lt_succ _) (Nat.zero_le _) hasked (by omega)
            (.inl (by omega)) (by omega)
          refine ⟨2048 * 2 ^ k, hk, Nat.mul_pos (Nat.zero_lt_succ _) (Nat.two_pow_pos k), fun _ => ?_⟩
          simp only [Free, hbuf]
          exact ⟨k, rfl, hfree, hleast⟩
        · next hnone => exact ⟨1024, rfl, Nat.zero_lt_succ _, fun hpos => absurd hpos hnone⟩
      obtain ⟨g, hg, hpos, hfree⟩ := hdouble
      have hne : g ≠ 0 := by omega
      simp only [grow_stats_buf, hbuf, Option.isNone_none, if_true, Nat.sub_self, hg, Option.bind_eq_bind, Option.bind_some,
        ne_eq, hne, not_false_eq_true]
      split
      · next hok =>
        exact ⟨_, true, rfl, by simp [Holds], fun _ => ⟨hpos, hok.2⟩, fun _ => ⟨rfl, hfree, .inl hok.1⟩⟩
      · exact ⟨_, false, rfl, by simp [Holds], fun h => by simp at h, fun h => by cases h⟩
  | some mem =>
      obtain ⟨hlen, hle, hread⟩ : s.offset = text.length ∧ s.offset ≤ s.size ∧ read mem 0 s.offset = text := by
        simpa [Holds, hbuf] using h
      obtain ⟨hsize, hmax⟩ := hsized (by simp [hbuf])
      simp only [PTRDIFF_MAX] at hmax
      obtain ⟨k, hg, hfree, hleast⟩ := double_eq 64 s.size hsize hle hasked (by omega) (.inl (by omega)) (by omega)
      have hgrown : s.size ≤ s.size * 2 ^ k := Nat.le_mul_of_pos_right _ (Nat.two_pow_pos k)
      have hFree : s.Free asked (s.size * 2 ^ k - s.offset) := by
        simp only [Free, hbuf]
        exact ⟨k, rfl, hfree, hleast⟩
      simp only [grow_stats_buf, hbuf, Option.isNone_some, Bool.false_eq_true, if_false, hg, Option.bind_eq_bind,
        Option.bind_some]
      split_ifs with hne hok
      · refine ⟨_, true, rfl, ?_, fun _ => ⟨show 0 < s.size * 2 ^ k by omega, hok.2⟩,
          fun _ => ⟨rfl, fun _ => hFree, .inl hok.1⟩⟩
        exact ⟨hlen, show s.offset ≤ s.size * 2 ^ k by omega, hread⟩
      · exact ⟨s, false, rfl, h, hsized, fun h => by cases h⟩
      · rw [not_not] at hne
        rw [hne] at hFree hfree
        exact ⟨s, true, rfl, h, hsized, fun _ => ⟨by simp [hbuf], fun _ => hFree, .inr ⟨rfl, hfree⟩⟩⟩

theorem Free.le {free : Nat} (h : s.Free asked free) : asked ≤ free := by
  cases hbuf : s.buffer with
  | none =>
      simp only [Free, hbuf] at h
      exact h.choose_spec.2.1
  | some _ =>
      simp only [Free, hbuf] at h
      exact h.choose_spec.2.1

/-! ## Records -/

/-- The first bytes that are put behind what the buffer holds. -/
theorem put_eq (bytes : List UInt8) (n : Nat) (h : s.Holds text) (hbuf : s.buffer.isSome = true)
    (hroom : s.offset + bytes.length ≤ s.size) (hn : n ≤ bytes.length) : ∃ s', s.put bytes = some s' ∧ s'.offset = s.offset ∧ s'.size = s.size ∧
      Holds { s' with offset := s.offset + n } (text ++ bytes.take n) ∧ s'.buffer.isSome = true := by
  obtain ⟨mem, hmem⟩ := Option.isSome_iff_exists.mp hbuf
  obtain ⟨hlen, hle, hread⟩ : s.offset = text.length ∧ s.offset ≤ s.size ∧ read mem 0 s.offset = text := by
    simpa [Holds, hmem] using h
  refine ⟨{ s with buffer := some (write mem s.offset bytes) }, by simp [put, hmem, hroom], rfl, rfl, ⟨?_, ?_, ?_⟩, rfl⟩
  · simp [hlen, hn]
  · show s.offset + n ≤ s.size
    omega
  · show read (write mem s.offset bytes) 0 (s.offset + n) = _
    rw [read_add, read_write_of_apart (.inl (by omega)), hread, Nat.zero_add, read_write_take hn]

theorem length_stat_header (klen bodylen : Nat) (opaque_id : UInt32) :
    (stat_header klen bodylen opaque_id).length = 24 := by
  simp [stat_header]

theorem append_bin_stats_eq (h : s.Holds text) (hbuf : s.buffer.isSome = true) (hsized : s.Sized)
    (hfits : l.key.length + l.val.length < 2 ^ 32) (hkey : ¬ (l.key = [] ∧ l.val ≠ []))
    (hroom : needed l .binary_prot ≤ s.size - s.offset) :
    ∃ s', s.append_bin_stats l opaque_id = some s' ∧ s'.Holds (text ++ l.record .binary_prot opaque_id) ∧ s'.Sized ∧
      s'.offset ≤ s'.size := by
  have hbody : (if l.key.length > 0 then l.key ++ l.val else []) = l.key ++ l.val := by
    split
    · rfl
    · next hnil =>
      have hkey' : l.key = [] := List.eq_nil_of_length_eq_zero (by omega)
      have hval : l.val = [] := by
        by_contra hval
        exact hkey ⟨hkey', hval⟩
      simp [hkey', hval]
  have hlen : (l.record .binary_prot opaque_id).length = 24 + (l.key.length + l.val.length) := by
    simp [StatLine.record, length_stat_header]
  have hmod : (l.key.length + l.val.length) % 2 ^ 32 = l.key.length + l.val.length := Nat.mod_eq_of_lt hfits
  simp only [needed, Nat.add_comm l.val.length, hmod] at hroom
  obtain ⟨hpos, hmax⟩ := hsized hbuf
  simp only [PTRDIFF_MAX] at hmax
  obtain ⟨s₁, hput, hoffset, hsize, hholds, hsome⟩ := put_eq (l.record .binary_prot opaque_id) _ h hbuf (by omega)
    (Nat.le_refl _)
  rw [List.take_length, hlen] at hholds
  have hbytes : stat_header l.key.length (l.key.length + l.val.length) opaque_id ++ (l.key ++ l.val) =
      l.record .binary_prot opaque_id := by
    simp [StatLine.record]
  have hoff : (s₁.offset + 24 + (l.key.length + l.val.length)) % 2 ^ 64 =
      s.offset + (24 + (l.key.length + l.val.length)) := by
    rw [hoffset, Nat.mod_eq_of_lt (by omega), Nat.add_assoc]
  refine ⟨_, ?_, hholds, fun _ => ⟨hsize ▸ hpos, ?_⟩, ?_⟩
  · simp only [append_bin_stats, hmod, hbody, hbytes, hput, Option.bind_eq_bind, Option.bind_some, hoff]
  · show s₁.size ≤ _
    simp only [PTRDIFF_MAX, hsize]
    exact hmax
  · show s.offset + _ ≤ s₁.size
    omega

theorem append_ascii_stats_eq (h : s.Holds text) (hbuf : s.buffer.isSome = true) (hsized : s.Sized)
    (hprinted : (ascii_stat l.key l.val).length < 2 ^ 31)
    (hroom : (ascii_stat l.key l.val).length + 2 ≤ (s.size - s.offset) % 2 ^ 32)
    (hint : (s.size - s.offset) % 2 ^ 32 < 2 ^ 31) :
    ∃ s', s.append_ascii_stats l = some s' ∧ s'.Holds (text ++ ascii_stat l.key l.val) ∧ s'.Sized ∧
      s'.offset ≤ s'.size := by
  generalize hrecord : ascii_stat l.key l.val = record at *
  generalize hfree : (s.size - s.offset) % 2 ^ 32 = free at *
  obtain ⟨hpos, hmax⟩ := hsized hbuf
  simp only [PTRDIFF_MAX] at hmax
  have hremaining : c_int (s.size - s.offset) = free := by
    simp only [c_int, Int.bmod]
    omega
  have hsize_t : (((free : Int) - 1) % 2 ^ 64).toNat = free - 1 := by omega
  have htake : record.take (free - 1 - 1) = record := List.take_of_length_le (by omega)
  obtain ⟨s₁, hput, hoffset, hsize, hholds, hsome⟩ := put_eq (record ++ [0]) record.length h hbuf
    (by rw [List.length_append, List.length_singleton]; omega) (by simp)
  rw [List.take_left] at hholds
  have hoff : (s₁.offset + record.length) % 2 ^ 64 = s.offset + record.length := by
    rw [hoffset, Nat.mod_eq_of_lt (by omega)]
  refine ⟨_, ?_, hholds, fun _ => ⟨hsize ▸ hpos, ?_⟩, ?_⟩
  · have hprint : s.snprintf (free - 1) record = some (s₁, record.length) := by
      rw [snprintf, if_neg (by omega), if_neg (by omega), htake, hput]
      rfl
    have hmin : ¬ ((free : Int) - 1) < -2 ^ 31 := by omega
    simp only [append_ascii_stats, hremaining, hmin, if_false, hsize_t, hrecord, hprint, Option.bind_eq_bind,
      Option.bind_some, hoff]
  · show s₁.size ≤ _
    simp only [PTRDIFF_MAX, hsize]
    exact hmax
  · show s.offset + _ ≤ s₁.size
    omega

/-! ## Runs -/

theorem needed_le (protocol : Protocol) (l : StatLine) : needed l protocol ≤ 2 ^ 33 := by
  cases protocol <;> simp only [needed] <;> omega

/-- What is printed for a line whose lengths wrap round is no `int`. -/
theorem needed_pos (hkey : ¬ (l.key = [] ∧ l.val ≠ [])) (hprinted : (ascii_stat l.key l.val).length < 2 ^ 31) :
    0 < needed l .ascii_prot := by
  have hklen := l.key_lt
  simp only [needed]
  by_cases hval : l.val = []
  · simp [hval]
    omega
  have hkey : l.key ≠ [] := fun hnil => hkey ⟨hnil, hval⟩
  have hlen : (ascii_stat l.key l.val).length ≥ l.key.length + l.val.length := by
    simp [ascii_stat, hkey, hval]
    omega
  omega

/-- A line that fits. -/
theorem append_stats_eq (opaque_id : UInt32) (h : s.Holds text) (hsized : s.Sized) (hfits : s.Fits protocol l) :
    ∃ s', s.append_stats l protocol opaque_id = some s' ∧ s'.Sized ∧
      s'.Holds (text ++ if s.accepts protocol l then l.record protocol opaque_id else []) := by
  by_cases hkey : l.key = [] ∧ l.val ≠ []
  · refine ⟨s, if_pos hkey, hsized, ?_⟩
    rw [accepts, decide_eq_false (by simp [hkey])]
    simpa using h
  obtain ⟨s₁, rv, hgrow, hholds, hsized₁, hroom⟩ := grow_stats_buf_eq l.allocated h hsized (needed_le protocol l)
  have haccepts : s.accepts protocol l = rv := by
    rw [accepts, hgrow]
    simp [hkey]
  rw [append_stats, if_neg hkey, haccepts]
  simp only [hgrow, Option.bind_eq_bind, Option.bind_some]
  cases rv with
  | false => exact ⟨s₁, rfl, hsized₁, by simpa using hholds⟩
  | true =>
      obtain ⟨hbuf, hfree, hgrown⟩ := hroom rfl
      have hfits := hfits hkey hgrown
      have happended : ∃ s₂, (match protocol with
          | .binary_prot => s₁.append_bin_stats l opaque_id
          | .ascii_prot => s₁.append_ascii_stats l) = some s₂ ∧ s₂.Holds (text ++ l.record protocol opaque_id) ∧ s₂.Sized ∧
          s₂.offset ≤ s₂.size := by
        cases protocol with
        | binary_prot =>
            exact append_bin_stats_eq hholds hbuf hsized₁ hfits hkey (hfree (Nat.succ_pos _)).le
        | ascii_prot =>
            obtain ⟨hprinted, hfits⟩ := hfits
            obtain ⟨hroom, hint⟩ := hfits _ (hfree (needed_pos hkey hprinted))
            exact append_ascii_stats_eq hholds hbuf hsized₁ hprinted hroom hint
      obtain ⟨s₂, happend, hholds₂, hsized₂, hle⟩ := happended
      refine ⟨s₂, ?_, hsized₂, by simpa using hholds₂⟩
      cases protocol with
      | binary_prot =>
          dsimp only at happend
          simp [happend, hle]
      | ascii_prot =>
          dsimp only at happend
          simp [happend, hle]

theorem Holds.run (h : s.Holds text) (hsized : s.Sized) (hrun : Run (Step protocol opaque_id) s ls s') :
    s'.Sized ∧ s'.Holds (text ++ records protocol opaque_id s ls) := by
  induction hrun generalizing text with
  | nil s => exact ⟨hsized, by simpa [records] using h⟩
  | cons hstep _ ih =>
      obtain ⟨hfits, hstep⟩ := hstep
      obtain ⟨s₁, heq, hsized₁, hholds⟩ := append_stats_eq opaque_id h hsized hfits
      obtain rfl := Option.some.inj (heq.symm.trans hstep)
      obtain ⟨hend, hall⟩ := ih hholds hsized₁
      exact ⟨hend, by simpa [records, heq] using hall⟩

/-- After lines that fit, the buffer holds the records of those that were accepted; and a line that fits is appended
without a write outside of the buffer. -/
theorem stats_buffer_holds {size offset : Nat} (hrun : Run (Step protocol opaque_id) ⟨none, size, offset⟩ ls s) :
    s.Holds (records protocol opaque_id ⟨none, size, offset⟩ ls) ∧
      ∀ l, s.Fits protocol l → ∃ s', s.append_stats l protocol opaque_id = some s' := by
  have hnil : Holds ⟨none, size, offset⟩ [] := rfl
  have hfresh : Sized ⟨none, size, offset⟩ := fun h => by cases h
  obtain ⟨hsized, hholds⟩ := hnil.run hfresh hrun
  rw [List.nil_append] at hholds
  refine ⟨hholds, fun l hfits => ?_⟩
  obtain ⟨s', heq, -⟩ := append_stats_eq opaque_id hholds hsized hfits
  exact ⟨s', heq⟩

/-- Nothing is doubled where enough is free. -/
theorem Doubled.eq_of_le {size free : Nat} (h : Doubled size offset asked free) (hle : asked ≤ size - offset) :
    free = size - offset := by
  obtain ⟨k, rfl, -, hleast⟩ := h
  cases k with
  | zero => simp
  | succ k =>
      have hmore := hleast 0 (Nat.zero_lt_succ k)
      simp at hmore
      omega

end

theorem stats_buffer_holds_witness : ∃ s, Run (Step .ascii_prot 0) ⟨none, 0, 0⟩
    [⟨[97], [49], true, by decide, by decide, by decide, by decide⟩,
      ⟨[], [], true, by decide, by decide, by decide, by decide⟩] s ∧ s.Holds (c_string "STAT a 1\r\nEND\r\n") := by
  have hnil : Holds ⟨none, 0, 0⟩ [] := rfl
  have hfits₁ : Fits .ascii_prot ⟨none, 0, 0⟩ ⟨[97], [49], true, by decide, by decide, by decide, by decide⟩ := by
    intro _ _
    refine ⟨by decide, fun free hfree => ?_⟩
    obtain rfl := Doubled.eq_of_le hfree (by decide)
    decide
  obtain ⟨s₁, hs₁, hsized, hholds⟩ := append_stats_eq 0 hnil (fun h => by cases h) hfits₁
  obtain ⟨⟨mem, hmem⟩, hsize, hoffset⟩ : (∃ mem, s₁.buffer = some mem) ∧ s₁.size = 2048 ∧ s₁.offset = 10 := by
    obtain rfl := Option.some.inj hs₁
    exact ⟨⟨_, rfl⟩, rfl, rfl⟩
  have hfits₂ : Fits .ascii_prot s₁ ⟨[], [], true, by decide, by decide, by decide, by decide⟩ := by
    intro _ _
    refine ⟨by decide, fun free hfree => ?_⟩
    simp only [Free, hmem, hsize, hoffset] at hfree
    obtain rfl := hfree.eq_of_le (by decide)
    decide
  obtain ⟨s₂, hs₂, -⟩ := append_stats_eq 0 hholds hsized hfits₂
  have hrun : Run (Step .ascii_prot 0) _ _ s₂ := .cons ⟨hfits₁, hs₁⟩ (.cons ⟨hfits₂, hs₂⟩ (.nil s₂))
  refine ⟨s₂, hrun, ?_⟩
  have hrecords := (stats_buffer_holds hrun).1
  have htext : records .ascii_prot 0 ⟨none, 0, 0⟩ [⟨[97], [49], true, by decide, by decide, by decide, by decide⟩,
      ⟨[], [], true, by decide, by decide, by decide, by decide⟩] = c_string "STAT a 1\r\nEND\r\n" := by
    decide +kernel
  rwa [htext] at hrecords

/-- The length of a record wraps round, and the value is copied behind the end of the buffer. -/
theorem append_stats_of_wrap (l : StatLine) (hkey : l.key.length = 1) (hval : l.val.length = 2 ^ 32 - 1)
    (hallocated : l.allocated = true) : append_stats ⟨none, 0, 0⟩ l .binary_prot 0 = none := by
  have hneeded : needed l .binary_prot = 24 := by simp [needed, hkey, hval]
  have hgrow : grow_stats_buf ⟨none, 0, 0⟩ 24 true = some (⟨some fun _ => 0, 2048, 0⟩, true) := rfl
  have hkey' : ¬ (l.key = [] ∧ l.val ≠ []) := fun h => by simp [h.1] at hkey
  have hbody : (if l.key.length > 0 then l.key ++ l.val else []) = l.key ++ l.val := if_pos (by omega)
  have hput (header : List UInt8) : put ⟨some fun _ => 0, 2048, 0⟩ (header ++ (l.key ++ l.val)) = none := by
    refine if_neg ?_
    simp only [List.length_append, hkey, hval]
    omega
  rw [append_stats, if_neg hkey', hneeded, hallocated, hgrow]
  simp [append_bin_stats, hbody, hput]

theorem long_value_overruns : ∃ l : StatLine, l.allocated = true ∧
    append_stats ⟨none, 0, 0⟩ l .binary_prot 0 = none :=
  ⟨⟨[97], List.replicate (2 ^ 32 - 1) 55, true, by decide, by rw [List.length_replicate]; decide, by decide,
    fun h => absurd (List.eq_of_mem_replicate h) (by decide)⟩, rfl,
    append_stats_of_wrap _ rfl List.length_replicate rfl⟩

end StatsBuf

end Memcached.Thread

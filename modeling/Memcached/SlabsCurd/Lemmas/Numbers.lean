import Mathlib.Data.List.TakeWhile
import Mathlib.Tactic.SplitIfs
import Memcached.SlabsCurd.Delta

/-!
# Numbers in memory

What `strtoull` and `safe_strtoull` read of a number that is written out, and of a text that goes on.
-/

namespace Memcached.SlabsCurd

open MemoryLru Decimal

variable {n : Nat} {str more rest : List UInt8}

/-! ## Digits -/

theorem digit_ne {d : UInt8} (hd : isdigit d = true) : d ≠ 0 ∧ d ≠ 43 ∧ d ≠ 45 ∧ isspace d = false := by
  simp only [isdigit, decide_eq_true_eq, UInt8.le_iff_toNat_le] at hd
  simp only [isspace, ne_eq, ← UInt8.toNat_inj, UInt8.le_iff_toNat_le, decide_eq_false_iff_not]
  simp only [UInt8.reduceToNat] at hd ⊢
  omega

theorem digits_head : ∃ d ds, digits n = d :: ds ∧ isdigit d = true := by
  cases h : digits n with
  | nil => exact absurd h digits_ne_nil
  | cons d ds => exact ⟨d, ds, rfl, isdigit_of_mem (h ▸ List.mem_cons_self)⟩

theorem dropWhile_isspace_digits : (digits n ++ rest).dropWhile isspace = digits n ++ rest := by
  obtain ⟨d, ds, hds, hd⟩ := @digits_head n
  rw [hds, List.cons_append, List.dropWhile_cons, if_neg]
  simp [(digit_ne hd).2.2.2]

theorem sign_digits : sign (digits n ++ rest) = (false, digits n ++ rest) := by
  obtain ⟨d, ds, hds, hd⟩ := @digits_head n
  obtain ⟨-, hplus, hminus, -⟩ := digit_ne hd
  rw [hds, List.cons_append]
  simp only [sign]
  split
  · next heq => exact absurd (List.cons.inj heq).1 hminus
  · next heq => exact absurd (List.cons.inj heq).1 hplus
  · rfl

/-! ## strtoull -/

/-- A number in front of a text that does not start with a digit, after blanks. -/
theorem strtoull_digits (hn : n < 2 ^ 64) (hrest : ∀ b ∈ rest.head?, isdigit b = false)
    (hstr : str.dropWhile isspace = digits n ++ rest) : strtoull str = (.ofNat n, rest, false) := by
  simp only [strtoull, hstr, sign_digits, takeWhile_digits hrest, dropWhile_digits hrest, value_digits]
  rw [if_neg digits_ne_nil, if_neg (Nat.not_le.mpr hn)]
  rfl

theorem sign_append {s : List UInt8} (hs : s ≠ []) : sign (s ++ more) = ((sign s).1, (sign s).2 ++ more) := by
  cases s with
  | nil => exact absurd rfl hs
  | cons b s =>
      rw [List.cons_append]
      simp only [sign]
      split <;> simp_all

theorem sign_suffix {s : List UInt8} : (sign s).2 <:+ s := by
  simp only [sign]
  split
  · exact List.suffix_cons _ _
  · exact List.suffix_cons _ _
  · exact List.suffix_rfl

/-- What follows a number that ends before the end of the text is not looked at. -/
theorem strtoull_append (hnumber : (strtoull str).2.1 ≠ str) (hends : (strtoull str).2.1 ≠ []) :
    strtoull (str ++ more) = ((strtoull str).1, (strtoull str).2.1 ++ more, (strtoull str).2.2) := by
  simp only [strtoull] at hnumber hends ⊢
  have hspace : str.dropWhile isspace ≠ [] := by
    intro hnil
    rw [hnil] at hnumber
    simp [sign] at hnumber
  have happend : (str ++ more).dropWhile isspace = str.dropWhile isspace ++ more := by
    rw [List.dropWhile_append, if_neg (by simpa using hspace)]
  rw [happend, sign_append hspace]
  dsimp only
  generalize (sign (str.dropWhile isspace)).2 = s at *
  have hdigits : s.takeWhile isdigit ≠ [] := by
    intro hnil
    simp [hnil] at hnumber
  have hrest : s.dropWhile isdigit ≠ [] := by
    intro hnil
    rw [hnil, if_neg hdigits] at hends
    split at hends <;> exact hends rfl
  have htake : (s ++ more).takeWhile isdigit = s.takeWhile isdigit := by
    rw [List.takeWhile_append, if_neg]
    intro hlen
    apply hrest
    have hall := (List.takeWhile_prefix isdigit).eq_of_length hlen
    exact List.dropWhile_eq_nil_iff.mpr (List.takeWhile_eq_self_iff.mp hall)
  have hdrop : (s ++ more).dropWhile isdigit = s.dropWhile isdigit ++ more := by
    rw [List.dropWhile_append, if_neg (by simpa using hrest)]
  rw [htake, hdrop, if_neg hdigits, if_neg hdigits]
  split <;> rfl

theorem endptr_ne_nil {pre : List UInt8} (hline : str = pre ++ [13, 10]) : (strtoull str).2.1 ≠ [] := by
  intro hnil
  simp only [strtoull] at hnil
  have hsuffix : (sign (str.dropWhile isspace)).2 <:+ str := sign_suffix.trans (List.dropWhile_suffix _)
  generalize (sign (str.dropWhile isspace)).2 = s at hnil hsuffix
  have hall : s.takeWhile isdigit ≠ [] → s.dropWhile isdigit ≠ [] := by
    intro hdigits hrest
    have hs : s ≠ [] := fun h => hdigits (by rw [h]; rfl)
    have hlast : s.getLast hs = 10 := by
      rw [hsuffix.getLast hs]
      simp [hline]
    have hdigit := List.dropWhile_eq_nil_iff.mp hrest _ (List.getLast_mem hs)
    rw [hlast] at hdigit
    exact absurd hdigit (by decide)
  split_ifs at hnil with hdigits
  · simp [hline] at hnil
  · exact hall hdigits hnil
  · exact hall hdigits hnil
  · exact hall hdigits hnil

/-! ## safe_strtoull -/

theorem c_str_append_of_pos (h : ∀ b ∈ str, b ≠ 0) : c_str (str ++ more) = str ++ c_str more :=
  List.takeWhile_append_of_pos fun b hb => by simp [h b hb]

theorem c_str_eq_of_mem (h : 0 ∈ str) : c_str (str ++ more) = c_str str := by
  rw [c_str, c_str, List.takeWhile_append, if_neg]
  intro hlen
  have hall := List.takeWhile_eq_self_iff.mp ((List.takeWhile_prefix _).eq_of_length hlen) 0 h
  simp at hall

/-- A text that ends a line, and that parses as a number, is read as that number whatever follows it in memory. -/
theorem safe_strtoull_append {pre : List UInt8} {old v : UInt64} (hline : str = pre ++ [13, 10])
    (hold : safe_strtoull str = some old) (hv : safe_strtoull (str ++ more) = some v) : v = old := by
  by_cases hnul : 0 ∈ str
  · simp only [safe_strtoull, c_str_eq_of_mem hnul] at hv
    simp only [safe_strtoull] at hold
    exact Option.some.inj (hv.symm.trans hold)
  have hne : ∀ b ∈ str, b ≠ 0 := fun b hb hz => hnul (hz ▸ hb)
  have hself : c_str str = str := by
    have := @c_str_append_of_pos str [] hne
    simpa [c_str] using this
  simp only [safe_strtoull, hself] at hold
  simp only [safe_strtoull, c_str_append_of_pos hne] at hv
  have hnumber : (strtoull str).2.1 ≠ str := by
    intro heq
    rw [if_pos (.inr heq)] at hold
    cases hold
  rw [strtoull_append hnumber (endptr_ne_nil hline)] at hv
  split_ifs at hv hold
  all_goals simp_all

/-- The text of a number on a line: its digits, and blanks up to the end of the line. -/
def number_line (n k : Nat) : List UInt8 := digits n ++ (List.replicate k 32 ++ [13, 10])

theorem mem_number_line {k : Nat} {b : UInt8} (hb : b ∈ number_line n k) : b ≠ 0 ∧ b ≠ 45 := by
  simp only [number_line, List.mem_append, List.mem_replicate, List.mem_cons, List.not_mem_nil, or_false] at hb
  rcases hb with hd | ⟨-, rfl⟩ | rfl | rfl
  · have hne := digit_ne (isdigit_of_mem hd)
    exact ⟨hne.1, hne.2.2.1⟩
  all_goals exact ⟨by decide, by decide⟩

/-- A number on a line is read back; one that is negative as a `long long`, if no `-` follows it in memory. -/
theorem safe_strtoull_line {k : Nat} (hn : n < 2 ^ 64) (hmore : n < 2 ^ 63 ∨ 45 ∉ c_str more) :
    safe_strtoull (number_line n k ++ more) = some (.ofNat n) := by
  have hstr : c_str (number_line n k ++ more) = digits n ++ ((List.replicate k 32 ++ [13, 10]) ++ c_str more) := by
    rw [c_str_append_of_pos fun b hb => (mem_number_line hb).1, number_line, List.append_assoc]
  obtain ⟨b, rest, hrest, hspace⟩ : ∃ b rest, (List.replicate k 32 ++ [13, 10]) ++ c_str more = b :: rest ∧
      isspace b = true := by
    cases k with
    | zero => exact ⟨13, 10 :: c_str more, rfl, by decide⟩
    | succ k => exact ⟨32, _, rfl, by decide⟩
  have hdigit : isdigit b = false := by
    cases h : isdigit b with
    | false => rfl
    | true => rw [(digit_ne h).2.2.2] at hspace; cases hspace
  have hread : strtoull (digits n ++ b :: rest) = (.ofNat n, b :: rest, false) :=
    strtoull_digits hn (by simp [hdigit]) dropWhile_isspace_digits
  have hmoved : ¬ b :: rest = digits n ++ b :: rest := by
    intro heq
    exact digits_ne_nil (List.self_eq_append_left.mp heq)
  have hsign : ¬ (is_negative (.ofNat n) = true ∧ 45 ∈ digits n ++ b :: rest) := by
    rintro ⟨hnegative, hminus⟩
    rw [← hrest, ← List.append_assoc, ← number_line, List.mem_append] at hminus
    rcases hminus with hminus | hminus
    · exact (mem_number_line hminus).2 rfl
    rcases hmore with hlt | hnot
    · rw [is_negative, UInt64.toNat_ofNat', Nat.mod_eq_of_lt hn, decide_eq_true_eq] at hnegative
      exact absurd hnegative (Nat.not_le.mpr hlt)
    · exact hnot hminus
  simp only [safe_strtoull, hstr, hrest, hread]
  rw [if_neg (by simpa using hmoved), if_pos (.inr (by simpa using hspace)), if_neg hsign]

/-! ## The suffix -/

theorem of_le_bytes_le_bytes (v : UInt32) : of_le_bytes (le_bytes v) = v := by
  have hlt := v.toNat_lt
  rw [← UInt32.toNat_inj]
  simp only [of_le_bytes, le_bytes, List.getD_cons_zero, List.getD_cons_succ, UInt8.toNat_ofNat', UInt32.toNat_ofNat']
  omega

theorem item_suffix_flags (cfg : Settings) (a : NewItem) (old : List UInt8) :
    (if cfg.inline_ascii_response then (strtoull (c_str (item_suffix cfg a old))).1.toUInt32
      else if a.nsuffix cfg > 0 then of_le_bytes (item_suffix cfg a old)
      else 0) = a.flags := by
  cases hinline : cfg.inline_ascii_response with
  | true =>
      have hne : ∀ b ∈ 32 :: digits a.flags.toNat ++ 32 :: digits (a.nbytes - 2) ++ [13, 10], b ≠ 0 := by
        intro b hb
        simp only [List.mem_append, List.mem_cons, List.not_mem_nil, or_false] at hb
        rcases hb with ((rfl | hd) | rfl | hd) | rfl | rfl
        · decide
        · exact (digit_ne (isdigit_of_mem hd)).1
        · decide
        · exact (digit_ne (isdigit_of_mem hd)).1
        · decide
        · decide
      have hself := @c_str_append_of_pos _ [] hne
      have hread : strtoull (32 :: digits a.flags.toNat ++ 32 :: digits (a.nbytes - 2) ++ [13, 10]) =
          (.ofNat a.flags.toNat, 32 :: digits (a.nbytes - 2) ++ [13, 10], false) := strtoull_digits
        (Nat.lt_trans a.flags.toNat_lt (by decide)) (fun b hb => by cases hb; rfl) (by
          rw [List.cons_append, List.cons_append, List.dropWhile_cons, if_pos (by decide), List.append_assoc,
            dropWhile_isspace_digits])
      rw [List.append_nil] at hself
      simp only [item_suffix, hinline, if_true, hself]
      rw [show c_str [] = [] from rfl, List.append_nil, hread]
      simp
  | false =>
      by_cases hzero : a.flags = 0
      · simp [NewItem.nsuffix, hinline, hzero]
      · simp [NewItem.nsuffix, item_suffix, hinline, hzero, of_le_bytes_le_bytes]

/-! ## Memory -/

/-- What an item holds after two writes, up to the `rest` of what it held before. -/
theorem write_write_bytes {c : Cache} {it : Ptr} {text : List UInt8} (hrest : ∀ i (h : i < rest.length),
      c.data it (text.length + more.length + i) = rest[i]) :
    (List.range (text.length + more.length + rest.length)).map
      (((c.write it 0 text).write it text.length more).data it) = text ++ (more ++ rest) := by
  apply List.ext_getElem
  · simp [Nat.add_assoc]
  intro i hi hi'
  simp only [List.length_map, List.length_range] at hi
  simp only [List.getElem_map, List.getElem_range, Cache.write, Function.update_self]
  by_cases htext : i < text.length
  · rw [if_neg (by omega), if_pos (by omega), List.getElem_append_left htext]
    simp [htext]
  by_cases hmore : i < text.length + more.length
  · have hlt : i - text.length < more.length := by omega
    rw [if_pos (by omega), List.getElem_append_right (by omega), List.getElem_append_left hlt]
    simp [hlt]
  · rw [if_neg (by omega), if_neg (by omega), List.getElem_append_right (by omega), List.getElem_append_right (by omega)]
    have hlt : i - text.length - more.length < rest.length := by omega
    rw [← hrest _ hlt]
    congr 1
    omega

end Memcached.SlabsCurd

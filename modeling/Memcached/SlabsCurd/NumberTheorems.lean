import Memcached.SlabsCurd.Lemmas.Numbers

/-!
# What safe_strtoull takes for a number
-/

namespace Memcached.SlabsCurd

open Decimal

/-- Blanks, an optional sign, digits, and then a blank or the end. -/
structure Numeral (str : List UInt8) (minus : Bool) (ds rest : List UInt8) : Prop where
  text : ∃ blanks sgn, str = blanks ++ (sgn ++ (ds ++ rest)) ∧ (∀ b ∈ blanks, isspace b = true) ∧
    (sgn = [45] ∧ minus = true ∨ (sgn = [43] ∨ sgn = []) ∧ minus = false)
  digits_ne_nil : ds ≠ []
  digits : ∀ d ∈ ds, isdigit d = true
  ends : rest = [] ∨ rest.head?.any isspace = true

/-- The text is that of the unsigned number `v`; only zero may have a minus. -/
def Unsigned (str : List UInt8) (v : Nat) : Prop :=
  v < 2 ^ 64 ∧ ∃ minus ds rest, Numeral str minus ds rest ∧ value ds = v ∧ (minus = true → v = 0)

/-- A negative number whose representation has the top bit clear, or a number with the top bit set and a `-` behind it. -/
def Misread (str : List UInt8) : Prop :=
  (∃ ds rest, Numeral str true ds rest ∧ 2 ^ 63 < value ds ∧ value ds < 2 ^ 64) ∨
    ∃ ds rest, Numeral str false ds rest ∧ 2 ^ 63 ≤ value ds ∧ value ds < 2 ^ 64 ∧ 45 ∈ rest

variable {str ds rest mem : List UInt8} {minus : Bool}

/-! ## Numerals -/

theorem isspace_not_isdigit {b : UInt8} (h : isspace b = true) : isdigit b = false := by
  cases hd : isdigit b with
  | false => rfl
  | true => rw [(digit_ne hd).2.2.2] at h; cases h

namespace Numeral

theorem head (h : Numeral str minus ds rest) : ∃ d ds', ds = d :: ds' ∧ isdigit d = true := by
  cases hds : ds with
  | nil => exact absurd hds h.digits_ne_nil
  | cons d ds' => exact ⟨d, ds', rfl, h.digits d (by simp [hds])⟩

theorem rest_head (h : Numeral str minus ds rest) : ∀ b ∈ rest.head?, isdigit b = false := by
  intro b hb
  obtain hnil | hspace := h.ends
  · simp [hnil] at hb
  · rw [Option.mem_def.mp hb] at hspace
    exact isspace_not_isdigit (by simpa using hspace)

theorem sign_eq (h : Numeral str minus ds rest) : sign (str.dropWhile isspace) = (minus, ds ++ rest) := by
  obtain ⟨blanks, sgn, htext, hblanks, hsgn⟩ := h.text
  obtain ⟨d, ds', hds, hd⟩ := h.head
  obtain ⟨-, hplus, hminus, hspace⟩ := digit_ne hd
  rw [htext, List.dropWhile_append_of_pos hblanks]
  obtain ⟨rfl, rfl⟩ | ⟨rfl | rfl, rfl⟩ := hsgn
  · rfl
  · rfl
  · rw [List.nil_append, hds, List.cons_append, List.dropWhile_cons, if_neg (by simp [hspace])]
    simp only [sign]
    split
    · next heq => exact absurd (List.cons.inj heq).1 hminus
    · next heq => exact absurd (List.cons.inj heq).1 hplus
    · rfl

theorem takeWhile_eq (h : Numeral str minus ds rest) : (ds ++ rest).takeWhile isdigit = ds := by
  rw [List.takeWhile_append_of_pos h.digits]
  cases hrest : rest with
  | nil => simp
  | cons b rest' => simp [h.rest_head b (by simp [hrest])]

theorem dropWhile_eq (h : Numeral str minus ds rest) : (ds ++ rest).dropWhile isdigit = rest := by
  rw [List.dropWhile_append_of_pos h.digits]
  cases hrest : rest with
  | nil => simp
  | cons b rest' => simp [h.rest_head b (by simp [hrest])]

/-- A text is a numeral in one way only. -/
theorem unique {minus' : Bool} {ds' rest' : List UInt8} (h : Numeral str minus ds rest)
    (h' : Numeral str minus' ds' rest') : minus' = minus ∧ ds' = ds ∧ rest' = rest := by
  obtain ⟨hminus, hbody⟩ := Prod.mk.inj (h'.sign_eq.symm.trans h.sign_eq)
  refine ⟨hminus, ?_, ?_⟩
  · rw [← h'.takeWhile_eq, hbody, h.takeWhile_eq]
  · rw [← h'.dropWhile_eq, hbody, h.dropWhile_eq]

theorem rest_ne (h : Numeral str minus ds rest) : rest ≠ str := by
  intro heq
  obtain ⟨blanks, sgn, htext, -, -⟩ := h.text
  have hlen := congrArg List.length htext
  have hpos := List.length_pos_of_ne_nil h.digits_ne_nil
  simp only [List.length_append, ← heq] at hlen
  omega

theorem minus_mem (h : Numeral str true ds rest) : 45 ∈ str := by
  obtain ⟨blanks, sgn, rfl, -, hsgn⟩ := h.text
  obtain ⟨rfl, -⟩ | ⟨-, hfalse⟩ := hsgn
  · simp
  · cases hfalse

theorem minus_mem_rest (h : Numeral str false ds rest) : 45 ∈ str ↔ 45 ∈ rest := by
  obtain ⟨blanks, sgn, rfl, hblanks, hsgn⟩ := h.text
  have hblank : (45 : UInt8) ∉ blanks := fun hb => absurd (hblanks _ hb) (by decide)
  have hdigit : (45 : UInt8) ∉ ds := fun hd => (digit_ne (h.digits _ hd)).2.2.1 rfl
  obtain ⟨-, hfalse⟩ | ⟨rfl | rfl, -⟩ := hsgn
  · cases hfalse
  · simp [hblank, hdigit]
  · simp [hblank, hdigit]

theorem of_ends (hds : (sign (str.dropWhile isspace)).2.takeWhile isdigit ≠ [])
    (hends : (sign (str.dropWhile isspace)).2.dropWhile isdigit = [] ∨
      ((sign (str.dropWhile isspace)).2.dropWhile isdigit).head?.any isspace = true) :
    Numeral str (sign (str.dropWhile isspace)).1 ((sign (str.dropWhile isspace)).2.takeWhile isdigit)
      ((sign (str.dropWhile isspace)).2.dropWhile isdigit) where
  text := by
    refine ⟨str.takeWhile isspace, ?_⟩
    have hsplit : str.takeWhile isspace ++ str.dropWhile isspace = str := List.takeWhile_append_dropWhile
    have hblanks : ∀ b ∈ str.takeWhile isspace, isspace b = true := fun b hb => List.mem_takeWhile_imp hb
    generalize str.dropWhile isspace = body at *
    rw [List.takeWhile_append_dropWhile]
    unfold sign
    split
    · exact ⟨[45], hsplit.symm, hblanks, .inl ⟨rfl, rfl⟩⟩
    · exact ⟨[43], hsplit.symm, hblanks, .inr ⟨.inl rfl, rfl⟩⟩
    · exact ⟨[], hsplit.symm, hblanks, .inr ⟨.inr rfl, rfl⟩⟩
  digits_ne_nil := hds
  digits := fun _ hd => List.mem_takeWhile_imp hd
  ends := hends

end Numeral

/-! ## safe_strtoull -/

theorem safe_strtoull_numeral (h : Numeral (c_str mem) minus ds rest) :
    safe_strtoull mem =
      if value ds ≥ 2 ^ 64 then none
      else if is_negative (if minus then 0 - .ofNat (value ds) else .ofNat (value ds)) ∧ 45 ∈ c_str mem then none
      else some (if minus then 0 - .ofNat (value ds) else .ofNat (value ds)) := by
  simp only [safe_strtoull, strtoull, h.sign_eq, h.takeWhile_eq, h.dropWhile_eq, if_neg h.digits_ne_nil]
  split
  · simp
  · simp [h.rest_ne, h.ends]

theorem safe_strtoull_none (h : ∀ minus ds rest, ¬ Numeral (c_str mem) minus ds rest) : safe_strtoull mem = none := by
  simp only [safe_strtoull, strtoull]
  generalize hstr : c_str mem = str at *
  by_cases hds : (sign (str.dropWhile isspace)).2.takeWhile isdigit = []
  · simp [hds]
  simp only [if_neg hds]
  split
  · simp
  · have hends : ¬ ((sign (str.dropWhile isspace)).2.dropWhile isdigit = [] ∨
        ((sign (str.dropWhile isspace)).2.dropWhile isdigit).head?.any isspace = true) :=
      fun hends => h _ _ _ (.of_ends hds hends)
    simp only [if_neg hends, ite_self]

theorem is_negative_iff {u : UInt64} : is_negative u = true ↔ 2 ^ 63 ≤ u.toNat := by simp [is_negative]

theorem unsigned_iff {v : Nat} (h : Numeral str minus ds rest) :
    Unsigned str v ↔ v < 2 ^ 64 ∧ value ds = v ∧ (minus = true → v = 0) := by
  constructor
  · rintro ⟨hlt, minus', ds', rest', h', hv, hzero⟩
    obtain ⟨rfl, rfl, rfl⟩ := h.unique h'
    exact ⟨hlt, hv, hzero⟩
  · rintro ⟨hlt, hv, hzero⟩
    exact ⟨hlt, minus, ds, rest, h, hv, hzero⟩

theorem misread_negative (h : Numeral str true ds rest) : Misread str ↔ 2 ^ 63 < value ds ∧ value ds < 2 ^ 64 := by
  constructor
  · rintro (⟨ds', rest', h', hlo, hhi⟩ | ⟨ds', rest', h', -⟩)
    · obtain ⟨-, rfl, -⟩ := h.unique h'
      exact ⟨hlo, hhi⟩
    · cases (h.unique h').1
  · rintro ⟨hlo, hhi⟩
    exact .inl ⟨ds, rest, h, hlo, hhi⟩

theorem misread_plain (h : Numeral str false ds rest) :
    Misread str ↔ 2 ^ 63 ≤ value ds ∧ value ds < 2 ^ 64 ∧ 45 ∈ rest := by
  constructor
  · rintro (⟨ds', rest', h', -⟩ | ⟨ds', rest', h', hmisread⟩)
    · cases (h.unique h').1
    · obtain ⟨-, rfl, rfl⟩ := h.unique h'
      exact hmisread
  · intro hmisread
    exact .inr ⟨ds, rest, h, hmisread⟩

theorem exact_plain (h : Numeral (c_str mem) false ds rest) :
    (∀ u, safe_strtoull mem = some u ↔ Unsigned (c_str mem) u.toNat) ↔ ¬ Misread (c_str mem) := by
  have hread := safe_strtoull_numeral h
  simp only [h.minus_mem_rest, Bool.false_eq_true, if_false, is_negative_iff, UInt64.toNat_ofNat'] at hread
  simp only [misread_plain h, unsigned_iff h, Bool.false_eq_true, false_implies, and_true]
  generalize value ds = n at *
  by_cases hbig : n ≥ 2 ^ 64
  · rw [if_pos hbig] at hread
    refine iff_of_true (fun u => ?_) (by omega)
    rw [hread]
    simp only [reduceCtorEq, false_iff]
    omega
  rw [if_neg hbig, Nat.mod_eq_of_lt (by omega)] at hread
  by_cases hmisread : 2 ^ 63 ≤ n ∧ 45 ∈ rest
  · rw [if_pos hmisread] at hread
    refine iff_of_false (fun hexact => ?_) (not_not_intro ⟨hmisread.1, by omega, hmisread.2⟩)
    have hof := (hexact (.ofNat n)).mpr ⟨by simp; omega, by simp; omega⟩
    rw [hread] at hof
    cases hof
  · rw [if_neg hmisread] at hread
    refine iff_of_true (fun u => ?_) fun h => hmisread ⟨h.1, h.2.2⟩
    rw [hread, Option.some.injEq, ← UInt64.toNat_inj, UInt64.toNat_ofNat', Nat.mod_eq_of_lt (by omega)]
    have hu := u.toNat_lt
    omega

theorem exact_negative (h : Numeral (c_str mem) true ds rest) :
    (∀ u, safe_strtoull mem = some u ↔ Unsigned (c_str mem) u.toNat) ↔ ¬ Misread (c_str mem) := by
  have hread := safe_strtoull_numeral h
  simp only [h.minus_mem, and_true, if_true, is_negative_iff] at hread
  simp only [misread_negative h, unsigned_iff h, true_implies]
  generalize value ds = n at *
  by_cases hbig : n ≥ 2 ^ 64
  · rw [if_pos hbig] at hread
    refine iff_of_true (fun u => ?_) (by omega)
    rw [hread]
    simp only [reduceCtorEq, false_iff]
    omega
  have hneg : (0 - UInt64.ofNat n).toNat = (2 ^ 64 - n) % 2 ^ 64 := by
    simp only [UInt64.toNat_sub, UInt64.toNat_ofNat', UInt64.toNat_zero]
    omega
  rw [if_neg hbig, hneg] at hread
  by_cases htop : 2 ^ 63 ≤ (2 ^ 64 - n) % 2 ^ 64
  · rw [if_pos htop] at hread
    refine iff_of_true (fun u => ?_) (by omega)
    rw [hread]
    simp only [reduceCtorEq, false_iff]
    omega
  rw [if_neg htop] at hread
  by_cases hzero : n = 0
  · refine iff_of_true (fun u => ?_) (by omega)
    rw [hread, Option.some.injEq, ← UInt64.toNat_inj, hneg]
    omega
  · refine iff_of_false (fun hexact => ?_) (not_not_intro (by omega))
    have hof := (hexact _).mp hread
    omega

/-- `safe_strtoull` takes exactly the unsigned numbers of 64 bits, and each for itself, but for the texts that it misreads. -/
theorem safe_strtoull_exact_iff :
    (∀ u, safe_strtoull mem = some u ↔ Unsigned (c_str mem) u.toNat) ↔ ¬ Misread (c_str mem) := by
  by_cases hnumeral : ∃ minus ds rest, Numeral (c_str mem) minus ds rest
  · obtain ⟨minus, ds, rest, h⟩ := hnumeral
    cases minus with
    | true => exact exact_negative h
    | false => exact exact_plain h
  · have hnone : ∀ minus ds rest, ¬ Numeral (c_str mem) minus ds rest := fun minus ds rest h => hnumeral ⟨_, _, _, h⟩
    refine iff_of_true (fun u => iff_of_false ?_ ?_) ?_
    · simp [safe_strtoull_none hnone]
    · rintro ⟨-, minus, ds, rest, h, -⟩
      exact hnone _ _ _ h
    · rintro (⟨ds, rest, h, -⟩ | ⟨ds, rest, h, -⟩) <;> exact hnone _ _ _ h

/-- `"-18446744073709551615"` is taken for 1. -/
theorem negative_accepted : ¬ ∀ mem u, safe_strtoull mem = some u ↔ Unsigned (c_str mem) u.toNat := by
  intro hexact
  have hread : safe_strtoull (45 :: digits (2 ^ 64 - 1)) = some 1 := by decide +kernel
  obtain ⟨-, minus, ds, rest, h, hv, hzero⟩ := (hexact _ _).mp hread
  have hminus : minus = true := (Prod.mk.inj h.sign_eq).1.symm.trans (by decide +kernel)
  exact absurd (hzero hminus) (by decide)

end Memcached.SlabsCurd

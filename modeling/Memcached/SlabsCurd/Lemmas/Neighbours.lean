import Memcached.SlabsCurd.NumberTheorems

/-!
# Numbers and what follows them in memory

When `safe_strtoull`, given the bytes of an item, has to look behind them.
-/

namespace Memcached.SlabsCurd

open Decimal

variable {str more ds rest pre : List UInt8} {minus : Bool}

/-- Nothing but blanks; or a number with the top bit set, where no `-` and no NUL ends the search for a `-`. -/
def Open (str : List UInt8) : Prop :=
  0 ∉ str ∧ ((∀ b ∈ str, isspace b = true) ∨
    ∃ ds rest, Numeral str false ds rest ∧ 2 ^ 63 ≤ value ds ∧ value ds < 2 ^ 64 ∧ 45 ∉ rest)

/-! ## Numerals that go on -/

theorem Numeral.append (h : Numeral str minus ds rest) (hrest : rest ≠ []) :
    Numeral (str ++ more) minus ds (rest ++ more) where
  text := by
    obtain ⟨blanks, sgn, rfl, hblanks, hsgn⟩ := h.text
    exact ⟨blanks, sgn, by simp, hblanks, hsgn⟩
  digits_ne_nil := h.digits_ne_nil
  digits := h.digits
  ends := by
    cases rest with
    | nil => exact absurd rfl hrest
    | cons b rest => exact .inr (by simpa using h.ends)

theorem numeral_rest (hline : str = pre ++ [13, 10]) (h : Numeral str minus ds rest) : rest ≠ [] := by
  rintro rfl
  obtain ⟨blanks, sgn, htext, -, -⟩ := h.text
  have hlast : str.getLast? = some 10 := by simp [hline]
  have hds : ds.getLast? = some 10 := by
    rw [← hlast, htext, List.append_nil, List.getLast?_append_of_ne_nil _ (by simp [h.digits_ne_nil]),
      List.getLast?_append_of_ne_nil _ h.digits_ne_nil]
  exact absurd (h.digits 10 (List.mem_of_getLast? hds)) (by decide)

theorem line_getLast {s : List UInt8} (hline : str = pre ++ [13, 10]) (hsuffix : s <:+ str) (hs : s ≠ []) :
    s.getLast hs = 10 := by
  rw [hsuffix.getLast hs]
  simp [hline]

/-- What follows blanks and a sign on a line is more than digits. -/
theorem line_body {body : List UInt8} (hline : str = pre ++ [13, 10]) (hsuffix : body <:+ str) (hbody : body ≠ []) :
    (sign body).2 ≠ [] ∧ (sign body).2.dropWhile isdigit ≠ [] := by
  have hlast := line_getLast hline hsuffix hbody
  have hne : (sign body).2 ≠ [] := by
    unfold sign
    split
    · rintro rfl
      simp at hlast
    · rintro rfl
      simp at hlast
    · exact hbody
  refine ⟨hne, fun hnil => ?_⟩
  have hdigit := List.dropWhile_eq_nil_iff.mp hnil _ (List.getLast_mem hne)
  rw [line_getLast hline (sign_suffix.trans hsuffix) hne] at hdigit
  exact absurd hdigit (by decide)

/-- A line that is not blank ends before the numeral does. -/
theorem numeral_of_append (hline : str = pre ++ [13, 10]) (hblank : ¬ ∀ b ∈ str, isspace b = true)
    (h : Numeral (str ++ more) minus ds rest) : ∃ rest', Numeral str minus ds rest' := by
  have hbody : str.dropWhile isspace ≠ [] := fun hnil => hblank (List.dropWhile_eq_nil_iff.mp hnil)
  obtain ⟨-, hdrop⟩ := line_body hline (List.dropWhile_suffix _) hbody
  have hsign := h.sign_eq
  rw [List.dropWhile_append, if_neg (by simpa using hbody), sign_append hbody] at hsign
  obtain ⟨hminus, htext⟩ := Prod.mk.inj hsign
  have hof := @Numeral.of_ends str
  rw [hminus] at hof
  generalize (sign (str.dropWhile isspace)).2 = s at *
  have htake : (s ++ more).takeWhile isdigit = s.takeWhile isdigit := by
    rw [List.takeWhile_append, if_neg]
    intro hlen
    have hall := (List.takeWhile_prefix isdigit).eq_of_length hlen
    exact hdrop (List.dropWhile_eq_nil_iff.mpr (List.takeWhile_eq_self_iff.mp hall))
  have hds : s.takeWhile isdigit = ds := by rw [← htake, htext, h.takeWhile_eq]
  have hrest : s.dropWhile isdigit ++ more = rest := by
    rw [← h.dropWhile_eq, ← htext, List.dropWhile_append, if_neg (by simpa using hdrop)]
  refine ⟨s.dropWhile isdigit, hds ▸ hof (hds ▸ h.digits_ne_nil) (.inr ?_)⟩
  obtain hnil | hspace := h.ends
  · simp [← hrest, hdrop] at hnil
  · rw [← hrest, List.head?_append_of_ne_nil _ hdrop] at hspace
    exact hspace

/-! ## safe_strtoull -/

/-- What lies behind a line is not looked at, if the line is not open. -/
theorem safe_strtoull_closed (hline : str = pre ++ [13, 10]) (hopen : ¬ Open str) :
    safe_strtoull (str ++ more) = safe_strtoull str := by
  by_cases hnul : 0 ∈ str
  · simp only [safe_strtoull, c_str_eq_of_mem hnul]
  have hne : ∀ b ∈ str, b ≠ 0 := fun b hb hz => hnul (hz ▸ hb)
  have hself : c_str str = str := by
    have hnil := @c_str_append_of_pos str [] hne
    simpa [c_str] using hnil
  have hmore : c_str (str ++ more) = str ++ c_str more := c_str_append_of_pos hne
  have hblank : ¬ ∀ b ∈ str, isspace b = true := fun h => hopen ⟨hnul, .inl h⟩
  by_cases hnumeral : ∃ minus ds rest, Numeral str minus ds rest
  · obtain ⟨minus, ds, rest, h⟩ := hnumeral
    have hlong : Numeral (c_str (str ++ more)) minus ds (rest ++ c_str more) := by
      rw [hmore]
      exact h.append (numeral_rest hline h)
    have hshort : Numeral (c_str str) minus ds rest := by rwa [hself]
    rw [safe_strtoull_numeral hlong, safe_strtoull_numeral hshort, hself, hmore]
    by_cases hminus : 45 ∈ str
    · simp [hminus]
    cases minus with
    | true => exact absurd h.minus_mem hminus
    | false =>
        -- the top bit is clear, or the line were open
        simp only [Bool.false_eq_true, if_false, is_negative_iff, UInt64.toNat_ofNat']
        split
        · rfl
        · next hlt =>
          have hlow : ¬ 2 ^ 63 ≤ value ds % 2 ^ 64 := fun hlo => hopen ⟨hnul, .inr ⟨ds, rest, h, by
            rwa [Nat.mod_eq_of_lt (by omega)] at hlo, by omega, fun hmem => hminus (h.minus_mem_rest.mpr hmem)⟩⟩
          rw [if_neg fun h => hlow h.1, if_neg fun h => hlow h.1]
  · have hlong : safe_strtoull (str ++ more) = none := safe_strtoull_none fun minus ds rest h => by
      rw [hmore] at h
      obtain ⟨rest', h'⟩ := numeral_of_append hline hblank h
      exact hnumeral ⟨_, _, _, h'⟩
    have hshort : safe_strtoull str = none := safe_strtoull_none fun minus ds rest h => by
      rw [hself] at h
      exact hnumeral ⟨_, _, _, h⟩
    rw [hlong, hshort]

/-- What lies behind an open line decides. -/
theorem safe_strtoull_open (hline : str = pre ++ [13, 10]) (hopen : Open str) :
    (∃ more, safe_strtoull (str ++ more) = none) ∧ ∃ more v, safe_strtoull (str ++ more) = some v := by
  obtain ⟨hnul, hopen⟩ := hopen
  have hne : ∀ b ∈ str, b ≠ 0 := fun b hb hz => hnul (hz ▸ hb)
  have hmore (more : List UInt8) : c_str (str ++ more) = str ++ c_str more := c_str_append_of_pos hne
  obtain hblank | ⟨ds, rest, h, hlo, hhi, hminus⟩ := hopen
  · refine ⟨⟨[], safe_strtoull_none fun minus ds rest h => ?_⟩, [48], 0, ?_⟩
    · rw [hmore] at h
      have hsign := h.sign_eq
      have hnil : str.dropWhile isspace = [] := List.dropWhile_eq_nil_iff.mpr hblank
      simp only [c_str, List.takeWhile_nil, List.append_nil, hnil] at hsign
      simp [sign, h.digits_ne_nil] at hsign
    · have h : Numeral (c_str (str ++ [48])) false [48] [] := by
        rw [hmore]
        exact ⟨⟨str, [], rfl, hblank, .inr ⟨.inr rfl, rfl⟩⟩, by simp,
          List.all_eq_true.mp (by decide), .inl rfl⟩
      rw [safe_strtoull_numeral h]
      simp [value, is_negative]
  · have hlong (more : List UInt8) : Numeral (c_str (str ++ more)) false ds (rest ++ c_str more) := by
      rw [hmore]
      exact h.append (numeral_rest hline h)
    refine ⟨⟨[45], ?_⟩, [], .ofNat (value ds), ?_⟩
    · rw [safe_strtoull_numeral (hlong [45]), if_neg (by omega), if_pos]
      refine ⟨is_negative_iff.mpr ?_, (hlong [45]).minus_mem_rest.mpr (by simp [c_str])⟩
      simp only [Bool.false_eq_true, if_false, UInt64.toNat_ofNat']
      omega
    · rw [safe_strtoull_numeral (hlong []), if_neg (by omega), if_neg]
      · rfl
      · rintro ⟨-, hmem⟩
        exact hminus (by simpa [c_str] using (hlong []).minus_mem_rest.mp hmem)

end Memcached.SlabsCurd

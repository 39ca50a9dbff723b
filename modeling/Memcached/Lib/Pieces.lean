import Mathlib.Data.List.Basic

/-!
# Lines that are read in pieces

A stream is read line by line, but no more than `n` elements at once: a longer line comes in several pieces. The first
line that starts with a pattern is looked for in the pieces.
-/

namespace Pieces

universe u

variable {α : Type u} [DecidableEq α]

/-- The elements up to the first `nl`, at most `n` of them, and what is left. -/
def cut (nl : α) : Nat → List α → List α × List α
  | 0, xs => ([], xs)
  | _ + 1, [] => ([], [])
  | n + 1, x :: xs => if x = nl then ([x], xs) else (x :: (cut nl n xs).1, (cut nl n xs).2)

variable {nl : α} {n : Nat} {xs ys pat : List α}

theorem cut_append (nl : α) (n : Nat) (xs : List α) : (cut nl n xs).1 ++ (cut nl n xs).2 = xs := by
  induction n generalizing xs with
  | zero => rfl
  | succ n ih =>
      cases xs with
      | nil => rfl
      | cons x xs =>
          simp only [cut]
          split
          · rfl
          · simp [ih]

/-- A piece ends with its line; or it is as long as a piece may be, or the last. -/
theorem cut_cases (nl : α) (n : Nat) (xs : List α) : (∃ line, (cut nl n xs).1 = line ++ [nl] ∧ nl ∉ line) ∨
    nl ∉ (cut nl n xs).1 ∧ ((cut nl n xs).1.length = n ∨ (cut nl n xs).2 = []) := by
  induction n generalizing xs with
  | zero => exact .inr ⟨by simp [cut], .inl rfl⟩
  | succ n ih =>
      cases xs with
      | nil => exact .inr ⟨by simp [cut], .inr rfl⟩
      | cons x xs =>
          simp only [cut]
          split
          · next hx => exact .inl ⟨[], by simp [hx], by simp⟩
          · next hx =>
            rcases ih xs with ⟨line, hcut, hline⟩ | ⟨hcut, hend⟩
            · exact .inl ⟨x :: line, by simp [hcut], by simp [hline, Ne.symm hx]⟩
            · exact .inr ⟨by simp [hcut, Ne.symm hx], by simpa using hend⟩

theorem length_cut_lt (h : xs ≠ []) : (cut nl (n + 1) xs).2.length < xs.length := by
  cases xs with
  | nil => exact absurd rfl h
  | cons x xs =>
      simp only [cut]
      split
      · simp
      · have hlen := congrArg List.length (cut_append nl n xs)
        simp only [List.length_append] at hlen
        simp only [List.length_cons]
        omega

/-- All pieces of at most `n + 1` elements. -/
def pieces (nl : α) (n : Nat) (xs : List α) : List (List α) :=
  if xs = [] then [] else (cut nl (n + 1) xs).1 :: pieces nl n (cut nl (n + 1) xs).2
termination_by xs.length
decreasing_by exact length_cut_lt ‹_›

/-! ## Lines -/

theorem splitOn_append (h : nl ∉ xs) : (xs ++ ys).splitOn nl = (ys.splitOn nl).modifyHead (xs ++ ·) := by
  induction xs with
  | nil =>
      rw [List.nil_append]
      cases ys.splitOn nl <;> rfl
  | cons x xs ih =>
      rw [List.mem_cons, not_or] at h
      rw [List.cons_append, List.splitOn_cons_eq_if_modifyHead, if_neg (by simpa using Ne.symm h.1), ih h.2,
        List.modifyHead_modifyHead]
      rfl

theorem line_of_mem_splitOn {line : List α} (h : line ∈ xs.splitOn nl) : nl ∉ line ∧ line ⊆ xs := by
  induction xs generalizing line with
  | nil =>
      obtain rfl : line = [] := by simpa using h
      exact ⟨List.not_mem_nil, List.nil_subset _⟩
  | cons x xs ih =>
      rw [List.splitOn_cons_eq_if_modifyHead] at h
      split at h
      · rcases List.mem_cons.mp h with rfl | h
        · exact ⟨List.not_mem_nil, List.nil_subset _⟩
        · exact ⟨(ih h).1, List.subset_cons_of_subset x (ih h).2⟩
      · next hx =>
        have hne : nl ≠ x := Ne.symm (by simpa using hx)
        cases hsplit : xs.splitOn nl with
        | nil => exact absurd hsplit (List.splitOn_ne_nil _ _)
        | cons head tail =>
            rw [hsplit] at h ih
            rcases List.mem_cons.mp h with rfl | h
            · obtain ⟨hnl, hsub⟩ := ih (List.mem_cons_self ..)
              exact ⟨by simp [hnl, hne], List.cons_subset_cons x hsub⟩
            · obtain ⟨hnl, hsub⟩ := ih (List.mem_cons_of_mem _ h)
              exact ⟨hnl, List.subset_cons_of_subset x hsub⟩

/-- The lines of `xs`, without the first where it is the rest of a line. -/
def begun (nl : α) (begins : Bool) (xs : List α) : List (List α) :=
  if begins then xs.splitOn nl else (xs.splitOn nl).tail

def ends (nl : α) (piece : List α) : Bool := piece.getLast? = some nl

/-- Whether a line begins behind the pieces `before`. -/
def begins (nl : α) (before : List (List α)) : Bool := before.getLast?.all (ends nl)

/-- A piece of a line, and the first line of what is left. -/
theorem splitOn_cut (nl : α) (n : Nat) (xs : List α) :
    (∃ line, (cut nl n xs).1 = line ++ [nl] ∧ ends nl (cut nl n xs).1 = true ∧
      xs.splitOn nl = line :: (cut nl n xs).2.splitOn nl) ∨
    ∃ head tail, nl ∉ (cut nl n xs).1 ∧ ends nl (cut nl n xs).1 = false ∧ (cut nl n xs).2.splitOn nl = head :: tail ∧
      xs.splitOn nl = ((cut nl n xs).1 ++ head) :: tail ∧ ((cut nl n xs).1.length = n ∨ head = []) := by
  have happend := cut_append nl n xs
  rcases cut_cases nl n xs with ⟨line, hcut, hline⟩ | ⟨hcut, hend⟩
  · refine .inl ⟨line, hcut, by simp [ends, hcut], ?_⟩
    calc xs.splitOn nl = (line ++ nl :: (cut nl n xs).2).splitOn nl := by
          rw [List.append_cons, ← hcut, happend]
      _ = line :: (cut nl n xs).2.splitOn nl := List.splitOn_append_cons_self_of_not_mem hline _
  · cases hrest : (cut nl n xs).2.splitOn nl with
    | nil => exact absurd hrest (List.splitOn_ne_nil _ _)
    | cons head tail =>
        refine .inr ⟨head, tail, hcut, ?_, rfl, ?_, hend.imp_right fun hend => ?_⟩
        · exact decide_eq_false fun hlast => hcut (List.mem_of_getLast? hlast)
        · calc xs.splitOn nl = ((cut nl n xs).1 ++ (cut nl n xs).2).splitOn nl := by rw [happend]
            _ = ((cut nl n xs).1 ++ head) :: tail := by
                rw [splitOn_append hcut, hrest]
                rfl
        · rw [hend] at hrest
          simp at hrest
          exact hrest.1

/-- A piece that does not start with the pattern leaves the first line that does. -/
theorem find_begun (begins : Bool) (hlen : pat.length ≤ n) (h : ¬ pat <+: (cut nl n xs).1) :
    (begun nl begins xs).find? (pat.isPrefixOf ·) =
      (begun nl (ends nl (cut nl n xs).1) (cut nl n xs).2).find? (pat.isPrefixOf ·) := by
  rcases splitOn_cut nl n xs with ⟨line, hcut, hends, hsplit⟩ | ⟨head, tail, -, hends, hrest, hsplit, hend⟩
  · have hline : ¬ pat <+: line := fun hpat => h (hcut ▸ hpat.trans (List.prefix_append _ _))
    cases begins <;> simp [begun, hsplit, hends, hline]
  · have hline : ¬ pat <+: (cut nl n xs).1 ++ head := fun hpat => by
      rcases hend with hend | rfl
      · exact h (List.prefix_of_prefix_length_le hpat (List.prefix_append _ _) (by rw [hend]; exact hlen))
      · exact h (by simpa using hpat)
    cases begins <;> simp [begun, hsplit, hrest, hends, hline]

/-! ## The first piece that starts with the pattern -/

theorem pieces_of_ne_nil (h : xs ≠ []) : pieces nl n xs = (cut nl (n + 1) xs).1 :: pieces nl n (cut nl (n + 1) xs).2 := by
  rw [pieces, if_neg h]

/-- Without such a piece, no line starts with the pattern. -/
theorem find_begun_none (b : Bool) (hpat : pat ≠ []) (hlen : pat.length ≤ n + 1) (h : ∀ q ∈ pieces nl n xs, ¬ pat <+: q) :
    (begun nl b xs).find? (pat.isPrefixOf ·) = none := by
  induction xs using pieces.induct nl n generalizing b with
  | case1 => cases b <;> simp [begun, hpat]
  | case2 xs hne ih =>
      rw [pieces_of_ne_nil hne, List.forall_mem_cons] at h
      rw [find_begun b hlen h.1]
      exact ih _ h.2

theorem find_begun_of_pieces (b : Bool) {piece : List α} {before after : List (List α)} (hlen : pat.length ≤ n + 1)
    (hpieces : pieces nl n xs = before ++ piece :: after) (h : ∀ q ∈ before, ¬ pat <+: q) :
    ∃ ys, piece = (cut nl (n + 1) ys).1 ∧ (begun nl b xs).find? (pat.isPrefixOf ·) =
      (begun nl (if before = [] then b else begins nl before) ys).find? (pat.isPrefixOf ·) := by
  induction before generalizing xs b with
  | nil =>
      have hne : xs ≠ [] := fun hnil => by simp [hnil, pieces] at hpieces
      rw [pieces_of_ne_nil hne] at hpieces
      exact ⟨xs, (List.cons.inj hpieces).1.symm, rfl⟩
  | cons q before ih =>
      have hne : xs ≠ [] := fun hnil => by simp [hnil, pieces] at hpieces
      rw [pieces_of_ne_nil hne, List.cons_append] at hpieces
      obtain ⟨hq, hrest⟩ := List.cons.inj hpieces
      rw [List.forall_mem_cons, ← hq] at h
      obtain ⟨ys, hpiece, hfind⟩ := ih (ends nl (cut nl (n + 1) xs).1) hrest h.2
      refine ⟨ys, hpiece, ?_⟩
      rw [find_begun b hlen h.1, hfind, hq]
      cases before with
      | nil => simp [begins]
      | cons r before => simp [begins]

/-- Where the first piece that starts with the pattern is the beginning of a line, that line is the first that does. -/
theorem find_splitOn {piece : List α} {before after : List (List α)} (hnl : nl ∉ pat) (hlen : pat.length ≤ n + 1)
    (hpieces : pieces nl n xs = before ++ piece :: after) (h : ∀ q ∈ before, ¬ pat <+: q) (hpiece : pat <+: piece)
    (hbegins : begins nl before = true) :
    ∃ line, (xs.splitOn nl).find? (pat.isPrefixOf ·) = some line ∧
      (piece = line ++ [nl] ∨ nl ∉ piece ∧ ∃ tail, line = piece ++ tail ∧ (piece.length = n + 1 ∨ tail = [])) := by
  obtain ⟨ys, rfl, hfind⟩ := find_begun_of_pieces true hlen hpieces h
  have hbegun : (if before = [] then true else begins nl before) = true := by split <;> simp [hbegins]
  have hlines : (xs.splitOn nl).find? (pat.isPrefixOf ·) = (ys.splitOn nl).find? (pat.isPrefixOf ·) := by
    simpa [begun, hbegun] using hfind
  rw [hlines]
  rcases splitOn_cut nl (n + 1) ys with ⟨line, hcut, -, hsplit⟩ | ⟨head, tail, hcut, -, hrest, hsplit, hend⟩
  · refine ⟨line, ?_, .inl hcut⟩
    have hpat : pat <+: line := by
      rw [hcut, List.prefix_concat_iff] at hpiece
      exact hpiece.resolve_left fun hpat => hnl (by simp [hpat])
    simp [hsplit, hpat]
  · refine ⟨_, ?_, .inr ⟨hcut, head, rfl, hend⟩⟩
    have hpat : pat <+: (cut nl (n + 1) ys).1 ++ head := hpiece.trans (List.prefix_append _ _)
    simp [hsplit, hpat]

end Pieces

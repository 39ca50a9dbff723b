import Memcached.Thread.SaslDefs

/-!
# Which passwords the password file lets in

Where the first piece that starts with the user's name and a colon is the beginning of a line, a password without newline
and NUL is let in exactly if that line says so.
-/

namespace Memcached.Thread

open Memory (read write)
open Pieces (pieces begins find_splitOn)

variable {pwfile user pass piece text : List UInt8} {buffer mem : Nat → UInt8} {before after : List (List UInt8)}

namespace Checkpass

/-! ## What the file says -/

/-- What the user's line starts with. -/
def entry (user : List UInt8) : List UInt8 := user ++ [58]

/-- The text is the password, and ends, or goes on with a colon or a carriage return. -/
def admits (pass text : List UInt8) : Bool :=
  pass.isPrefixOf text && (text.drop pass.length).head?.all fun b => b = 58 ∨ b = 13

/-- The first line of the file that starts with the name and a colon goes on with the password. -/
def authenticates (pwfile user pass : List UInt8) : Bool :=
  ((pwfile.splitOn 10).find? ((entry user).isPrefixOf ·)).any fun line => admits pass (line.drop (entry user).length)

/-- The buffer after the pieces. -/
def left (buffer : Nat → UInt8) (before : List (List UInt8)) : Nat → UInt8 :=
  before.foldl (fun buffer piece => write buffer 0 (piece ++ [0])) buffer

/-- The first piece that starts with the name and a colon is the beginning of a line, and the password has no newline and
no NUL or does not match; or it lies within a line, and matches as the file says. -/
def Safe (pwfile : List UInt8) (buffer : Nat → UInt8) (user pass : List UInt8) : Prop :=
  ∀ before piece after, pieces 10 254 pwfile = before ++ piece :: after → (∀ q ∈ before, ¬ entry user <+: q) →
    entry user <+: piece →
      if begins 10 before then
        10 ∉ pass ∧ 0 ∉ pass ∨ pass_matches pass (left buffer (before ++ [piece])) (user.length + 1) = false
      else pass_matches pass (left buffer (before ++ [piece])) (user.length + 1) = authenticates pwfile user pass

/-! ## Comparisons -/

/-- Comparing a string with what is terminated. -/
theorem read_eq_iff_prefix {a : Nat} {s : List UInt8} (hs : 0 ∉ s) :
    read (write mem a (text ++ [0])) a s.length = s ↔ s <+: text := by
  by_cases hlen : s.length ≤ text.length
  · rw [Memory.read_write_take (by simp; omega), List.take_append_of_le_length hlen, List.prefix_iff_eq_take, eq_comm]
  · have hlt : text.length < s.length := by omega
    constructor
    · intro hread
      have hbyte : s[text.length] = 0 := by
        have hget := List.getElem_of_eq hread.symm hlt
        rw [hget]
        simp [Memory.read, Memory.write]
      exact absurd (List.mem_of_getElem hbyte) hs
    · intro hstarts
      exact absurd hstarts.length_le hlen

theorem zero_not_mem_entry (huser : 0 ∉ user) : 0 ∉ entry user := by
  simp [entry, huser]

/-- The test for the user's line. -/
theorem starts_iff (huser : 0 ∉ user) : (read (write mem 0 (piece ++ [0])) 0 user.length = user ∧
    write mem 0 (piece ++ [0]) user.length = 58) ↔ entry user <+: piece := by
  have hentry : read (write mem 0 (piece ++ [0])) 0 (entry user).length = entry user ↔ entry user <+: piece :=
    read_eq_iff_prefix (zero_not_mem_entry huser)
  rw [← hentry, entry, List.length_append, List.length_singleton, Memory.read_add]
  have hlast : read (write mem 0 (piece ++ [0])) (0 + user.length) 1 = [write mem 0 (piece ++ [0]) user.length] := by
    simp [Memory.read]
  rw [hlast]
  constructor
  · rintro ⟨huser, hcolon⟩
    rw [huser, hcolon]
  · intro h
    obtain ⟨huser, hcolon⟩ := List.append_inj' h rfl
    exact ⟨huser, List.cons.inj hcolon |>.1⟩

/-! ## The loop -/

theorem check_lines_of_ne_nil (huser : 0 ∉ user) (h : pwfile ≠ []) : check_lines user pass buffer pwfile =
    if entry user <+: (Pieces.cut 10 255 pwfile).1 then
      pass_matches pass (write buffer 0 ((Pieces.cut 10 255 pwfile).1 ++ [0])) (user.length + 1)
    else check_lines user pass (write buffer 0 ((Pieces.cut 10 255 pwfile).1 ++ [0])) (Pieces.cut 10 255 pwfile).2 := by
  rw [check_lines, if_neg h]
  simp only [fgets, MAX_ENTRY_LEN, starts_iff huser]

theorem check_lines_none (huser : 0 ∉ user) (h : ∀ q ∈ pieces 10 254 pwfile, ¬ entry user <+: q) :
    check_lines user pass buffer pwfile = false := by
  induction pwfile using Pieces.pieces.induct (10 : UInt8) 254 generalizing buffer with
  | case1 => simp [check_lines]
  | case2 pwfile hne ih =>
      rw [Pieces.pieces_of_ne_nil hne, List.forall_mem_cons] at h
      rw [check_lines_of_ne_nil huser hne, if_neg h.1]
      exact ih h.2

theorem check_lines_found (huser : 0 ∉ user) (hpieces : pieces 10 254 pwfile = before ++ piece :: after)
    (h : ∀ q ∈ before, ¬ entry user <+: q) (hpiece : entry user <+: piece) :
    check_lines user pass buffer pwfile = pass_matches pass (left buffer (before ++ [piece])) (user.length + 1) := by
  induction before generalizing buffer pwfile with
  | nil =>
      have hne : pwfile ≠ [] := fun hnil => by simp [hnil, pieces] at hpieces
      rw [Pieces.pieces_of_ne_nil hne] at hpieces
      obtain ⟨rfl, -⟩ := List.cons.inj hpieces
      rw [check_lines_of_ne_nil huser hne, if_pos hpiece]
      rfl
  | cons q before ih =>
      have hne : pwfile ≠ [] := fun hnil => by simp [hnil, pieces] at hpieces
      rw [Pieces.pieces_of_ne_nil hne, List.cons_append] at hpieces
      obtain ⟨rfl, hrest⟩ := List.cons.inj hpieces
      rw [List.forall_mem_cons] at h
      rw [check_lines_of_ne_nil huser hne, if_neg h.1]
      exact ih hrest h.2

/-! ## Lines and pieces -/

theorem admits_iff : admits pass text = true ↔ ∃ tail, text = pass ++ tail ∧ ∀ b ∈ tail.head?, b = 58 ∨ b = 13 := by
  simp only [admits, Bool.and_eq_true, List.isPrefixOf_iff_prefix, Option.all_eq_true, decide_eq_true_eq]
  constructor
  · rintro ⟨⟨tail, rfl⟩, hnext⟩
    exact ⟨tail, rfl, by simpa using hnext⟩
  · rintro ⟨tail, rfl, hnext⟩
    exact ⟨List.prefix_append _ _, by simpa using hnext⟩

/-- The byte behind the password. -/
theorem next_byte {a : Nat} (pass tail : List UInt8) :
    write mem a (pass ++ tail ++ [0]) (a + pass.length) = tail.head?.getD 0 := by
  rw [Memory.write_apply_of_lt (by simp)]
  cases tail with
  | nil => simp
  | cons b tail => simp

/-- A password without NUL is compared with what the piece holds. -/
theorem pass_matches_iff (hpass : 0 ∉ pass) :
    pass_matches pass (write buffer 0 (entry user ++ text ++ [0])) (user.length + 1) = true ↔
      ∃ tail, text = pass ++ tail ∧ ∀ b ∈ tail.head?, b = 58 ∨ b = 10 ∨ b = 13 ∨ b = 0 := by
  have hwrite : write buffer 0 (entry user ++ text ++ [0]) =
      write (write buffer 0 (entry user)) (user.length + 1) (text ++ [0]) := by
    rw [List.append_assoc, ← Memory.write_append]
    simp [entry]
  rw [hwrite, pass_matches, decide_eq_true_iff, read_eq_iff_prefix hpass]
  constructor
  · rintro ⟨⟨tail, rfl⟩, hnext⟩
    rw [next_byte] at hnext
    refine ⟨tail, rfl, fun b hb => ?_⟩
    rw [Option.mem_def.mp hb] at hnext
    exact hnext
  · rintro ⟨tail, rfl, hnext⟩
    refine ⟨List.prefix_append _ _, ?_⟩
    rw [next_byte]
    cases tail with
    | nil => exact .inr (.inr (.inr rfl))
    | cons b tail => exact hnext b rfl

/-- A line whose end is read. -/
theorem matches_line (hnl : 10 ∉ pass) (hpass : 0 ∉ pass) (hline : 10 ∉ text) (htext : 0 ∉ text) :
    pass_matches pass (write buffer 0 (entry user ++ (text ++ [10]) ++ [0])) (user.length + 1) = admits pass text := by
  rw [Bool.eq_iff_iff, pass_matches_iff hpass, admits_iff]
  constructor
  · rintro ⟨tail, htail, hnext⟩
    have hstarts : pass <+: text := by
      have hpass' : pass <+: text ++ [10] := htail ▸ List.prefix_append _ _
      rw [List.prefix_concat_iff] at hpass'
      exact hpass'.resolve_left fun heq => hnl (by simp [heq])
    obtain ⟨rest, rfl⟩ := hstarts
    obtain rfl : rest ++ [10] = tail := by simpa using htail
    refine ⟨rest, rfl, fun b hb => ?_⟩
    have hmem : b ∈ pass ++ rest := List.mem_append_right _ (List.mem_of_mem_head? hb)
    rcases hnext b (by simp [Option.mem_def.mp hb]) with h | rfl | h | rfl
    · exact .inl h
    · exact absurd hmem hline
    · exact .inr h
    · exact absurd hmem htext
  · rintro ⟨rest, rfl, hnext⟩
    refine ⟨rest ++ [10], by simp, fun b hb => ?_⟩
    cases rest with
    | nil => exact .inr (.inl (by simpa using hb.symm))
    | cons c rest =>
        rcases hnext b (by simpa using hb) with h | h
        · exact .inl h
        · exact .inr (.inr (.inl h))

/-- A line whose end is not read, or is the end of the file. -/
theorem matches_piece {tail : List UInt8} (hpass : 0 ∉ pass) (hline : 10 ∉ text) (htext : 0 ∉ text)
    (hlen : pass.length < text.length ∨ tail = []) :
    pass_matches pass (write buffer 0 (entry user ++ text ++ [0])) (user.length + 1) = admits pass (text ++ tail) := by
  rw [Bool.eq_iff_iff, pass_matches_iff hpass, admits_iff]
  constructor
  · rintro ⟨rest, rfl, hnext⟩
    refine ⟨rest ++ tail, by simp, fun b hb => ?_⟩
    cases rest with
    | nil =>
        obtain rfl : tail = [] := hlen.resolve_left (by simp)
        cases hb
    | cons c rest =>
        obtain rfl : c = b := by simpa using hb
        rcases hnext c rfl with h | rfl | h | rfl
        · exact .inl h
        · exact absurd (by simp) hline
        · exact .inr h
        · exact absurd (by simp) htext
  · rintro ⟨rest, heq, hnext⟩
    have hstarts : pass <+: text := by
      have hpass' : pass <+: text ++ tail := heq ▸ List.prefix_append _ _
      rcases hlen with hlen | rfl
      · exact List.prefix_of_prefix_length_le hpass' (List.prefix_append _ _) (Nat.le_of_lt hlen)
      · simpa using hpass'
    obtain ⟨rest', rfl⟩ := hstarts
    refine ⟨rest', rfl, fun b hb => ?_⟩
    obtain rfl : rest' ++ tail = rest := by simpa using heq
    rcases hnext b (by simp [Option.mem_def.mp hb]) with h | h
    · exact .inl h
    · exact .inr (.inr (.inl h))

/-! ## The check -/

/-- No line holds a newline, and none a NUL. -/
theorem not_authenticates (hfile : 0 ∉ pwfile) (h : 10 ∈ pass ∨ 0 ∈ pass) : authenticates pwfile user pass = false := by
  rw [authenticates, Option.any_eq_false]
  intro line hfind
  obtain ⟨hnl, hsub⟩ := Pieces.line_of_mem_splitOn (List.mem_of_find?_eq_some hfind)
  rw [Bool.eq_false_iff, ne_eq, admits_iff]
  rintro ⟨tail, htail, -⟩
  have hpass : pass ⊆ line := fun b hb => List.mem_of_mem_drop (htail ▸ List.mem_append_left tail hb)
  rcases h with h | h
  · exact hnl (hpass h)
  · exact hfile (hsub (hpass h))

theorem matches_eq (hfile : 0 ∉ pwfile) (hname : 10 ∉ user) (hlen : pass.length + user.length ≤ 252)
    (hpieces : pieces 10 254 pwfile = before ++ piece :: after) (h : ∀ q ∈ before, ¬ entry user <+: q)
    (hpiece : entry user <+: piece) (hbegins : begins 10 before = true) (hnl : 10 ∉ pass) (hpass : 0 ∉ pass) :
    pass_matches pass (left buffer (before ++ [piece])) (user.length + 1) = authenticates pwfile user pass := by
  have hentry : (entry user).length = user.length + 1 := by simp [entry]
  obtain ⟨line, hfind, hline⟩ := find_splitOn (by simp [entry, hname]) (by omega) hpieces h hpiece hbegins
  obtain ⟨hlf, hsub⟩ := Pieces.line_of_mem_splitOn (List.mem_of_find?_eq_some hfind)
  rw [authenticates, hfind, Option.any_some, left, List.foldl_append]
  rcases hline with rfl | ⟨hlf', tail, rfl, hend⟩
  · obtain ⟨text, rfl⟩ : entry user <+: line := by simpa using List.find?_some hfind
    rw [List.append_assoc, List.drop_left]
    exact matches_line hnl hpass (fun hmem => hlf (List.mem_append_right _ hmem))
      (fun hmem => hfile (hsub (List.mem_append_right _ hmem)))
  · obtain ⟨text, rfl⟩ := hpiece
    rw [List.append_assoc, List.drop_left]
    refine matches_piece hpass (fun hmem => hlf' (List.mem_append_right _ hmem))
      (fun hmem => hfile (hsub (List.mem_append_left _ (List.mem_append_right _ hmem)))) ?_
    rw [List.length_append, hentry] at hend
    exact hend.imp_left fun hend => by omega

/-- The piece that decides. -/
theorem check_lines_iff (hfile : 0 ∉ pwfile) (huser : 0 ∉ user) (hname : 10 ∉ user) (hlen : pass.length + user.length ≤ 252)
    (hpieces : pieces 10 254 pwfile = before ++ piece :: after) (h : ∀ q ∈ before, ¬ entry user <+: q)
    (hpiece : entry user <+: piece) :
    (check_lines user pass buffer pwfile = true ↔ authenticates pwfile user pass = true) ↔
      if begins 10 before then
        10 ∉ pass ∧ 0 ∉ pass ∨ pass_matches pass (left buffer (before ++ [piece])) (user.length + 1) = false
      else pass_matches pass (left buffer (before ++ [piece])) (user.length + 1) = authenticates pwfile user pass := by
  rw [check_lines_found huser hpieces h hpiece]
  split
  · next hbegins =>
    by_cases hplain : 10 ∉ pass ∧ 0 ∉ pass
    · have heq : pass_matches pass (left buffer (before ++ [piece])) (user.length + 1) = authenticates pwfile user pass :=
        matches_eq hfile hname hlen hpieces h hpiece hbegins hplain.1 hplain.2
      simp [heq, hplain]
    · have hauth : authenticates pwfile user pass = false := not_authenticates hfile (by tauto)
      simp [hauth, hplain]
  · exact Bool.eq_iff_iff.symm

end Checkpass

open Checkpass

/-- For a file without NUL, the password is let in as the file says if and only if the piece that decides is `Safe`. -/
theorem checkpass_iff_safe (hfile : 0 ∉ pwfile) (huser : 0 ∉ user) (hname : 10 ∉ user)
    (hlen : pass.length + user.length ≤ 252) :
    (sasl_server_userdb_checkpass (some pwfile) buffer user pass = .SASL_OK ↔ authenticates pwfile user pass = true) ↔
      Safe pwfile buffer user pass := by
  have hok : sasl_server_userdb_checkpass (some pwfile) buffer user pass = .SASL_OK ↔
      check_lines user pass buffer pwfile = true := by
    rw [sasl_server_userdb_checkpass, if_neg (by simp only [MAX_ENTRY_LEN]; omega)]
    cases check_lines user pass buffer pwfile <;> simp
  rw [hok]
  constructor
  · intro hiff before piece after hpieces h hpiece
    exact (check_lines_iff hfile huser hname hlen hpieces h hpiece).mp hiff
  · intro hsafe
    cases hfind : (pieces 10 254 pwfile).find? ((entry user).isPrefixOf ·) with
    | none =>
        have hnone : ∀ q ∈ pieces 10 254 pwfile, ¬ entry user <+: q := by simpa using hfind
        have hlines := Pieces.find_begun_none true (by simp [entry]) (by simp [entry]; omega) hnone
        rw [check_lines_none huser hnone, authenticates]
        simp only [Pieces.begun, if_true] at hlines
        rw [hlines, Option.any_none]
    | some piece =>
        obtain ⟨hpiece, before, after, hpieces, h⟩ := List.find?_eq_some_iff_append.mp hfind
        have hpiece : entry user <+: piece := by simpa using hpiece
        have h : ∀ q ∈ before, ¬ entry user <+: q := fun q hq hstarts => by
          simpa [List.isPrefixOf_iff_prefix.mpr hstarts] using h q hq
        exact (check_lines_iff hfile huser hname hlen hpieces h hpiece).mpr (hsafe before piece after hpieces h hpiece)

theorem checkpass_iff_safe_witness :
    (sasl_server_userdb_checkpass (some [97, 58, 120, 10]) (fun _ => 0) [97] [120] = .SASL_OK ↔
      authenticates [97, 58, 120, 10] [97] [120] = true) ↔ Safe [97, 58, 120, 10] (fun _ => 0) [97] [120] :=
  checkpass_iff_safe (by decide) (by decide) (by decide) (by decide)

/-- The end of a long line lets in a user whom no line names. -/
theorem long_line_lets_in :
    sasl_server_userdb_checkpass (some (List.replicate 255 98 ++ [97, 58, 120])) (fun _ => 0) [97] [120] = .SASL_OK ∧
      authenticates (List.replicate 255 98 ++ [97, 58, 120]) [97] [120] = false := by
  decide +kernel

end Memcached.Thread

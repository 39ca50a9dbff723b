import Memcached.Thread.Lemmas.Multiget

/-!
# The get loop as a visit of words

The loop over batches of tokens visits the words of the line. A key whose response fails is visited again, alone: the
NUL behind it is where the line now ends.
-/

namespace Memcached.Thread.Get

/-- How the visit of a list of keys ends. -/
inductive Visited
  | returned (c : GetConn)
  | passed (c : GetConn)
  | broke (c : GetConn) (key : List UInt8)

namespace GetConn

variable (env : Env) (return_cas : Bool) (exptime : Option Int32)

/-- The keys are looked up one after the other. -/
def visit : List (List UInt8) → GetConn → Visited
  | [], c => .passed c
  | key :: keys, c =>
      if key.length > KEY_MAX_LENGTH then .returned (c.too_long env return_cas)
      else
        let c := { c with gets := c.gets ++ [key] }
        match env.limited_get key exptime with
        | none => visit keys c
        | some it =>
            match { c with taken := it :: c.taken }.hit env it return_cas with
            | (c, true) => visit keys c
            | (c, false) => .broke c key

/-- The command over its keys. The first argument bounds the visits. -/
def visits : Nat → List (List UInt8) → GetConn → Option (GetConn × Response)
  | 0, _, _ => none
  | n + 1, keys, c =>
      match c.visit env return_cas exptime keys with
      | .returned c => some (c, .error "CLIENT_ERROR bad command line format")
      | .passed c => some (c.finish env return_cas)
      | .broke c key => visits n [key] c

end GetConn

section
variable {env : Env} {return_cas : Bool} {exptime : Option Int32} {buf : List UInt8} {toks tokens : List Token}
  {keys keys' : List (List UInt8)} {c : GetConn}

open GetConn

/-! ## The inner loop -/

theorem visit_append : c.visit env return_cas exptime (keys ++ keys') =
    match c.visit env return_cas exptime keys with
    | .passed c => c.visit env return_cas exptime keys'
    | v => v := by
  induction keys generalizing c with
  | nil => rfl
  | cons key keys ih =>
      rw [List.cons_append, visit, visit]
      split
      · rfl
      · cases env.limited_get key exptime with
        | none => exact ih
        | some it =>
            dsimp only
            split
            · exact ih
            · rfl

/-- How the inner loop ends over the tokens of some words, the last followed by `term`. -/
inductive Agrees (buf : List UInt8) (term : Token) : Visited → Walked → Prop
  | returned (c : GetConn) : Agrees buf term (.returned c) (.returned c)
  | passed (c : GetConn) : Agrees buf term (.passed c) (.stopped c term)
  | broke (c : GetConn) {key : List UInt8} {t : Token} {s : Nat} (points : PointsTo buf s t key) : Agrees buf term (.broke c key) (.stopped c t)

theorem walk_agrees {term : Token} (hterm : term.length = 0)
    (hpoints : List.Forall₂ (fun t w => ∃ s, PointsTo buf s t w) toks keys) :
    Agrees buf term (c.visit env return_cas exptime keys) (c.walk env return_cas exptime buf (toks ++ [term])) := by
  induction hpoints generalizing c with
  | nil =>
      rw [visit, List.nil_append, walk, if_pos hterm]
      exact .passed c
  | @cons t key toks keys hpoint _ ih =>
      obtain ⟨s, hpoint⟩ := hpoint
      have hlen : t.length ≠ 0 := by
        rw [hpoint.length]
        exact fun h => hpoint.ne_nil (List.length_eq_zero_iff.mp h)
      rw [visit, List.cons_append, walk, if_neg hlen, hpoint.text_eq, hpoint.length]
      by_cases hlong : key.length > KEY_MAX_LENGTH
      · rw [if_pos hlong, if_pos hlong]
        exact .returned _
      · rw [if_neg hlong, if_neg hlong]
        cases env.limited_get key exptime with
        | none => exact ih
        | some it =>
            dsimp only
            generalize hit env _ it return_cas = r
            obtain ⟨c', _ | _⟩ := r
            · exact .broke c' hpoint
            · exact ih

/-! ## The outer loop -/

/-- One round of the outer loop, where the rest of the line has the words `keys`. -/
inductive Rounds (env : Env) (return_cas : Bool) (exptime : Option Int32) (keys : List (List UInt8)) (n : Nat)
    (c : GetConn) (loop : Nat → Option (GetConn × Response)) : Prop
  | returned {c' first rest} (keys_eq : keys = first ++ rest)
      (visit : c.visit env return_cas exptime first = .returned c')
      (loop_eq : ∀ k, loop (k + 1) = some (c', .error "CLIENT_ERROR bad command line format"))
  | passed {c'} (visit : c.visit env return_cas exptime keys = .passed c')
      (loop_eq : ∀ k, loop (k + 1) = some (c'.finish env return_cas))
  | batch {c' first rest buf tokens n'} (keys_eq : keys = first ++ rest)
      (visit : c.visit env return_cas exptime first = .passed c') (spells : Spells buf tokens rest n' (MAX_TOKENS - 1))
      (shorter : n' < n) (loop_eq : ∀ k, loop (k + 1) = c'.get_loop env return_cas exptime k buf tokens)
  | broke {c' key first rest buf tokens} (keys_eq : keys = first ++ rest)
      (visit : c.visit env return_cas exptime first = .broke c' key)
      (spells : Spells buf tokens [key] key.length (MAX_TOKENS - 1))
      (loop_eq : ∀ k, loop (k + 1) = c'.get_loop env return_cas exptime k buf tokens)

theorem Spells.head_isNone {n k : Nat} (h : Spells buf tokens keys n k) (hk : 0 < k) :
    tokens.head?.any (·.value.isNone) = decide (keys = []) := by
  cases h with
  | all hpoints =>
      cases hpoints with
      | nil => rfl
      | cons hpoint _ =>
          obtain ⟨s, hpoint⟩ := hpoint
          obtain ⟨q, tl, hq, -⟩ := hpoint.text
          simp [hq]
  | some hpoints _ _ _ _ hlong =>
      cases hpoints with
      | nil => exact absurd hlong (Nat.not_le_of_lt hk)
      | cons hpoint _ =>
          obtain ⟨s, hpoint⟩ := hpoint
          obtain ⟨q, tl, hq, -⟩ := hpoint.text
          simp [hq]

/-- The inner loop stopped before the rest of a line, or at a key that ends in a NUL. -/
theorem get_loop_stopped {c' : GetConn} {t : Token} {e : Nat} {rest tail : List UInt8}
    (hwalk : c.walk env return_cas exptime buf tokens = .stopped c' t) (ht : t.value = some e)
    (hdrop : buf.drop e = rest ++ 0 :: tail) (hrest : 0 ∉ rest) :
    ∃ buf' tokens', Spells buf' tokens' (words rest) rest.length (MAX_TOKENS - 1) ∧
      ∀ k, c.get_loop env return_cas exptime (k + 1) buf tokens =
        if words rest = [] then some (c'.finish env return_cas)
        else c'.get_loop env return_cas exptime k buf' tokens' := by
  obtain ⟨buf', tokens', htoks, hspells⟩ := @tokenize_command_spells buf rest tail MAX_TOKENS e hdrop hrest
  refine ⟨buf', tokens', hspells, fun k => ?_⟩
  rw [get_loop, hwalk]
  simp only [ht, htoks]
  rw [hspells.head_isNone (by decide)]
  simp only [decide_eq_true_eq]

theorem get_loop_round {n k : Nat} (h : Spells buf tokens keys n k) :
    Rounds env return_cas exptime keys n c fun rounds => c.get_loop env return_cas exptime rounds buf tokens := by
  have hbroke {c' : GetConn} {key : List UInt8} {t : Token} {s : Nat} {first rest : List (List UInt8)}
      (hkeys : keys = first ++ rest) (hvisit : c.visit env return_cas exptime first = .broke c' key)
      (hwalk : c.walk env return_cas exptime buf tokens = .stopped c' t) (hpoint : PointsTo buf s t key) :
      Rounds env return_cas exptime keys n c fun rounds => c.get_loop env return_cas exptime rounds buf tokens := by
    obtain ⟨q, tl, hq, hdrop, -⟩ := hpoint.text
    obtain ⟨buf', tokens', hspells, hloop⟩ := get_loop_stopped hwalk hq hdrop hpoint.no_nul
    rw [words_of_not_mem hpoint.no_space hpoint.ne_nil] at hspells hloop
    exact .broke hkeys hvisit hspells hloop
  cases h with
  | @all toks _ _ _ hpoints =>
      have hagrees := @walk_agrees env return_cas exptime buf toks keys c ⟨none, 0⟩ rfl hpoints
      generalize hvisit : visit env return_cas exptime keys c = v at hagrees
      generalize hwalk : walk env return_cas exptime buf (toks ++ [⟨none, 0⟩]) c = w at hagrees
      cases hagrees with
      | returned c' => exact .returned (List.append_nil keys).symm hvisit fun k => by rw [get_loop, hwalk]
      | passed c' => exact .passed hvisit fun k => by rw [get_loop, hwalk]
      | broke c' hpoint => exact hbroke (List.append_nil keys).symm hvisit hwalk hpoint
  | @some toks first _ _ hpoints e rest tail hdrop hnul hne hlt hlong =>
      have hagrees := @walk_agrees env return_cas exptime buf toks first c ⟨some e, 0⟩ rfl hpoints
      generalize hvisit : visit env return_cas exptime first c = v at hagrees
      generalize hwalk : walk env return_cas exptime buf (toks ++ [⟨some e, 0⟩]) c = w at hagrees
      cases hagrees with
      | returned c' => exact .returned rfl hvisit fun k => by rw [get_loop, hwalk]
      | passed c' =>
          obtain ⟨buf', tokens', hspells, hloop⟩ := get_loop_stopped hwalk rfl hdrop hnul
          by_cases hw : words rest = []
          · simp only [if_pos hw] at hloop
            exact .passed (by rw [hw, List.append_nil]; exact hvisit) hloop
          · simp only [if_neg hw] at hloop
            exact .batch rfl hvisit hspells hlt hloop
      | broke c' hpoint => exact hbroke rfl hvisit hwalk hpoint

/-- The loop returns what the visits of the words of the line return. -/
theorem visits_get_loop {m n k : Nat} {r : GetConn × Response} (hvisits : c.visits env return_cas exptime m keys = some r)
    (h : Spells buf tokens keys n k) : ∃ rounds, c.get_loop env return_cas exptime rounds buf tokens = some r := by
  induction m generalizing n k c keys buf tokens with
  | zero => cases hvisits
  | succ m ihm =>
      induction n using Nat.strong_induction_on generalizing k c keys buf tokens with
      | _ n ihn =>
          rw [visits] at hvisits
          cases @get_loop_round env return_cas exptime buf tokens keys c n k h with
          | returned hkeys hvisit hloop =>
              rw [hkeys, visit_append, hvisit] at hvisits
              exact ⟨1, (hloop 0).trans hvisits⟩
          | passed hvisit hloop =>
              rw [hvisit] at hvisits
              exact ⟨1, (hloop 0).trans hvisits⟩
          | batch hkeys hvisit hspells hlt hloop =>
              rw [hkeys, visit_append, hvisit] at hvisits
              obtain ⟨rounds, hrounds⟩ := ihn _ hlt hvisits hspells
              exact ⟨rounds + 1, (hloop rounds).trans hrounds⟩
          | broke hkeys hvisit hspells hloop =>
              rw [hkeys, visit_append, hvisit] at hvisits
              obtain ⟨rounds, hrounds⟩ := ihm hvisits hspells
              exact ⟨rounds + 1, (hloop rounds).trans hrounds⟩

theorem get_loop_visits {rounds n k : Nat} {r : GetConn × Response}
    (hloop : c.get_loop env return_cas exptime rounds buf tokens = some r) (h : Spells buf tokens keys n k) :
    ∃ m, c.visits env return_cas exptime m keys = some r := by
  induction rounds generalizing n k c keys buf tokens with
  | zero => cases hloop
  | succ rounds ih =>
      cases @get_loop_round env return_cas exptime buf tokens keys c n k h with
      | returned hkeys hvisit hround =>
          refine ⟨1, ?_⟩
          rw [visits, hkeys, visit_append, hvisit]
          exact (hround rounds).symm.trans hloop
      | passed hvisit hround =>
          refine ⟨1, ?_⟩
          rw [visits, hvisit]
          exact (hround rounds).symm.trans hloop
      | batch hkeys hvisit hspells hlt hround =>
          obtain ⟨m, hm⟩ := ih ((hround rounds).symm.trans hloop) hspells
          cases m with
          | zero => cases hm
          | succ m =>
              refine ⟨m + 1, ?_⟩
              rw [visits, hkeys, visit_append, hvisit]
              exact hm
      | broke hkeys hvisit hspells hround =>
          obtain ⟨m, hm⟩ := ih ((hround rounds).symm.trans hloop) hspells
          refine ⟨m + 1, ?_⟩
          rw [visits, hkeys, visit_append, hvisit]
          exact hm

theorem get_loop_mono {rounds rounds' : Nat} {r : GetConn × Response}
    (h : c.get_loop env return_cas exptime rounds buf tokens = some r) (hle : rounds ≤ rounds') :
    c.get_loop env return_cas exptime rounds' buf tokens = some r := by
  induction rounds generalizing rounds' c buf tokens with
  | zero => cases h
  | succ rounds ih =>
      obtain ⟨rounds', rfl⟩ := Nat.exists_eq_add_of_le' hle
      rw [get_loop] at h
      rw [← Nat.add_assoc, get_loop]
      generalize c.walk env return_cas exptime buf tokens = w at h ⊢
      cases w with
      | returned c' => exact h
      | stopped c' t =>
          dsimp only at h ⊢
          generalize t.value = v at h ⊢
          cases v with
          | none => exact h
          | some e =>
              dsimp only at h ⊢
              split at h
              next hhead => rwa [if_pos hhead]
              next hhead =>
                rw [if_neg hhead]
                exact ih h (Nat.le_add_left ..)

/-! ## The command -/

theorem Spells.drop {n k j : Nat} (h : Spells buf tokens keys n k) (hj : j ≤ k) (hkeys : j ≤ keys.length) :
    Spells buf (tokens.drop j) (keys.drop j) n (k - j) := by
  cases h with
  | @all toks _ _ _ hpoints =>
      rw [List.drop_append_of_le_length (by rw [hpoints.length_eq]; exact hkeys)]
      exact .all (List.forall₂_drop j hpoints)
  | @some toks first _ _ hpoints e rest tail hdrop hnul hne hlt hlong =>
      have hfirst : j ≤ first.length := Nat.le_trans hj hlong
      rw [List.drop_append_of_le_length (by rw [hpoints.length_eq]; exact hfirst), List.drop_append_of_le_length hfirst]
      refine .some (List.forall₂_drop j hpoints) hdrop hnul hne hlt ?_
      rw [List.length_drop]
      omega

theorem Spells.text {n k j : Nat} (h : Spells buf tokens keys n k) (hj : j < k) (hkeys : j < keys.length) :
    Get.text buf (tokens.getD j ⟨none, 0⟩) = keys.getD j [] := by
  have hget {toks : List Token} {words : List (List UInt8)} (term : Token) (more : List (List UInt8))
      (hpoints : List.Forall₂ (fun t w => ∃ s, PointsTo buf s t w) toks words) (hlt : j < words.length) :
      Get.text buf ((toks ++ [term]).getD j ⟨none, 0⟩) = (words ++ more).getD j [] := by
    have hlen : j < toks.length := by rwa [hpoints.length_eq]
    obtain ⟨s, hpoint⟩ := List.Forall₂.get hpoints hlen hlt
    have htext := hpoint.text_eq
    simp only [List.get_eq_getElem] at htext
    simp [List.getD_eq_getElem?_getD, List.getElem?_append_left, hlen, hlt, htext]
  cases h with
  | all hpoints => simpa using hget ⟨none, 0⟩ [] hpoints hkeys
  | some hpoints _ _ _ _ hlong => exact hget _ _ hpoints (Nat.lt_of_lt_of_le hj hlong)

end

/-- The words after the command, and after its `exptime`. -/
def command_keys (should_touch : Bool) (line : List UInt8) : List (List UInt8) :=
  (words line).drop (if should_touch then 2 else 1)

/-- The `exptime` of the command, or none where it is no number. -/
def command_exptime (env : Env) (should_touch : Bool) (line : List UInt8) : Option (Option Int32) :=
  if should_touch then (env.safe_strtol ((words line).getD 1 [])).map some else some none

/-- The command, over the words of its line. -/
def command_visits (env : Env) (return_cas should_touch : Bool) (m : Nat) (line : List UInt8) :
    Option (GetConn × Response) :=
  match command_exptime env should_touch line with
  | none => some ({ GetConn.idle with iov := [c_string "CLIENT_ERROR invalid exptime argument\r\n"] },
      .error "CLIENT_ERROR invalid exptime argument")
  | some exptime => GetConn.idle.visits env return_cas exptime m (command_keys should_touch line)

theorem process_command_mono {env : Env} {return_cas should_touch : Bool} {line : List UInt8} {r : GetConn × Response}
    {rounds rounds' : Nat} (h : GetConn.process_command env return_cas should_touch rounds line = some r)
    (hle : rounds ≤ rounds') : GetConn.process_command env return_cas should_touch rounds' line = some r := by
  simp only [GetConn.process_command, GetConn.process_get_command] at h ⊢
  cases should_touch with
  | false => exact get_loop_mono h hle
  | true =>
      simp only [if_true] at h ⊢
      split at h
      · exact h
      · exact get_loop_mono h hle

theorem process_command_unique {env : Env} {return_cas should_touch : Bool} {line : List UInt8}
    {r r' : GetConn × Response} {rounds rounds' : Nat}
    (h : GetConn.process_command env return_cas should_touch rounds line = some r)
    (h' : GetConn.process_command env return_cas should_touch rounds' line = some r') : r = r' := by
  have hmax := process_command_mono h (Nat.le_max_left rounds rounds')
  exact Option.some.inj (hmax.symm.trans (process_command_mono h' (Nat.le_max_right ..)))

theorem process_command_visits {env : Env} {return_cas should_touch : Bool} {line : List UInt8}
    {r : GetConn × Response} (hline : 0 ∉ line) (hkeys : command_keys should_touch line ≠ []) :
    (∃ rounds, GetConn.process_command env return_cas should_touch rounds line = some r) ↔
      ∃ m, command_visits env return_cas should_touch m line = some r := by
  obtain ⟨buf, tokens, htokens, hspells⟩ := @tokenize_command_spells (line ++ [0]) line [] MAX_TOKENS 0 rfl hline
  simp only [GetConn.process_command, htokens, GetConn.process_get_command, command_visits, command_exptime]
  have hlen : (if should_touch then 2 else 1) < (words line).length := by
    rw [command_keys] at hkeys
    exact Nat.lt_of_not_le fun hle => hkeys (List.drop_eq_nil_of_le hle)
  cases should_touch with
  | false =>
      have hdrop := @Spells.drop _ _ _ _ _ 1 hspells (by decide) (Nat.le_of_lt hlen)
      constructor
      · rintro ⟨rounds, h⟩
        exact get_loop_visits h hdrop
      · rintro ⟨m, h⟩
        exact visits_get_loop h hdrop
  | true =>
      have hdrop := @Spells.drop _ _ _ _ _ 2 hspells (by decide) (Nat.le_of_lt hlen)
      have htext := @Spells.text _ _ _ _ _ 1 hspells (by decide) (Nat.lt_of_succ_lt hlen)
      simp only [if_true, htext]
      cases env.safe_strtol ((words line).getD 1 []) with
      | none => simp
      | some exptime =>
          constructor
          · rintro ⟨rounds, h⟩
            exact get_loop_visits h hdrop
          · rintro ⟨m, h⟩
            exact visits_get_loop h hdrop

end Memcached.Thread.Get

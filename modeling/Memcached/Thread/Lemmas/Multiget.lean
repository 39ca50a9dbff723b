import Mathlib.Data.List.Forall2
import Memcached.Thread.Get

/-!
# Tokens of a command line

A batch of tokens is the next words of the line, each ended by a NUL in the buffer; the terminal token points to the
rest of the line, if there is one.
-/

namespace Memcached.Thread.Get

/-- The words of a line. -/
def words (line : List UInt8) : List (List UInt8) := (line.splitOnP (· = 32)).filter (· ≠ [])

/-! ## Words -/

section
variable {cur rest : List UInt8}

theorem words_nil : words [] = [] := by simp [words, List.splitOnP_nil]

theorem words_of_not_mem (h : 32 ∉ cur) (hne : cur ≠ []) : words cur = [cur] := by
  have hsplit : cur.splitOnP (· = 32) = [cur] :=
    List.splitOnP_eq_singleton fun x hx => by simpa using fun he : x = 32 => h (he ▸ hx)
  rw [words, hsplit]
  simp [hne]

theorem words_append (h : 32 ∉ cur) (hne : cur ≠ []) : words (cur ++ 32 :: rest) = cur :: words rest := by
  have hsplit : (cur ++ 32 :: rest).splitOnP (· = 32) = cur :: rest.splitOnP (· = 32) :=
    List.splitOnP_append_cons_of_forall_mem (fun x hx => by simpa using fun he : x = 32 => h (he ▸ hx)) 32 (by simp) rest
  rw [words, hsplit]
  simp [hne, words]

theorem words_space : words (32 :: rest) = words rest := by
  have hsplit : ([] ++ 32 :: rest : List UInt8).splitOnP (· = 32) = [] :: rest.splitOnP (· = 32) :=
    List.splitOnP_append_cons_of_forall_mem (by simp) 32 (by simp) rest
  rw [List.nil_append] at hsplit
  rw [words, hsplit]
  simp [words]

end

/-! ## Batches -/

/-- The token `t` points to the word `w`, which lies before `s` and ends in a NUL. -/
structure PointsTo (buf : List UInt8) (s : Nat) (t : Token) (w : List UInt8) : Prop where
  length : t.length = w.length
  ne_nil : w ≠ []
  no_space : 32 ∉ w
  no_nul : 0 ∉ w
  text : ∃ q tl, t.value = some q ∧ buf.drop q = w ++ 0 :: tl ∧ q + w.length < s

section
variable {buf cur rest tail w : List UInt8} {s e max_tokens : Nat} {t : Token} {tokens : List Token}
  {ws : List (List UInt8)}

theorem PointsTo.text_eq (h : PointsTo buf s t w) : Get.text buf t = w := by
  obtain ⟨q, tl, hq, hdrop, -⟩ := h.text
  rw [Get.text, hq, Option.getD_some, hdrop, h.length, List.take_left]

theorem PointsTo.mono (h : PointsTo buf s t w) (he : s ≤ e) : PointsTo buf e t w := by
  obtain ⟨q, tl, hq, hdrop, hlt⟩ := h.text
  exact ⟨h.length, h.ne_nil, h.no_space, h.no_nul, q, tl, hq, hdrop, Nat.lt_of_lt_of_le hlt he⟩

theorem PointsTo.set (h : PointsTo buf s t w) (he : s ≤ e) : PointsTo (buf.set e 0) s t w := by
  obtain ⟨q, tl, hq, hdrop, hlt⟩ := h.text
  refine ⟨h.length, h.ne_nil, h.no_space, h.no_nul, q, tl.set (e - q - w.length - 1) 0, hq, ?_, hlt⟩
  have hset : ¬ e < q := by omega
  have hpast : ¬ e - q < w.length := by omega
  obtain ⟨k, hk⟩ : ∃ k, e - q - w.length = k + 1 := ⟨e - q - w.length - 1, by omega⟩
  rw [List.drop_set, if_neg hset, hdrop, List.set_append, if_neg hpast, hk, List.set_cons_succ, Nat.add_sub_cancel]

/-- How far a batch of `line` came: it added the tokens `new`, of the words `ws`. -/
structure Batch (max_tokens : Nat) (tail line buf : List UInt8) (s : Nat) (old : List Token) (buf' : List UInt8)
    (s' e' : Nat) (tokens new : List Token) (ws : List (List UInt8)) : Prop where
  added : tokens = old ++ new
  keeps : ∀ t w, PointsTo buf s t w → PointsTo buf' s' t w
  points : List.Forall₂ (PointsTo buf' s') new ws
  rest : (∃ cur, buf'.drop s' = cur ++ 0 :: tail ∧ e' = s' + cur.length ∧ 32 ∉ cur ∧ 0 ∉ cur ∧
      words line = ws ++ words cur) ∨
    ∃ rest, s' = e' ∧ buf'.drop e' = rest ++ 0 :: tail ∧ 0 ∉ rest ∧ rest.length < line.length ∧
      tokens.length = max_tokens - 1 ∧ words line = ws ++ words rest

theorem Batch.skip {buf' : List UInt8} {s' e' : Nat} {tokens' new : List Token}
    (h : Batch max_tokens tail ([] ++ rest) buf (s + 1) tokens buf' s' e' tokens' new ws) :
    Batch max_tokens tail ([] ++ 32 :: rest) buf s tokens buf' s' e' tokens' new ws := by
  refine ⟨h.added, fun t w hp => h.keeps t w (hp.mono (Nat.le_succ s)), h.points, ?_⟩
  rw [List.nil_append, words_space]
  rcases h.rest with hall | ⟨rest', hs, hdrop, hnul, hlen, hfull, hw⟩
  · exact .inl hall
  · exact .inr ⟨rest', hs, hdrop, hnul, Nat.lt_succ_of_lt hlen, hfull, hw⟩

theorem Batch.cons {buf₁ buf' : List UInt8} {s₁ s' e' : Nat} {tokens' new : List Token}
    (h : Batch max_tokens tail ([] ++ rest) buf₁ s₁ (tokens ++ [t]) buf' s' e' tokens' new ws) (hspace : 32 ∉ cur)
    (hne : cur ≠ []) (hkeeps : ∀ t w, PointsTo buf s t w → PointsTo buf₁ s₁ t w) (ht : PointsTo buf₁ s₁ t cur) :
    Batch max_tokens tail (cur ++ 32 :: rest) buf s tokens buf' s' e' tokens' (t :: new) (cur :: ws) := by
  refine ⟨by rw [h.added, List.append_assoc]; rfl, fun t w hp => h.keeps t w (hkeeps t w hp),
    .cons (h.keeps t cur ht) h.points, ?_⟩
  rw [words_append hspace hne]
  rcases h.rest with ⟨cur', hdrop, he, hsp, hnul, hw⟩ | ⟨rest', hs, hdrop, hnul, hlen, hfull, hw⟩
  · exact .inl ⟨cur', hdrop, he, hsp, hnul, by rw [List.cons_append, ← hw, List.nil_append]⟩
  · refine .inr ⟨rest', hs, hdrop, hnul, ?_, hfull, by rw [List.cons_append, ← hw, List.nil_append]⟩
    rw [List.length_append, List.length_cons]
    rw [List.nil_append] at hlen
    omega

/-- The loop, in the middle of the word `cur`, with `rest` before it. -/
theorem tokenize_loop_batch (hdrop : buf.drop s = cur ++ (rest ++ 0 :: tail)) (hspace : 32 ∉ cur) (hcur : 0 ∉ cur)
    (hrest : 0 ∉ rest) : ∃ buf' s' e' tokens' new ws,
      tokenize_loop max_tokens rest.length buf s (s + cur.length) tokens = (buf', s', e', tokens') ∧
        Batch max_tokens tail (cur ++ rest) buf s tokens buf' s' e' tokens' new ws := by
  induction rest generalizing buf s cur tokens with
  | nil =>
      refine ⟨buf, s, s + cur.length, tokens, [], [], rfl, by simp, fun _ _ h => h, .nil, .inl ⟨cur, ?_⟩⟩
      exact ⟨by simpa using hdrop, rfl, hspace, hcur, by simp⟩
  | cons b rest ih =>
      have hget : buf.getD (s + cur.length) 0 = b := by
        have h := congrArg (fun l => l.getD cur.length 0) hdrop
        simpa [List.getD_eq_getElem?_getD, List.getElem?_drop] using h
      have hnext : buf.drop (s + cur.length + 1) = rest ++ 0 :: tail := by
        have h := congrArg (List.drop (cur.length + 1)) hdrop
        rw [List.drop_drop, ← Nat.add_assoc] at h
        rw [h]
        simp [List.drop_append]
      have hb : b ≠ 0 := fun he => hrest (he ▸ List.mem_cons_self)
      have hrest' : 0 ∉ rest := fun hm => hrest (List.mem_cons_of_mem b hm)
      rw [List.length_cons, tokenize_loop, hget]
      by_cases hsp : b = 32
      · subst hsp
        rw [if_pos rfl]
        by_cases hne : cur = []
        · subst hne
          obtain ⟨buf', s', e', tokens', new, ws, he, hbatch⟩ :=
            @ih buf [] (s + 1) tokens (by simpa using hnext) (by simp) (by simp) hrest'
          exact ⟨buf', s', e', tokens', new, ws, by simpa using he, hbatch.skip⟩
        · have hse : s ≠ s + cur.length := by
            have := List.length_pos_iff.mpr hne
            omega
          have hbuf : (buf.set (s + cur.length) 0).drop (s + cur.length + 1) = [] ++ (rest ++ 0 :: tail) := by
            rw [List.drop_set_of_lt (Nat.lt_succ_self _)]
            exact hnext
          have hpoints : PointsTo (buf.set (s + cur.length) 0) (s + cur.length + 1)
              ⟨some s, s + cur.length - s⟩ cur := by
            refine ⟨Nat.add_sub_cancel_left .., hne, hspace, hcur, s, rest ++ 0 :: tail, rfl, ?_, Nat.lt_succ_self _⟩
            rw [List.drop_set, if_neg (by omega), hdrop, Nat.add_sub_cancel_left, List.set_append, if_neg (by omega),
              Nat.sub_self]
            rfl
          have hkeeps (t w) (h : PointsTo buf s t w) : PointsTo (buf.set (s + cur.length) 0) (s + cur.length + 1) t w :=
            (h.set (Nat.le_add_right ..)).mono (by omega)
          simp only [if_pos hse]
          split
          next hfull =>
            refine ⟨_, _, _, _, [⟨some s, s + cur.length - s⟩], [cur], rfl, rfl, hkeeps, .cons hpoints .nil, .inr ?_⟩
            refine ⟨rest, rfl, hbuf, hrest', ?_, hfull, by rw [words_append hspace hne]; rfl⟩
            rw [List.length_append, List.length_cons]
            omega
          next =>
            obtain ⟨buf', s', e', tokens', new, ws, he, hbatch⟩ :=
              @ih _ [] _ (tokens ++ [⟨some s, s + cur.length - s⟩]) hbuf (by simp) (by simp) hrest'
            exact ⟨buf', s', e', tokens', ⟨some s, s + cur.length - s⟩ :: new, cur :: ws, he,
              hbatch.cons hspace hne hkeeps hpoints⟩
      · rw [if_neg hsp]
        have hline : cur ++ [b] ++ rest = cur ++ b :: rest := by simp
        have hlen : s + (cur ++ [b]).length = s + cur.length + 1 := by simp [Nat.add_assoc]
        have hbatch := @ih buf (cur ++ [b]) s tokens
          (by rw [hdrop, List.append_assoc, List.singleton_append, List.cons_append])
          (by simp [hspace, Ne.symm hsp]) (by simp [hcur, hb.symm]) hrest'
        rwa [hline, hlen] at hbatch

/-! ## A line and its tokens -/

/-- The tokens of one batch of the words `ws`: at least `k` of them where the terminal token points to a rest. -/
inductive Spells (buf : List UInt8) : List Token → List (List UInt8) → Nat → Nat → Prop
  | all {toks ws n k} (points : List.Forall₂ (fun t w => ∃ s, PointsTo buf s t w) toks ws) :
      Spells buf (toks ++ [⟨none, 0⟩]) ws n k
  | some {toks ws n k} (points : List.Forall₂ (fun t w => ∃ s, PointsTo buf s t w) toks ws) {e : Nat}
      {rest tail : List UInt8} (drop : buf.drop e = rest ++ 0 :: tail) (no_nul : 0 ∉ rest) (ne_nil : rest ≠ [])
      (shorter : rest.length < n) (long : k ≤ ws.length) :
      Spells buf (toks ++ [⟨some e, 0⟩]) (ws ++ words rest) n k

theorem strlen_eq {p : Nat} (hdrop : buf.drop p = rest ++ 0 :: tail) (hrest : 0 ∉ rest) : strlen buf p = rest.length := by
  have htake : (rest ++ 0 :: tail).takeWhile (· ≠ 0) = rest := by
    rw [List.takeWhile_append_of_pos fun x hx => by simpa using fun he : x = 0 => hrest (he ▸ hx)]
    simp
  rw [strlen, hdrop, htake]

theorem tokenize_command_spells {p : Nat} (hdrop : buf.drop p = rest ++ 0 :: tail) (hrest : 0 ∉ rest) :
    ∃ buf' tokens, tokenize_command buf p max_tokens = (buf', tokens) ∧
      Spells buf' tokens (words rest) rest.length (max_tokens - 1) := by
  obtain ⟨buf', s', e', tokens', new, ws, he, hbatch⟩ :=
    @tokenize_loop_batch buf [] rest tail p max_tokens [] hdrop (by simp) (by simp) hrest
  obtain rfl : tokens' = new := by simpa using hbatch.added
  have hpoints : List.Forall₂ (fun t w => ∃ s, PointsTo buf' s t w) tokens' ws := hbatch.points.imp fun _ _ h => ⟨_, h⟩
  rw [List.length_nil, Nat.add_zero] at he
  rw [tokenize_command, strlen_eq hdrop hrest, he]
  refine ⟨buf', _, rfl, ?_⟩
  rcases hbatch.rest with ⟨cur, hcur, rfl, hspace, hnul, hw⟩ | ⟨rest', rfl, hrest', hnul, hlen, hfull, hw⟩
  · have hend : buf'.getD (s' + cur.length) 0 = 0 := by
      have h := congrArg (fun l => l.getD cur.length 0) hcur
      simpa [List.getD_eq_getElem?_getD, List.getElem?_drop] using h
    rw [List.nil_append] at hw
    rw [if_pos hend, hw]
    by_cases hc : cur = []
    · subst hc
      rw [if_neg (fun h => h rfl), words_nil, List.append_nil]
      exact .all hpoints
    · have hpos := List.length_pos_iff.mpr hc
      have hse : s' ≠ s' + cur.length := by omega
      rw [if_pos hse, Nat.add_sub_cancel_left, words_of_not_mem hspace hc]
      refine .all (List.rel_append hpoints (.cons ⟨s' + cur.length + 1, ?_⟩ .nil))
      exact ⟨rfl, hc, hspace, hnul, s', tail, rfl, hcur, Nat.lt_succ_self _⟩
  · have hget : buf'.getD s' 0 = rest'.headD 0 := by
      have h := congrArg (fun l => l.getD 0 0) hrest'
      cases rest' <;> simpa [List.getD_eq_getElem?_getD, List.getElem?_drop] using h
    rw [List.nil_append] at hw hlen
    rw [if_neg (fun h => h rfl), hget, hw]
    cases rest' with
    | nil =>
        rw [words_nil, List.append_nil]
        exact .all hpoints
    | cons b rest' =>
        have hb : b ≠ 0 := fun he => hnul (he ▸ List.mem_cons_self)
        rw [List.headD_cons, if_neg hb]
        refine .some hpoints hrest' hnul (by simp) hlen ?_
        rw [← hpoints.length_eq, hfull]

end

end Memcached.Thread.Get

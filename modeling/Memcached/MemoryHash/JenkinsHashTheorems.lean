import Mathlib.Data.LawfulXor.Basic
import Mathlib.Tactic.IntervalCases
import Memcached.MemoryHash.JenkinsHash

/-!
# What the hash of a key depends on

Where the machine reads words as the hash was built for, all paths add the same words, and no byte behind the key counts.
-/

namespace Memcached.MemoryHash

open ByteOrder

variable {build machine : ByteOrder} {mem mem' : Nat → UInt8} {p p' key key' length n fuel i : Nat} {s : Abc}

/-! ## Words of the key -/

/-- The word `j` of the `n` bytes from `p` on, with zeros behind them. -/
def padded (build : ByteOrder) (mem : Nat → UInt8) (p n j : Nat) : UInt32 :=
  let byte i := if 4 * j + i < n then mem (p + (4 * j + i)) else 0
  build.word (byte 0) (byte 1) (byte 2) (byte 3)

def add_padded (build : ByteOrder) (mem : Nat → UInt8) (p n : Nat) (s : Abc) : Abc :=
  ⟨s.a + padded build mem p n 0, s.b + padded build mem p n 1, s.c + padded build mem p n 2⟩

theorem padded_congr (h : ∀ i < n, mem (p + i) = mem' (p' + i)) (j : Nat) : padded build mem p n j = padded build mem' p' n j := by
  have hbyte (i : Nat) : (if 4 * j + i < n then mem (p + (4 * j + i)) else 0) =
      if 4 * j + i < n then mem' (p' + (4 * j + i)) else 0 := by
    split
    · next hi => exact h _ hi
    · rfl
  simp only [padded, hbyte]

theorem add_padded_congr (h : ∀ i < n, mem (p + i) = mem' (p' + i)) : add_padded build mem p n s = add_padded build mem' p' n s := by
  simp only [add_padded, padded_congr h]

theorem word_masks (b₀ b₁ b₂ b₃ : UInt8) :
    build.word b₀ b₁ b₂ b₃ &&& (masks build).1 = build.word b₀ 0 0 0 ∧
      build.word b₀ b₁ b₂ b₃ &&& (masks build).2.1 = build.word b₀ b₁ 0 0 ∧
      build.word b₀ b₁ b₂ b₃ &&& (masks build).2.2 = build.word b₀ b₁ b₂ 0 := by
  cases build with
  | little => exact ⟨of_bytes_and_ff, of_bytes_and_ffff, of_bytes_and_ffffff⟩
  | big => exact ⟨of_bytes_and_ff000000, of_bytes_and_ffff0000, of_bytes_and_ffffff00⟩

theorem last32_padded (hn : n ≤ 12) : last32 build mem p build n s = add_padded build mem p n s := by
  obtain ⟨a, b, c⟩ := s
  have hzero : build.word 0 0 0 0 = 0 := by cases build <;> rfl
  interval_cases n <;>
    simp [last32, add_padded, padded, k32, word_masks, hzero]

theorem block32_padded : block32 build mem p s = add_padded build mem p 12 s := by
  simp [block32, add_padded, padded, k32]

theorem half_pair (b₀ b₁ b₂ b₃ : UInt8) : half .little b₀ b₁ + (half .little b₂ b₃ <<< 16) = word .little b₀ b₁ b₂ b₃ := by
  have hzero (k : UInt32) : UInt8.toUInt32 0 <<< k = 0 := by simp
  simp only [half, word, of_bytes, hzero, UInt32.add_zero]
  refine UInt32.toNat_inj.mp ?_
  have h₀ := b₀.toNat_lt
  have h₁ := b₁.toNat_lt
  have h₂ := b₂.toNat_lt
  have h₃ := b₃.toNat_lt
  simp only [UInt32.toNat_add, UInt32.toNat_shiftLeft, UInt8.toNat_toUInt32, UInt32.reduceToNat, Nat.shiftLeft_eq,
    Nat.reduceMod, Nat.reducePow]
  omega

theorem block16_padded : block16 .little mem p s = add_padded .little mem p 12 s := by
  simp [block16, add_padded, padded, k16, half_pair]

theorem last16_padded (hn : n ≤ 12) : last16 .little mem p n s = add_padded .little mem p n s := by
  obtain ⟨a, b, c⟩ := s
  have hthree (b₀ b₁ b₂ : UInt8) (x : UInt32) : x + (b₂.toUInt32 <<< 16) + half .little b₀ b₁ = x + word .little b₀ b₁ b₂ 0 := by
    simp only [half, word, of_bytes]
    simp
    ac_rfl
  have htwo (b₀ b₁ : UInt8) : word .little b₀ b₁ 0 0 = half .little b₀ b₁ := rfl
  have hone (b₀ : UInt8) : half .little b₀ 0 = b₀.toUInt32 := by simp [half, of_bytes]
  interval_cases n <;>
    simp [last16, add_padded, padded, k16, k8, half_pair, hthree, htwo, hone]

/-- The byte `i`, where there are more than `i`. -/
def term (mem : Nat → UInt8) (p n i : Nat) (shift : UInt32) : UInt32 := if i < n then k8 mem p i <<< shift else 0

theorem fall_through_terms (shift : Nat → UInt32) (x : UInt32) : fall_through mem p shift n x i =
    x + term mem p n (i + 3) (shift 3) + term mem p n (i + 2) (shift 2) + term mem p n (i + 1) (shift 1) +
      term mem p n i (shift 0) := by
  have hadd {q : Prop} [Decidable q] (x y : UInt32) : (if q then x + y else x) = x + if q then y else 0 := by
    split <;> simp
  simp only [fall_through, hadd, term]

theorem toUInt32_term : (if i < n then mem (p + i) else 0).toUInt32 = term mem p n i 0 := by
  rw [term]
  split <;> simp [k8]

theorem term_shift {shift : UInt32} : term mem p n i 0 <<< shift = term mem p n i shift := by
  rw [term, term]
  split <;> simp

/-- What falls through adds a word. -/
theorem fall_through_padded (x : UInt32) (j : Nat) :
    fall_through mem p (shifts build) n x (4 * j) = x + padded build mem p n j := by
  rw [fall_through_terms]
  cases build with
  | little =>
      have h₀ : shifts .little 0 = 0 := rfl
      have h₁ : shifts .little 1 = 8 := rfl
      have h₂ : shifts .little 2 = 16 := rfl
      have h₃ : shifts .little 3 = 24 := rfl
      simp only [padded, word, of_bytes, toUInt32_term, term_shift, Nat.add_zero, h₀, h₁, h₂, h₃]
      generalize term mem p n (4 * j) 0 = t₀, term mem p n (4 * j + 1) 8 = t₁, term mem p n (4 * j + 2) 16 = t₂,
        term mem p n (4 * j + 3) 24 = t₃
      ac_rfl
  | big =>
      have h₀ : shifts .big 0 = 24 := rfl
      have h₁ : shifts .big 1 = 16 := rfl
      have h₂ : shifts .big 2 = 8 := rfl
      have h₃ : shifts .big 3 = 0 := rfl
      simp only [padded, word, of_bytes, toUInt32_term, term_shift, Nat.add_zero, h₀, h₁, h₂, h₃]
      generalize term mem p n (4 * j) 24 = t₀, term mem p n (4 * j + 1) 16 = t₁, term mem p n (4 * j + 2) 8 = t₂,
        term mem p n (4 * j + 3) 0 = t₃
      ac_rfl

theorem last8_padded : last8 mem p build n s = add_padded build mem p n s := by
  simp only [last8, add_padded, ← fall_through_padded]

theorem block8_little_padded : block8_little mem p s = add_padded .little mem p 12 s := by
  simp [block8_little, add_padded, padded, word, of_bytes, k8, UInt32.add_assoc]

theorem block8_big_padded : block8_big mem p s = add_padded .big mem p 12 s := by
  have hturn (x t₀ t₁ t₂ t₃ : UInt32) : x + t₀ + t₁ + t₂ + t₃ = x + (t₃ + t₂ + t₁ + t₀) := by ac_rfl
  simp [block8_big, add_padded, padded, word, of_bytes, k8, hturn]

/-! ## The hash -/

/-- The blocks of two hashes are added alike; the blocks but the last one are full, and stand at words of the key. -/
structure Alike (block block' : Nat → Abc → Abc) (last last' : Nat → Nat → Abc → Abc) (key key' length : Nat) : Prop where
  block : ∀ i s, i % 4 = 0 → i + 12 < length → block (key + i) s = block' (key' + i) s
  last : ∀ i n s, i % 4 = 0 → i + n = length → n ≤ 12 → n ≠ 0 → last (key + i) n s = last' (key' + i) n s

variable {block block' : Nat → Abc → Abc} {last last' : Nat → Nat → Abc → Abc}

theorem hash_loop_alike (h : Alike block block' last last' key key' length) (hi : i % 4 = 0) (hlength : i + n = length)
    (hfuel : n ≤ fuel) : ∃ j m t, hash_loop block fuel (key + i) n s = (key + j, m, t) ∧
      hash_loop block' fuel (key' + i) n s = (key' + j, m, t) ∧ j % 4 = 0 ∧ j + m = length ∧ m ≤ 12 := by
  induction fuel generalizing i n s with
  | zero => exact ⟨i, n, s, rfl, rfl, hi, hlength, by omega⟩
  | succ fuel ih =>
      rw [hash_loop, hash_loop]
      split
      · next hmore =>
        rw [h.block i s hi (by omega), Nat.add_assoc, Nat.add_assoc]
        exact ih (by omega) (by omega) (by omega)
      · exact ⟨i, n, s, rfl, rfl, hi, hlength, by omega⟩

theorem hash_by_alike (h : Alike block block' last last' key key' length) :
    hash_by block last key length = hash_by block' last' key' length := by
  obtain ⟨j, m, t, hloop, hloop', hj, hm, hle⟩ := @hash_loop_alike key key' length length length 0
    ⟨0xdeadbeef + .ofNat length + 0, 0xdeadbeef + .ofNat length + 0, 0xdeadbeef + .ofNat length + 0⟩ _ _ _ _ h rfl
    (Nat.zero_add _) le_rfl
  simp only [Nat.add_zero] at hloop hloop'
  simp only [hash_by, hloop, hloop']
  split
  · rfl
  · next hpos => rw [h.last j m t hj hm hle hpos]

/-- All paths are the one that adds words of the key with zeros behind it. -/
theorem jenkins_hash_padded : jenkins_hash build build mem key length =
    hash_by (fun p => add_padded build mem p 12) (add_padded build mem) key length := by
  have hpath {block : Nat → Abc → Abc} {last : Nat → Nat → Abc → Abc} (hblock : ∀ p s, block p s = add_padded build mem p 12 s)
      (hlast : ∀ p n s, n ≤ 12 → last p n s = add_padded build mem p n s) :
      hash_by block last key length = hash_by (fun p => add_padded build mem p 12) (add_padded build mem) key length :=
    hash_by_alike ⟨fun i s _ _ => hblock _ s, fun i n s _ _ hn _ => hlast _ n s hn⟩
  cases build with
  | little =>
      simp only [jenkins_hash]
      split
      · exact hpath (fun _ _ => block32_padded) fun _ _ _ hn => last32_padded hn
      split
      · exact hpath (fun _ _ => block16_padded) fun _ _ _ hn => last16_padded hn
      · exact hpath (fun _ _ => block8_little_padded) fun _ _ _ _ => last8_padded
  | big =>
      simp only [jenkins_hash]
      split
      · exact hpath (fun _ _ => block32_padded) fun _ _ _ hn => last32_padded hn
      · exact hpath (fun _ _ => block8_big_padded) fun _ _ _ _ => last8_padded

/-- Built for the byte order of its machine, the hash of a key depends on the bytes of the key alone: not on where the key
stands, and not on what is behind it. -/
theorem jenkins_hash_of_key (h : ∀ i < length, mem (key + i) = mem' (key' + i)) :
    jenkins_hash build build mem key length = jenkins_hash build build mem' key' length := by
  rw [jenkins_hash_padded, jenkins_hash_padded]
  refine hash_by_alike ⟨fun i s _ hi => add_padded_congr fun k hk => ?_, fun i n s _ hi _ _ => add_padded_congr fun k hk => ?_⟩
  · rw [Nat.add_assoc, Nat.add_assoc]
    exact h _ (by omega)
  · rw [Nat.add_assoc, Nat.add_assoc]
    exact h _ (by omega)

/-- "abc" at 4 and at 7, with different bytes behind it. -/
theorem jenkins_hash_of_key_small :
    let mem := fun p => ([0, 0, 0, 0, 97, 98, 99, 1] : List UInt8).getD p 0
    let mem' := fun p => ([0, 0, 0, 0, 0, 0, 0, 97, 98, 99, 2] : List UInt8).getD p 0
    jenkins_hash .big .big mem 4 3 = jenkins_hash .big .big mem' 7 3 :=
  jenkins_hash_of_key (by decide)

/-! ## The other byte order -/

/-- Built for big words, as memcached.h has it, on a machine of little words: the words of a key lose their first bytes where
the last ones should go, so the hash misses a byte of each key that does not fill its words. -/
theorem wrong_order_misses (haligned : key % 4 = 0) (hlength : length % 4 ≠ 0)
    (h : ∀ p, p ≠ key + length / 4 * 4 → mem p = mem' p) :
    jenkins_hash .big .little mem key length = jenkins_hash .big .little mem' key length := by
  simp only [jenkins_hash, if_pos haligned]
  refine hash_by_alike ⟨fun i s hi hmore => ?_, fun i n s hi hn hle _ => ?_⟩
  · rw [block32_padded, block32_padded]
    exact add_padded_congr fun k hk => h _ (by omega)
  · have hplace : key + length / 4 * 4 = key + i + n / 4 * 4 := by omega
    have hpart : n % 4 ≠ 0 := by omega
    rw [hplace] at h
    interval_cases n <;> first
      | exact absurd rfl hpart
      | simp (disch := omega) only [last32, masks, k32, word, of_bytes_and_ff000000, of_bytes_and_ffff0000,
          of_bytes_and_ffffff00, h]

theorem wrong_order_misses_small :
    let mem := fun p => ([97, 98, 99, 100, 101, 0] : List UInt8).getD p 0
    let mem' := fun p => ([97, 98, 99, 100, 102, 0] : List UInt8).getD p 0
    jenkins_hash .big .little mem 0 5 = jenkins_hash .big .little mem' 0 5 := by
  refine wrong_order_misses (by decide) (by decide) fun p hp => ?_
  have hp : p ≠ 4 := hp
  obtain hlow | hhigh : p < 4 ∨ 5 ≤ p := by omega
  · interval_cases p <;> rfl
  · rcases p with _ | _ | _ | _ | _ | p <;> first | omega | rfl

/-! ## What is mixed -/

/-- `mix`, backwards. -/
def unmix (s : Abc) : Abc :=
  let b := s.b - s.a
  let c := (s.c ^^^ rot b 4) + b
  let a := s.a - c
  let b := (b ^^^ rot a 19) + a
  let c := c - b
  let a := (a ^^^ rot c 16) + c
  let b := b - a
  let c := (c ^^^ rot b 8) + b
  let a := a - c
  let b := (b ^^^ rot a 6) + a
  let c := c - b
  let a := (a ^^^ rot c 4) + c
  ⟨a, b, c⟩

/-- "any information in (a,b,c) before mix() is still in (a,b,c) after mix()" -/
theorem unmix_mix : unmix (mix s) = s := by
  simp [mix, unmix]

theorem mix_inj {s t : Abc} (h : mix s = mix t) : s = t := by
  rw [← @unmix_mix s, h, unmix_mix]

theorem add_padded_inj {s t : Abc} (h : add_padded build mem p n s = add_padded build mem p n t) : s = t := by
  obtain ⟨a, b, c⟩ := s
  obtain ⟨a', b', c'⟩ := t
  obtain ⟨ha, hb, hc⟩ := Abc.mk.inj h
  simp only [UInt32.add_left_inj] at ha hb hc
  rw [ha, hb, hc]

/-- The words of up to 12 bytes tell them apart. -/
theorem add_padded_bytes (hn : n ≤ 12) (h : add_padded build mem p n s = add_padded build mem' p' n s) (hi : i < n) :
    mem (p + i) = mem' (p' + i) := by
  obtain ⟨ha, hb, hc⟩ := Abc.mk.inj h
  simp only [UInt32.add_right_inj] at ha hb hc
  have hword : padded build mem p n (i / 4) = padded build mem' p' n (i / 4) := by
    obtain hj | hj | hj : i / 4 = 0 ∨ i / 4 = 1 ∨ i / 4 = 2 := by omega
    · rw [hj]
      exact ha
    · rw [hj]
      exact hb
    · rw [hj]
      exact hc
  obtain ⟨h₀, h₁, h₂, h₃⟩ := word_inj hword
  obtain hr | hr | hr | hr : i % 4 = 0 ∨ i % 4 = 1 ∨ i % 4 = 2 ∨ i % 4 = 3 := by omega
  · have hplace : 4 * (i / 4) + 0 = i := by omega
    simpa only [hplace, if_pos hi] using h₀
  · have hplace : 4 * (i / 4) + 1 = i := by omega
    simpa only [hplace, if_pos hi] using h₁
  · have hplace : 4 * (i / 4) + 2 = i := by omega
    simpa only [hplace, if_pos hi] using h₂
  · have hplace : 4 * (i / 4) + 3 = i := by omega
    simpa only [hplace, if_pos hi] using h₃

/-- The internal state after the last block, from the place `p` on. -/
def mixed (build : ByteOrder) (mem : Nat → UInt8) (fuel p n : Nat) (s : Abc) : Abc :=
  let (k, m, t) := hash_loop (fun p => add_padded build mem p 12) fuel p n s
  add_padded build mem k m t

theorem mixed_more (hn : 12 < n) : mixed build mem (fuel + 1) p n s =
    mixed build mem fuel (p + 12) (n - 12) (mix (add_padded build mem p 12 s)) := by
  simp only [mixed, hash_loop, if_pos hn]

theorem mixed_last (hn : n ≤ 12) : mixed build mem fuel p n s = add_padded build mem p n s := by
  cases fuel <;> simp [mixed, hash_loop, Nat.not_lt.mpr hn]

/-- Over the same bytes, states that differ stay so. -/
theorem mixed_state {s t : Abc} (hfuel : n ≤ fuel) (hsame : ∀ i < n, mem (p + i) = mem' (p' + i))
    (h : mixed build mem fuel p n s = mixed build mem' fuel p' n t) : s = t := by
  induction fuel generalizing p p' n s t with
  | zero =>
      rw [mixed_last (by omega), mixed_last (by omega), ← add_padded_congr hsame] at h
      exact add_padded_inj h
  | succ fuel ih =>
      by_cases hn : 12 < n
      · rw [mixed_more hn, mixed_more hn] at h
        have hmix := mix_inj (ih (by omega) (fun i hi => ?_) h)
        · rw [← add_padded_congr fun i hi => hsame i (by omega)] at hmix
          exact add_padded_inj hmix
        · have hplace := hsame (12 + i) (by omega)
          rwa [← Nat.add_assoc, ← Nat.add_assoc] at hplace
      · rw [mixed_last (by omega), mixed_last (by omega), ← add_padded_congr hsame] at h
        exact add_padded_inj h

/-- Bytes that differ in one block only make states that differ. -/
theorem mixed_bytes {k : Nat} (hfuel : n ≤ fuel) (hsame : ∀ i < n, i / 12 ≠ k → mem (p + i) = mem' (p' + i))
    (h : mixed build mem fuel p n s = mixed build mem' fuel p' n s) (hi : i < n) : mem (p + i) = mem' (p' + i) := by
  induction fuel generalizing p p' n s i k with
  | zero => omega
  | succ fuel ih =>
      by_cases hn : 12 < n
      · rw [mixed_more hn, mixed_more hn] at h
        have hlater : ∀ j < n - 12, (12 + j) / 12 ≠ k → mem (p + 12 + j) = mem' (p' + 12 + j) := fun j hj hk => by
          have hplace := hsame (12 + j) (by omega) hk
          rwa [← Nat.add_assoc, ← Nat.add_assoc] at hplace
        cases k with
        | zero =>
            -- this is the block: what follows is the same
            have hmix := mix_inj (mixed_state (by omega) (fun j hj => hlater j hj (by omega)) h)
            by_cases hblock : i < 12
            · exact add_padded_bytes le_rfl hmix hblock
            · exact hsame i hi (by omega)
        | succ k =>
            have hfirst : ∀ j < 12, mem (p + j) = mem' (p' + j) := fun j hj => hsame j (by omega) (by omega)
            rw [← add_padded_congr hfirst] at h
            by_cases hblock : i < 12
            · exact hfirst i hblock
            · obtain ⟨j, rfl⟩ := Nat.exists_eq_add_of_le (Nat.le_of_not_lt hblock)
              have hnext := ih (k := k) (by omega) (fun j hj hk => hlater j hj (by omega)) h (show j < n - 12 by omega)
              rwa [Nat.add_assoc, Nat.add_assoc] at hnext
      · rw [mixed_last (by omega), mixed_last (by omega)] at h
        exact add_padded_bytes (by omega) h hi

/-- The state of which `final` makes the hash. -/
def before_final (build : ByteOrder) (mem : Nat → UInt8) (key length : Nat) : Abc :=
  let init := 0xdeadbeef + .ofNat length + 0
  mixed build mem length key length ⟨init, init, init⟩

theorem hash_loop_pos (hn : 0 < n) : 0 < (hash_loop block fuel p n s).2.1 := by
  induction fuel generalizing p n s with
  | zero => exact hn
  | succ fuel ih =>
      rw [hash_loop]
      split
      · exact ih (by omega)
      · exact hn

theorem jenkins_hash_final (hpos : 0 < length) :
    jenkins_hash build build mem key length = final (before_final build mem key length) := by
  rw [jenkins_hash_padded]
  simp only [hash_by, before_final, mixed]
  exact if_neg (hash_loop_pos hpos).ne'

/-- The hash is made of a state that tells keys of one length apart, if they differ in one block of 12 bytes only. -/
theorem jenkins_hash_mixes {k : Nat} (hpos : 0 < length) (hsame : ∀ i < length, i / 12 ≠ k → mem (key + i) = mem' (key' + i)) :
    jenkins_hash build build mem key length = final (before_final build mem key length) ∧
      jenkins_hash build build mem' key' length = final (before_final build mem' key' length) ∧
      (before_final build mem key length = before_final build mem' key' length →
        ∀ i < length, mem (key + i) = mem' (key' + i)) :=
  ⟨jenkins_hash_final hpos, jenkins_hash_final hpos, fun h _ hi => mixed_bytes le_rfl hsame h hi⟩

theorem jenkins_hash_mixes_small :
    let mem := fun p => if p = 14 then 1 else 0
    before_final .big mem 0 20 ≠ before_final .big (fun _ => 0) 0 20 := by
  intro mem h
  have hsame : ∀ i < 20, i / 12 ≠ 1 → mem (0 + i) = (fun _ => 0) (0 + i) := by decide
  obtain ⟨-, -, hall⟩ := @jenkins_hash_mixes .big mem (fun _ => 0) 0 0 20 1 (by decide) hsame
  exact absurd (hall h 14 (by decide)) (by decide)

end Memcached.MemoryHash

import Mathlib.Data.UInt

/-!
# Words of four bytes

Which byte of a word is the lowest, and what masks leave of a word.
-/

inductive ByteOrder
  | little
  | big
  deriving DecidableEq

namespace ByteOrder

/-- The word whose bytes are `b₀`, the lowest, to `b₃`. -/
def of_bytes (b₀ b₁ b₂ b₃ : UInt8) : UInt32 :=
  b₀.toUInt32 + (b₁.toUInt32 <<< 8) + (b₂.toUInt32 <<< 16) + (b₃.toUInt32 <<< 24)

/-- The word that is read where `b₀` to `b₃` stand one after another. -/
def word : ByteOrder → UInt8 → UInt8 → UInt8 → UInt8 → UInt32
  | .little, b₀, b₁, b₂, b₃ => of_bytes b₀ b₁ b₂ b₃
  | .big, b₀, b₁, b₂, b₃ => of_bytes b₃ b₂ b₁ b₀

/-- The word of two bytes. -/
def half : ByteOrder → UInt8 → UInt8 → UInt32
  | .little, b₀, b₁ => of_bytes b₀ b₁ 0 0
  | .big, b₀, b₁ => of_bytes b₁ b₀ 0 0

variable {b₀ b₁ b₂ b₃ : UInt8} {x : UInt32}

theorem toNat_of_bytes :
    (of_bytes b₀ b₁ b₂ b₃).toNat = b₀.toNat + b₁.toNat * 2 ^ 8 + b₂.toNat * 2 ^ 16 + b₃.toNat * 2 ^ 24 := by
  have h₀ := b₀.toNat_lt
  have h₁ := b₁.toNat_lt
  have h₂ := b₂.toNat_lt
  have h₃ := b₃.toNat_lt
  simp only [of_bytes, UInt32.toNat_add, UInt32.toNat_shiftLeft, UInt8.toNat_toUInt32, UInt32.reduceToNat, Nat.shiftLeft_eq,
    Nat.reduceMod, Nat.reducePow]
  omega

theorem of_bytes_inj {c₀ c₁ c₂ c₃ : UInt8} (h : of_bytes b₀ b₁ b₂ b₃ = of_bytes c₀ c₁ c₂ c₃) :
    b₀ = c₀ ∧ b₁ = c₁ ∧ b₂ = c₂ ∧ b₃ = c₃ := by
  have heq := congrArg UInt32.toNat h
  rw [toNat_of_bytes, toNat_of_bytes] at heq
  have h₀ := b₀.toNat_lt
  have h₁ := b₁.toNat_lt
  have h₂ := b₂.toNat_lt
  have h₀' := c₀.toNat_lt
  have h₁' := c₁.toNat_lt
  have h₂' := c₂.toNat_lt
  refine ⟨UInt8.toNat_inj.mp ?_, UInt8.toNat_inj.mp ?_, UInt8.toNat_inj.mp ?_, UInt8.toNat_inj.mp ?_⟩ <;> omega

theorem word_inj {o : ByteOrder} {c₀ c₁ c₂ c₃ : UInt8} (h : o.word b₀ b₁ b₂ b₃ = o.word c₀ c₁ c₂ c₃) :
    b₀ = c₀ ∧ b₁ = c₁ ∧ b₂ = c₂ ∧ b₃ = c₃ := by
  cases o with
  | little => exact of_bytes_inj h
  | big =>
      obtain ⟨h₃, h₂, h₁, h₀⟩ := of_bytes_inj h
      exact ⟨h₀, h₁, h₂, h₃⟩

/-! ## Masks -/

theorem toNat_and_low {k : Nat} (hk : k < 32) : (x &&& .ofNat (2 ^ k - 1)).toNat = x.toNat % 2 ^ k := by
  have hlt : 2 ^ k < 2 ^ 32 := Nat.pow_lt_pow_right (by decide) hk
  rw [UInt32.toNat_and, UInt32.toNat_ofNat_of_lt' (by simp [UInt32.size]; omega), Nat.and_two_pow_sub_one_eq_mod]

theorem of_bytes_and_ff : of_bytes b₀ b₁ b₂ b₃ &&& 0xff = of_bytes b₀ 0 0 0 := by
  refine UInt32.toNat_inj.mp ((toNat_and_low (k := 8) (by decide)).trans ?_)
  have h₀ := b₀.toNat_lt
  simp only [toNat_of_bytes, UInt8.toNat_zero]
  omega

theorem of_bytes_and_ffff : of_bytes b₀ b₁ b₂ b₃ &&& 0xffff = of_bytes b₀ b₁ 0 0 := by
  refine UInt32.toNat_inj.mp ((toNat_and_low (k := 16) (by decide)).trans ?_)
  have h₀ := b₀.toNat_lt
  have h₁ := b₁.toNat_lt
  simp only [toNat_of_bytes, UInt8.toNat_zero]
  omega

theorem of_bytes_and_ffffff : of_bytes b₀ b₁ b₂ b₃ &&& 0xffffff = of_bytes b₀ b₁ b₂ 0 := by
  refine UInt32.toNat_inj.mp ((toNat_and_low (k := 24) (by decide)).trans ?_)
  have h₀ := b₀.toNat_lt
  have h₁ := b₁.toNat_lt
  have h₂ := b₂.toNat_lt
  simp only [toNat_of_bytes, UInt8.toNat_zero]
  omega

theorem toNat_and_high {k : Nat} {m : UInt32} (hm : m.toBitVec = BitVec.allOnes 32 <<< k) :
    (x &&& m).toNat = x.toNat / 2 ^ k * 2 ^ k := by
  have hle : x.toNat / 2 ^ k * 2 ^ k ≤ x.toNat := Nat.div_mul_le_self _ _
  rw [← UInt32.toNat_toBitVec, UInt32.toBitVec_and, hm, ← BitVec.shiftLeft_ushiftRight, BitVec.toNat_shiftLeft,
    BitVec.toNat_ushiftRight, Nat.shiftLeft_eq, Nat.shiftRight_eq_div_pow]
  exact Nat.mod_eq_of_lt (hle.trans_lt x.toNat_lt)

theorem of_bytes_and_ff000000 : of_bytes b₀ b₁ b₂ b₃ &&& 0xff000000 = of_bytes 0 0 0 b₃ := by
  refine UInt32.toNat_inj.mp ((toNat_and_high (k := 24) (by decide)).trans ?_)
  have h₀ := b₀.toNat_lt
  have h₁ := b₁.toNat_lt
  have h₂ := b₂.toNat_lt
  simp only [toNat_of_bytes, UInt8.toNat_zero]
  omega

theorem of_bytes_and_ffff0000 : of_bytes b₀ b₁ b₂ b₃ &&& 0xffff0000 = of_bytes 0 0 b₂ b₃ := by
  refine UInt32.toNat_inj.mp ((toNat_and_high (k := 16) (by decide)).trans ?_)
  have h₀ := b₀.toNat_lt
  have h₁ := b₁.toNat_lt
  simp only [toNat_of_bytes, UInt8.toNat_zero]
  omega

theorem of_bytes_and_ffffff00 : of_bytes b₀ b₁ b₂ b₃ &&& 0xffffff00 = of_bytes 0 b₁ b₂ b₃ := by
  refine UInt32.toNat_inj.mp ((toNat_and_high (k := 8) (by decide)).trans ?_)
  have h₀ := b₀.toNat_lt
  simp only [toNat_of_bytes, UInt8.toNat_zero]
  omega

end ByteOrder

import Memcached.Exstore.ConfParse
import Memcached.SlabsCurd.Lemmas.Numbers

/-!
# Which sizes of an external path are parsed right
-/

namespace Memcached.Exstore

open Decimal
open SlabsCurd (isspace sign digit_ne)
open Thread (c_string)

/-! ## Sizes -/

/-- The second token. -/
def size_token (arg : List UInt8) : Option (List UInt8) :=
  (strtok_r 58 arg).bind fun t => (strtok_r 58 t.2).map Prod.fst

/-- The token behind the size. -/
def bucket_token (arg : List UInt8) : Option (List UInt8) :=
  (strtok_r 58 arg).bind fun t => (strtok_r 58 t.2).bind fun t => (strtok_r 44 t.2).map Prod.fst

/-- The bytes of a unit. -/
def unit_bytes (unit : UInt8) : Option Nat :=
  match tolower unit with
  | 109 => some (2 ^ 20)
  | 103 => some (2 ^ 30)
  | 116 => some (2 ^ 40)
  | 112 => some (2 ^ 50)
  | _ => none

/-- A decimal number and a unit. -/
structure Sized (size : List UInt8) (number bytes : Nat) : Prop where
  text : ∃ ds unit m, size = ds ++ [unit] ∧ ds ≠ [] ∧ (∀ d ∈ ds, isdigit d = true) ∧ unit_bytes unit = some m ∧
    number = value ds ∧ bytes = value ds * m

/-- The answer is `NULL`, or the pages are those of a size of at least one page, which is computed without overflow. -/
def Exact (arg : List UInt8) (page_size : UInt32) : Prop :=
  ∃ r, storage_conf_parse arg page_size = some r ∧ ∀ cf ∈ r, ∃ size number bytes,
    size_token arg = some size ∧ Sized size number bytes ∧ bytes < 2 ^ 64 ∧ page_size.toNat ≤ bytes ∧
      cf.page_count.toNat = bytes / page_size.toNat

/-- There is no size; or the bucket is not the default one, and the number in front of it is an `int`; or the size is at
least one page, and the number, the bytes and the pages are an `int`, a 64-bit and a 32-bit number. -/
def Accepted (arg : List UInt8) (page_size : UInt32) : Prop :=
  size_token arg = none ∨
    (∃ size ∈ size_token arg, (atoi size.dropLast).isSome) ∧ (∃ bucket ∈ bucket_token arg, bucket ≠ c_string "default") ∨
    ∃ size number bytes, size_token arg = some size ∧ Sized size number bytes ∧ number < 2 ^ 31 ∧ bytes < 2 ^ 64 ∧
      page_size.toNat ≤ bytes ∧ bytes / page_size.toNat < 2 ^ 32

section
variable {arg ds size : List UInt8} {page_size : UInt32} {unit : UInt8} {m number bytes : Nat}

/-! ## Numbers -/

theorem atoi_digits (hds : ∀ d ∈ ds, isdigit d = true) (hne : ds ≠ []) :
    atoi ds = if value ds < 2 ^ 31 then some (.ofInt (value ds)) else none := by
  obtain ⟨d, ds', rfl⟩ := List.exists_cons_of_ne_nil hne
  obtain ⟨-, hplus, hminus, hspace⟩ := digit_ne (hds d (by simp))
  have hsign : sign (d :: ds') = (false, d :: ds') := by
    simp only [sign]
    split
    · next heq => exact absurd (List.cons.inj heq).1 hminus
    · next heq => exact absurd (List.cons.inj heq).1 hplus
    · rfl
  have htake : (d :: ds').takeWhile isdigit = d :: ds' := List.takeWhile_eq_self_iff.mpr hds
  rw [atoi, List.dropWhile_cons, if_neg (by simp [hspace])]
  simp only [hsign, htake, Bool.false_eq_true, if_false]
  by_cases hlt : value (d :: ds') < 2 ^ 31
  · rw [if_pos hlt, if_pos (by omega)]
  · rw [if_neg hlt, if_neg (by omega)]

theorem unit_multiplier_toNat : (unit_multiplier (tolower unit)).toNat = (unit_bytes unit).getD 0 := by
  rw [unit_bytes, unit_multiplier]
  generalize tolower unit = u
  split
  · next h => subst h; rfl
  split
  · next h => subst h; rfl
  split
  · next h => subst h; rfl
  split
  · next h => subst h; rfl
  split <;> first | contradiction | rfl

/-- What an `int` that is not negative is as a `uint64_t`. -/
theorem int_toUInt64 (h : number < 2 ^ 31) : (Int32.ofInt number).toInt64.toUInt64.toNat = number := by
  have hint : (Int32.ofInt number).toInt64.toInt = number := by
    rw [Int32.toInt_toInt64, Int32.toInt_ofInt_of_le (by omega) (by omega)]
  have hlt := (Int32.ofInt number).toInt64.toBitVec.isLt
  rw [← Int64.toInt_toBitVec, BitVec.toInt_eq_toNat_cond] at hint
  rw [← UInt64.toNat_toBitVec, Int64.toBitVec_toUInt64]
  split at hint <;> omega

/-- The assertion holds for any product. -/
theorem page_count_le (multiplier : UInt64) (page_size : UInt32) :
    (page_size * (multiplier / page_size.toUInt64).toUInt32).toUInt64 ≤ multiplier := by
  rw [UInt64.le_iff_toNat_le, UInt32.toNat_toUInt64, UInt32.toNat_mul, UInt64.toNat_toUInt32, UInt64.toNat_div,
    UInt32.toNat_toUInt64]
  calc page_size.toNat * (multiplier.toNat / page_size.toNat % 2 ^ 32) % 2 ^ 32
      ≤ page_size.toNat * (multiplier.toNat / page_size.toNat % 2 ^ 32) := Nat.mod_le ..
    _ ≤ page_size.toNat * (multiplier.toNat / page_size.toNat) := Nat.mul_le_mul_left _ (Nat.mod_le ..)
    _ ≤ multiplier.toNat := Nat.mul_div_le ..

/-! ## Parsing -/

theorem named_bucket_default {p : List UInt8} : named_bucket p = some PAGE_BUCKET_DEFAULT ↔ p = c_string "default" := by
  simp only [named_bucket]
  split
  · next h => subst h; decide
  split
  · next h => subst h; decide
  split
  · next h => subst h; decide
  split
  · next h => simp [h]
  · next h => simp [h]

/-- The pages of a size with the number `base_size`. -/
def pages (size : List UInt8) (base_size : Int32) (page_size : UInt32) : UInt32 :=
  (unit_multiplier (tolower (size.getLast?.getD 0)) * base_size.toInt64.toUInt64 / page_size.toUInt64).toUInt32

/-- What is parsed, by the tokens. -/
theorem storage_conf_parse_eq (arg : List UInt8) (h : page_size ≠ 0) : ∃ file, storage_conf_parse arg page_size =
    match size_token arg with
    | none => some none
    | some size => (atoi size.dropLast).map fun base_size =>
        bif (bucket_token arg).all (· = c_string "default") then
          some ⟨file, pages size base_size page_size, PAGE_BUCKET_DEFAULT⟩
        else none := by
  rw [storage_conf_parse, size_token, bucket_token]
  cases strtok_r 58 arg with
  | none => exact ⟨[], rfl⟩
  | some t =>
      obtain ⟨file, b⟩ := t
      refine ⟨file, ?_⟩
      simp only [Option.bind_some]
      cases strtok_r 58 b with
      | none => rfl
      | some t =>
          obtain ⟨p, b⟩ := t
          simp only [Option.bind_some, Option.map_some]
          cases atoi p.dropLast with
          | none => rfl
          | some base_size =>
              simp only [h, if_false, page_count_le, if_true, Option.map_some, conf_bucket]
              cases strtok_r 44 b with
              | none => simp [pages]
              | some t =>
                  simp only [Option.map_some, Option.all_some, ← named_bucket_default]
                  cases named_bucket t.1 with
                  | none => simp
                  | some free_bucket =>
                      by_cases hdefault : free_bucket = PAGE_BUCKET_DEFAULT
                      · simp [hdefault, pages]
                      · simp [hdefault]

theorem Sized.size_eq (h : Sized size number bytes) (hbytes : bytes < 2 ^ 64) (hnumber : number < 2 ^ 31) (page_size : UInt32) :
    ∃ base_size, atoi size.dropLast = some base_size ∧
      (pages size base_size page_size).toNat = bytes / page_size.toNat % 2 ^ 32 := by
  obtain ⟨ds, unit, m, rfl, hne, hds, hunit, rfl, rfl⟩ := h.text
  refine ⟨.ofInt (value ds), ?_, ?_⟩
  · rw [List.dropLast_concat, atoi_digits hds hne, if_pos hnumber]
  · rw [pages, UInt64.toNat_toUInt32, UInt64.toNat_div, UInt32.toNat_toUInt64, UInt64.toNat_mul, int_toUInt64 hnumber]
    rw [List.getLast?_concat, Option.getD_some, unit_multiplier_toNat, hunit, Option.getD_some, Nat.mul_comm m,
      Nat.mod_eq_of_lt hbytes]

theorem Sized.number_lt (h : Sized size number bytes) (hint : (atoi size.dropLast).isSome) : number < 2 ^ 31 := by
  obtain ⟨ds, unit, m, rfl, hne, hds, -, rfl, -⟩ := h.text
  rw [List.dropLast_concat, atoi_digits hds hne] at hint
  split at hint
  · next hlt => exact hlt
  · cases hint

/-! ## Exactly the sizes that are parsed right -/

theorem storage_conf_parse_exact_iff (h : 0 < page_size.toNat) : Exact arg page_size ↔ Accepted arg page_size := by
  have hne : page_size ≠ 0 := fun heq => by simp [heq] at h
  obtain ⟨file, heq⟩ := storage_conf_parse_eq arg hne
  rw [Exact, heq, Accepted]
  cases hsize : size_token arg with
  | none => simp
  | some size =>
      simp only [reduceCtorEq, false_or, Option.mem_some_iff, exists_eq_left', Option.some.injEq, Option.map_eq_some_iff]
      constructor
      · rintro ⟨r, ⟨base_size, hatoi, rfl⟩, hexact⟩
        by_cases hdefault : (bucket_token arg).all (· = c_string "default") = true
        · rw [hdefault, cond_true] at hexact
          obtain ⟨size', number, bytes, rfl, hsized, hbytes, hpage, hpages⟩ := hexact _ rfl
          have hnumber := hsized.number_lt (by simp [hatoi])
          exact .inr ⟨size, number, bytes, rfl, hsized, hnumber, hbytes, hpage, hpages ▸ UInt32.toNat_lt _⟩
        · cases hbucket : bucket_token arg with
          | none => simp [hbucket] at hdefault
          | some bucket => exact .inl ⟨by simp [hatoi], bucket, rfl, by simpa [hbucket] using hdefault⟩
      · rintro (⟨hint, bucket, hbucket, hother⟩ | ⟨size', number, bytes, rfl, hsized, hnumber, hbytes, hpage, hquot⟩)
        · obtain ⟨base_size, hatoi⟩ := Option.isSome_iff_exists.mp hint
          exact ⟨none, ⟨base_size, hatoi, by simp [Option.mem_def.mp hbucket, hother]⟩, by simp⟩
        · obtain ⟨base_size, hatoi, hpages⟩ := hsized.size_eq hbytes hnumber page_size
          refine ⟨_, ⟨base_size, hatoi, rfl⟩, fun cf hcf => ⟨size, number, bytes, rfl, hsized, hbytes, hpage, ?_⟩⟩
          cases hdefault : (bucket_token arg).all (· = c_string "default") with
          | false =>
              rw [hdefault] at hcf
              cases hcf
          | true =>
              rw [hdefault] at hcf
              obtain rfl := Option.some.inj hcf
              rw [hpages, Nat.mod_eq_of_lt hquot]

end

theorem storage_conf_parse_exact_iff_witness : 0 < (67108864 : UInt32).toNat ∧ Exact (c_string "/f:64G:default") 67108864 := by
  refine ⟨by decide, (storage_conf_parse_exact_iff (by decide)).mpr (.inr (.inr ?_))⟩
  refine ⟨c_string "64G", 64, 64 * 2 ^ 30, by decide +kernel, ⟨c_string "64", 71, 2 ^ 30, ?_⟩, ?_⟩
  · exact ⟨by decide, by decide, List.all_eq_true.mp (by decide), by decide, by decide, by decide⟩
  · decide

/-- A size without a unit is taken, with no pages. -/
theorem no_unit : ¬ Exact (c_string "/f:64") 67108864 := by
  rintro ⟨r, hr, hexact⟩
  have hparse : storage_conf_parse (c_string "/f:64") 67108864 = some (some ⟨c_string "/f", 0, PAGE_BUCKET_DEFAULT⟩) := by
    decide +kernel
  obtain rfl := Option.some.inj (hparse.symm.trans hr)
  obtain ⟨size, number, bytes, -, -, -, hpage, hpages⟩ := hexact _ rfl
  exact absurd hpages (Nat.ne_of_lt (Nat.div_pos hpage (by decide)))

end Memcached.Exstore

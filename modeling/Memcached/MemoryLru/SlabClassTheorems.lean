import Mathlib.Tactic.Linarith
import Memcached.MemoryLru.SlabClasses

/-!
# The table of slab classes

The sizes of the classes grow if the first does by at least one byte, before it is aligned, and stay below the largest if
alignment does not take one there. `slabs_clsid` finds the smallest class that will do, whatever the table.
-/

namespace Memcached.MemoryLru

/-- The table as it is meant to be, for classes below the last. -/
structure SlabClasses.Sound (t : SlabClasses) (settings : ClassSettings) : Prop where
  aligned : ∀ i, POWER_SMALLEST ≤ i → i < t.power_largest → CHUNK_ALIGN_BYTES ∣ t.size i
  increasing : ∀ i j, POWER_SMALLEST ≤ i → i < j → j < t.power_largest → t.size i < t.size j
  below : ∀ i, POWER_SMALLEST ≤ i → i < t.power_largest → t.size i < settings.slab_chunk_size_max
  perslab : ∀ i, POWER_SMALLEST ≤ i → i ≤ t.power_largest → 1 ≤ t.perslab i ∧ t.perslab i * t.size i ≤ settings.slab_page_size

/-- `slabs_clsid` finds the smallest class for every size. -/
def SlabClasses.Lookup (t : SlabClasses) (settings : ClassSettings) : Prop :=
  ∀ size, (settings.slabs_clsid t size = 0 ↔ size = 0 ∨ size > settings.item_size_max) ∧
    (settings.slabs_clsid t size ≠ 0 →
      settings.slabs_clsid t size ≤ t.power_largest ∧
      (size ≤ t.size (settings.slabs_clsid t size) ∨ settings.slabs_clsid t size = t.power_largest) ∧
      ∀ i, POWER_SMALLEST ≤ i → i < settings.slabs_clsid t size → t.size i < size)

namespace ClassSettings

variable {settings : ClassSettings} {t : SlabClasses} {size n a b : Nat} {sizes : List Nat}

/-! ## Alignment -/

theorem align_eq : align size = (size + 7) / 8 * 8 := by
  rw [align, CHUNK_ALIGN_BYTES]
  split_ifs <;> omega

theorem dvd_align : CHUNK_ALIGN_BYTES ∣ align size := ⟨(size + 7) / 8, by rw [align_eq, CHUNK_ALIGN_BYTES, Nat.mul_comm]⟩

theorem le_align : size ≤ align size := by rw [align_eq]; omega

/-- The largest size there may be below the largest. -/
def last_aligned (settings : ClassSettings) : Nat := (settings.slab_chunk_size_max - 1) / CHUNK_ALIGN_BYTES * CHUNK_ALIGN_BYTES

theorem align_lt_iff (hmax : 0 < settings.slab_chunk_size_max) :
    align size < settings.slab_chunk_size_max ↔ size ≤ settings.last_aligned := by
  rw [align_eq, last_aligned, CHUNK_ALIGN_BYTES]
  omega

theorem align_le (h : size ≤ settings.last_aligned) : align size ≤ settings.last_aligned := by
  rw [align_eq]
  rw [last_aligned, CHUNK_ALIGN_BYTES] at h ⊢
  omega

/-! ## Growth -/

theorem le_floor (hf : 1 < settings.factor) : a ≤ ⌊a * settings.factor⌋₊ := by
  have ha : (0 : ℚ) ≤ a := Nat.cast_nonneg a
  exact Nat.le_floor (by nlinarith)

/-- What is larger grows by more. -/
theorem grows_mono (hf : 1 < settings.factor) (hgrows : (a + 1 : ℚ) ≤ a * settings.factor) (hab : a ≤ b) :
    (b + 1 : ℚ) ≤ b * settings.factor := by
  have hab' : (a : ℚ) ≤ b := Nat.cast_le.mpr hab
  nlinarith

theorem lt_floor (hgrows : (a + 1 : ℚ) ≤ a * settings.factor) : a < ⌊a * settings.factor⌋₊ :=
  Nat.le_floor (by push_cast; exact hgrows)

/-- The classes go on. -/
def Below (settings : ClassSettings) (size : Nat) : Prop := size * settings.factor < settings.slab_chunk_size_max

theorem not_ge_iff (hf : 1 < settings.factor) :
    ¬ (size : ℚ) ≥ settings.slab_chunk_size_max / settings.factor ↔ settings.Below size := by
  rw [ge_iff_le, not_le, lt_div_iff₀ (by linarith), Below]

/-- A round of the loop. -/
theorem classes_succ (hf : 1 < settings.factor) (h : settings.classes (n + 1) size = some sizes) :
    ¬ settings.Below size ∧ sizes = [] ∨
    settings.Below size ∧ ∃ rest, sizes = align size :: rest ∧ 0 < align size ∧
      settings.classes n ⌊align size * settings.factor⌋₊ = some rest := by
  rw [classes] at h
  split at h
  · next hge =>
    exact .inl ⟨fun hb => (not_ge_iff hf).mpr hb hge, (Option.some.inj h).symm⟩
  · next hlt =>
    dsimp only at h
    split at h
    · cases h
    · next hok =>
      obtain ⟨rest, hrest, rfl⟩ := Option.map_eq_some_iff.mp h
      exact .inr ⟨(not_ge_iff hf).mp hlt, rest, rfl, Nat.pos_of_ne_zero fun h0 => hok (.inl h0), hrest⟩

theorem classes_aligned (hf : 1 < settings.factor) (h : settings.classes n size = some sizes) :
    ∀ s ∈ sizes, CHUNK_ALIGN_BYTES ∣ s := by
  induction n generalizing size sizes with
  | zero =>
      obtain rfl := Option.some.inj h
      exact nofun
  | succ n ih =>
      rcases classes_succ hf h with ⟨-, rfl⟩ | ⟨-, rest, rfl, -, hrest⟩
      · exact nofun
      · exact List.forall_mem_cons.mpr ⟨dvd_align, ih hrest⟩

theorem classes_pos (hf : 1 < settings.factor) (h : settings.classes n size = some sizes) : ∀ s ∈ sizes, 0 < s := by
  induction n generalizing size sizes with
  | zero =>
      obtain rfl := Option.some.inj h
      exact nofun
  | succ n ih =>
      rcases classes_succ hf h with ⟨-, rfl⟩ | ⟨-, rest, rfl, hpos, hrest⟩
      · exact nofun
      · exact List.forall_mem_cons.mpr ⟨hpos, ih hrest⟩

/-- No class is smaller than the first. -/
theorem classes_ge (hf : 1 < settings.factor) (h : settings.classes n size = some sizes) : ∀ s ∈ sizes, size ≤ s := by
  induction n generalizing size sizes with
  | zero =>
      obtain rfl := Option.some.inj h
      exact nofun
  | succ n ih =>
      rcases classes_succ hf h with ⟨-, rfl⟩ | ⟨-, rest, rfl, -, hrest⟩
      · exact nofun
      · refine List.forall_mem_cons.mpr ⟨le_align, fun s hs => ?_⟩
        exact le_align.trans ((le_floor hf).trans (ih hrest s hs))

/-- The classes grow, once the first does. -/
theorem classes_increasing (hf : 1 < settings.factor) (hgrows : (a + 1 : ℚ) ≤ a * settings.factor) (ha : a ≤ align size)
    (h : settings.classes n size = some sizes) : sizes.Pairwise (· < ·) := by
  induction n generalizing size sizes with
  | zero =>
      obtain rfl := Option.some.inj h
      exact .nil
  | succ n ih =>
      rcases classes_succ hf h with ⟨-, rfl⟩ | ⟨-, rest, rfl, -, hrest⟩
      · exact .nil
      · have hlt : align size < ⌊align size * settings.factor⌋₊ := lt_floor (grows_mono hf hgrows ha)
        refine .cons (fun s hs => hlt.trans_le (classes_ge hf hrest s hs)) (ih ?_ hrest)
        exact ha.trans (hlt.le.trans le_align)

/-! ## The largest size -/

/-- A factor that leaves no room between the last aligned size and the largest. -/
theorem classes_below_of_large (hf : 1 < settings.factor) (hmax : 0 < settings.slab_chunk_size_max)
    (hlarge : (settings.slab_chunk_size_max : ℚ) ≤ (settings.last_aligned + 1) * settings.factor)
    (h : settings.classes n size = some sizes) : ∀ s ∈ sizes, s < settings.slab_chunk_size_max := by
  induction n generalizing size sizes with
  | zero =>
      obtain rfl := Option.some.inj h
      exact nofun
  | succ n ih =>
      rcases classes_succ hf h with ⟨-, rfl⟩ | ⟨hbelow, rest, rfl, -, hrest⟩
      · exact nofun
      · refine List.forall_mem_cons.mpr ⟨(align_lt_iff hmax).mpr ?_, ih hrest⟩
        by_contra hgt
        have hge : (settings.last_aligned + 1 : ℚ) ≤ size := by exact_mod_cast Nat.lt_of_not_le hgt
        have hle : (settings.last_aligned + 1) * settings.factor ≤ size * settings.factor := by nlinarith
        exact absurd hbelow (not_lt.mpr (hlarge.trans hle))

/-- A factor so small that a class is the next multiple of 8 after the last, as long as it is in bounds. -/
theorem align_floor (hsmall : (settings.last_aligned + 1) * settings.factor < settings.slab_chunk_size_max)
    (hgrows : (a + 1 : ℚ) ≤ a * settings.factor) (ha : a ≤ settings.last_aligned) (hdvd : CHUNK_ALIGN_BYTES ∣ a) :
    align ⌊a * settings.factor⌋₊ = a + 8 := by
  have hmax : (settings.slab_chunk_size_max : ℚ) ≤ settings.last_aligned + 8 := by
    have hle : settings.slab_chunk_size_max ≤ settings.last_aligned + 8 := by
      rw [last_aligned, CHUNK_ALIGN_BYTES]
      omega
    exact_mod_cast hle
  have hle : (a : ℚ) ≤ settings.last_aligned := by exact_mod_cast ha
  have hlt : ⌊a * settings.factor⌋₊ < a + 7 := by
    rw [Nat.floor_lt (by nlinarith)]
    push_cast
    nlinarith
  have hgt := lt_floor hgrows
  obtain ⟨k, rfl⟩ := hdvd
  rw [align_eq]
  simp only [CHUNK_ALIGN_BYTES] at hgt hlt ⊢
  omega

/-- Then the classes reach the last aligned size, if there are classes enough, and the next would go too far. -/
theorem classes_below_of_small (hf : 1 < settings.factor) (hmax : 0 < settings.slab_chunk_size_max)
    (hsmall : (settings.last_aligned + 1) * settings.factor < settings.slab_chunk_size_max) (hsize : size ≤ settings.last_aligned)
    (hgrows : (align size + 1 : ℚ) ≤ align size * settings.factor) (h : settings.classes n size = some sizes) :
    (∀ s ∈ sizes, s < settings.slab_chunk_size_max) ↔
      ((settings.last_aligned - align size) / CHUNK_ALIGN_BYTES + 2 ≤ n →
        (settings.slab_chunk_size_max : ℚ) ≤ ⌊settings.last_aligned * settings.factor⌋₊ * settings.factor) := by
  induction n generalizing size sizes with
  | zero =>
      obtain rfl := Option.some.inj h
      simp
  | succ n ih =>
      have hle : (size : ℚ) ≤ settings.last_aligned := by exact_mod_cast hsize
      have hbelow : settings.Below size := lt_of_le_of_lt (by nlinarith) hsmall
      have hlt : align size < settings.slab_chunk_size_max := (align_lt_iff hmax).mpr hsize
      rcases classes_succ hf h with ⟨hnot, -⟩ | ⟨-, rest, rfl, -, hrest⟩
      · exact absurd hbelow hnot
      have hlast : align size ≤ settings.last_aligned := align_le hsize
      rw [List.forall_mem_cons, and_iff_right hlt]
      rcases hlast.eq_or_lt with heq | hlt'
      · rw [heq] at hrest hgrows ⊢
        rw [Nat.sub_self, Nat.zero_div, Nat.zero_add]
        cases n with
        | zero =>
            obtain rfl := Option.some.inj hrest
            simp
        | succ n =>
            have htwo : 2 ≤ n + 1 + 1 := by omega
            rcases classes_succ hf hrest with ⟨hnot, rfl⟩ | ⟨hgo, rest', rfl, -⟩
            · exact ⟨fun _ _ => not_lt.mp hnot, fun _ => nofun⟩
            · have hover : ¬ align ⌊settings.last_aligned * settings.factor⌋₊ < settings.slab_chunk_size_max := fun hlt => by
                have hle := (align_lt_iff hmax).mp hlt
                have hgt := lt_floor hgrows
                omega
              exact ⟨fun hall => absurd (hall _ List.mem_cons_self) hover, fun hle => absurd hgo (not_lt.mpr (hle htwo))⟩
      · have hnext := align_floor hsmall hgrows hlast dvd_align
        have hgrows' := grows_mono hf hgrows (Nat.le_add_right (align size) 8)
        have hstep : align size + 8 ≤ settings.last_aligned := by
          obtain ⟨k, hk⟩ : CHUNK_ALIGN_BYTES ∣ align size := dvd_align
          rw [last_aligned, CHUNK_ALIGN_BYTES] at *
          omega
        have hsize' : ⌊align size * settings.factor⌋₊ ≤ settings.last_aligned := by
          have hle : ⌊align size * settings.factor⌋₊ ≤ align ⌊align size * settings.factor⌋₊ := le_align
          omega
        rw [ih hsize' (by rw [hnext]; exact hgrows') hrest, hnext, CHUNK_ALIGN_BYTES]
        have hcount : (settings.last_aligned - (align size + 8)) / 8 + 2 ≤ n ↔
            (settings.last_aligned - align size) / 8 + 2 ≤ n + 1 := by omega
        rw [hcount]

theorem classes_below (hf : 1 < settings.factor) (hmax : 0 < settings.slab_chunk_size_max) (hsize : size ≤ settings.last_aligned)
    (hgrows : (align size + 1 : ℚ) ≤ align size * settings.factor) (h : settings.classes n size = some sizes) :
    (∀ s ∈ sizes, s < settings.slab_chunk_size_max) ↔
      ((settings.last_aligned - align size) / CHUNK_ALIGN_BYTES + 2 ≤ n →
        (settings.slab_chunk_size_max : ℚ) ≤ ⌊settings.last_aligned * settings.factor⌋₊ * settings.factor) := by
  rcases le_or_gt (settings.slab_chunk_size_max : ℚ) ((settings.last_aligned + 1) * settings.factor) with hlarge | hsmall
  · have hnext := lt_floor (grows_mono hf hgrows (align_le hsize))
    have hle : (settings.last_aligned + 1 : ℚ) ≤ ⌊settings.last_aligned * settings.factor⌋₊ := by exact_mod_cast hnext
    have hover : (settings.slab_chunk_size_max : ℚ) ≤ ⌊settings.last_aligned * settings.factor⌋₊ * settings.factor := by nlinarith
    exact iff_of_true (classes_below_of_large hf hmax hlarge h) fun _ => hover
  · exact classes_below_of_small hf hmax hsmall hsize hgrows h

/-! ## The table -/

/-- There is no class but the last, or the first is below the largest size, and, should there be another, it is larger, and
classes that are no more than 8 apart end before the largest size. -/
def Grows (settings : ClassSettings) : Prop :=
  settings.Below settings.first_size →
    settings.first_size ≤ settings.last_aligned ∧
      (settings.Below (align settings.first_size) →
        (align settings.first_size + 1 : ℚ) ≤ align settings.first_size * settings.factor ∧
        ((settings.last_aligned - align settings.first_size) / CHUNK_ALIGN_BYTES + 2 ≤
            MAX_NUMBER_OF_SLAB_CLASSES - 1 - POWER_SMALLEST →
          (settings.slab_chunk_size_max : ℚ) ≤ ⌊settings.last_aligned * settings.factor⌋₊ * settings.factor))

instance : Decidable (settings.Below size) := inferInstanceAs (Decidable ((_ : ℚ) < _))

instance : Decidable settings.Grows := inferInstanceAs (Decidable (_ → _))

theorem align_align : align (align size) = align size := by
  rw [align_eq, align_eq]
  omega

/-- A class that does not grow is there twice. -/
theorem classes_stuck (hf : 1 < settings.factor) (hstuck : ¬ (align size + 1 : ℚ) ≤ align size * settings.factor)
    (hbelow : settings.Below (align size)) (h : settings.classes (n + 1) ⌊align size * settings.factor⌋₊ = some sizes) :
    align size ∈ sizes := by
  have hfloor : ⌊align size * settings.factor⌋₊ = align size := by
    refine le_antisymm (Nat.lt_succ_iff.mp ?_) (le_floor hf)
    rw [Nat.floor_lt (by have : (0 : ℚ) ≤ align size := Nat.cast_nonneg _; nlinarith)]
    push_cast
    exact not_le.mp hstuck
  rw [hfloor] at h
  rcases classes_succ hf h with ⟨hnot, -⟩ | ⟨-, rest, rfl, -⟩
  · exact absurd hbelow hnot
  · rw [align_align]
    exact List.mem_cons_self

theorem classes_grow_iff (hf : 1 < settings.factor) (hmax : 0 < settings.slab_chunk_size_max)
    (h : settings.classes (MAX_NUMBER_OF_SLAB_CLASSES - 1 - POWER_SMALLEST) settings.first_size = some sizes) :
    sizes.Pairwise (· < ·) ∧ (∀ s ∈ sizes, s < settings.slab_chunk_size_max) ↔ settings.Grows := by
  rw [Grows]
  generalize settings.first_size = size at h ⊢
  rcases classes_succ hf h with ⟨hnot, rfl⟩ | ⟨hbelow, rest, rfl, -, hrest⟩
  · exact iff_of_true ⟨.nil, nofun⟩ fun hb => absurd hb hnot
  constructor
  · rintro ⟨hpair, hlt⟩ -
    have hsize := (align_lt_iff hmax).mp (hlt _ List.mem_cons_self)
    refine ⟨hsize, fun hgo => ?_⟩
    have hgrows : (align size + 1 : ℚ) ≤ align size * settings.factor := by
      by_contra hstuck
      exact absurd (List.rel_of_pairwise_cons hpair (classes_stuck hf hstuck hgo hrest)) (lt_irrefl _)
    exact ⟨hgrows, (classes_below hf hmax hsize hgrows h).mp hlt⟩
  · intro hg
    obtain ⟨hsize, hmore⟩ := hg hbelow
    by_cases hgo : settings.Below (align size)
    · obtain ⟨hgrows, hover⟩ := hmore hgo
      exact ⟨classes_increasing hf hgrows le_rfl h, (classes_below hf hmax hsize hgrows h).mpr hover⟩
    · have hend : ¬ settings.Below ⌊align size * settings.factor⌋₊ := fun hb => by
        have hfloor : settings.slab_chunk_size_max ≤ ⌊align size * settings.factor⌋₊ := Nat.le_floor (not_lt.mp hgo)
        have hfloor' : (settings.slab_chunk_size_max : ℚ) ≤ ⌊align size * settings.factor⌋₊ := by exact_mod_cast hfloor
        rw [Below] at hb
        nlinarith
      rcases classes_succ hf hrest with ⟨-, rfl⟩ | ⟨hb, -⟩
      · exact ⟨.cons nofun .nil, List.forall_mem_cons.mpr ⟨(align_lt_iff hmax).mpr hsize, nofun⟩⟩
      · exact absurd hb hend

/-- The loop of `slabs_clsid` stops at the first class that will do. -/
theorem search_spec (size : Nat) {res : Nat} (hn : res + n = t.power_largest + 1) (hpos : 0 < n) :
    res ≤ search t size n res ∧ search t size n res ≤ t.power_largest ∧
      (size ≤ t.size (search t size n res) ∨ search t size n res = t.power_largest) ∧
      ∀ i, res ≤ i → i < search t size n res → t.size i < size := by
  induction n generalizing res with
  | zero => omega
  | succ n ih =>
      rw [search]
      split
      · next hlt =>
        split
        · next hlast => exact ⟨hlast.le, le_rfl, .inr rfl, fun i hi hi' => absurd hi (by omega)⟩
        · next hne =>
          have hn' : res + 1 + n = t.power_largest + 1 := by omega
          obtain ⟨hge, hle, hfits, hsmall⟩ := ih hn' (by omega)
          refine ⟨by omega, hle, hfits, fun i hi hi' => ?_⟩
          rcases hi.eq_or_lt with rfl | hi
          · exact hlt
          · exact hsmall i hi hi'
      · next hge => exact ⟨le_rfl, by omega, .inl (not_lt.mp hge), fun i hi hi' => absurd hi (by omega)⟩

theorem slabs_clsid_lookup (hpos : 0 < t.power_largest) : t.Lookup settings := by
  intro size
  have hn : POWER_SMALLEST + t.power_largest = t.power_largest + 1 := Nat.add_comm ..
  obtain ⟨hge, hle, hfits, hsmall⟩ := search_spec size hn hpos
  rw [slabs_clsid]
  split
  · next hzero => exact ⟨iff_of_true rfl hzero, fun h => absurd rfl h⟩
  · next hok => exact ⟨iff_of_false (Nat.ne_of_gt hge) hok, fun _ => ⟨hle, hfits, hsmall⟩⟩

/-- What `slabs_init` makes of the sizes. -/
theorem slabs_init_sizes (h : settings.slabs_init = some t) : 0 < settings.slab_chunk_size_max ∧
    ∃ sizes, settings.classes (MAX_NUMBER_OF_SLAB_CLASSES - 1 - POWER_SMALLEST) settings.first_size = some sizes ∧
      t.power_largest = sizes.length + 1 ∧ t.size t.power_largest = settings.slab_chunk_size_max ∧
      (∀ i (hi : i < sizes.length), t.size (i + 1) = sizes[i]) ∧ ∀ i, t.perslab i = settings.slab_page_size / t.size i := by
  rw [slabs_init] at h
  split at h
  · cases h
  · next hmax =>
    obtain ⟨sizes, hsizes, rfl⟩ := Option.map_eq_some_iff.mp h
    exact ⟨Nat.pos_of_ne_zero hmax, sizes, hsizes, rfl, by simp, fun i hi => by simp [List.getElem?_append_left hi, hi], fun _ => rfl⟩

theorem sound_iff {sizes : List Nat} (hlen : t.power_largest = sizes.length + 1)
    (hlast : t.size t.power_largest = settings.slab_chunk_size_max) (hmax : 0 < settings.slab_chunk_size_max)
    (hsizes : ∀ i (hi : i < sizes.length), t.size (i + 1) = sizes[i])
    (hper : ∀ i, t.perslab i = settings.slab_page_size / t.size i) (hdvd : ∀ s ∈ sizes, CHUNK_ALIGN_BYTES ∣ s)
    (hpos : ∀ s ∈ sizes, 0 < s) (hpage : settings.slab_chunk_size_max ≤ settings.slab_page_size) :
    t.Sound settings ↔ sizes.Pairwise (· < ·) ∧ ∀ s ∈ sizes, s < settings.slab_chunk_size_max := by
  have hclass {i : Nat} (h1 : POWER_SMALLEST ≤ i) (hi : i < t.power_largest) : ∃ hi' : i - 1 < sizes.length, t.size i = sizes[i - 1] := by
    rw [POWER_SMALLEST] at h1
    obtain ⟨k, rfl⟩ := Nat.exists_eq_add_of_le' h1
    exact ⟨by omega, hsizes k (by omega)⟩
  constructor
  · intro hs
    constructor
    · refine List.pairwise_iff_getElem.mpr fun i j hi hj hij => ?_
      rw [← hsizes i hi, ← hsizes j hj]
      exact hs.increasing _ _ (Nat.le_add_left 1 i) (by omega) (by omega)
    · intro s hs'
      obtain ⟨i, hi, rfl⟩ := List.mem_iff_getElem.mp hs'
      rw [← hsizes i hi]
      exact hs.below _ (Nat.le_add_left 1 i) (by omega)
  · rintro ⟨hpair, hlt⟩
    have hbelow {i : Nat} (h1 : POWER_SMALLEST ≤ i) (hi : i < t.power_largest) : t.size i < settings.slab_chunk_size_max := by
      obtain ⟨hi', hsize⟩ := hclass h1 hi
      exact hsize ▸ hlt _ (List.getElem_mem hi')
    refine ⟨fun i h1 hi => ?_, fun i j h1 hij hj => ?_, fun i => hbelow, fun i h1 hi => ?_⟩
    · obtain ⟨hi', hsize⟩ := hclass h1 hi
      exact hsize ▸ hdvd _ (List.getElem_mem hi')
    · obtain ⟨hi', hsizei⟩ := hclass h1 (by omega)
      obtain ⟨hj', hsizej⟩ := hclass (by omega) hj
      rw [hsizei, hsizej]
      rw [POWER_SMALLEST] at h1
      exact List.pairwise_iff_getElem.mp hpair _ _ hi' hj' (by omega)
    · have hsize : 0 < t.size i ∧ t.size i ≤ settings.slab_chunk_size_max := by
        rcases hi.eq_or_lt with rfl | hi
        · exact ⟨hlast.symm ▸ hmax, hlast.le⟩
        · obtain ⟨hi', hsize⟩ := hclass h1 hi
          exact ⟨hsize ▸ hpos _ (List.getElem_mem hi'), (hbelow h1 hi).le⟩
      rw [hper]
      exact ⟨Nat.div_pos (hsize.2.trans hpage) hsize.1, Nat.div_mul_le_self ..⟩

/-- The table is as it should be if and only if the classes grow. -/
theorem slab_classes_sound_iff (h : settings.slabs_init = some t) (hf : 1 < settings.factor)
    (hdvd : settings.slab_chunk_size_max ∣ settings.slab_page_size) (hpage : 0 < settings.slab_page_size) :
    t.Sound settings ∧ t.Lookup settings ↔ settings.Grows := by
  obtain ⟨hmax, sizes, hsizes, hlen, hlast, hclass, hper⟩ := slabs_init_sizes h
  rw [and_iff_left (slabs_clsid_lookup (by omega)), ← classes_grow_iff hf hmax hsizes]
  exact sound_iff hlen hlast hmax hclass hper (classes_aligned hf hsizes) (classes_pos hf hsizes) (Nat.le_of_dvd hpage hdvd)

/-- The settings memcached begins with. -/
def default_classes : ClassSettings where
  chunk_size := 48
  slab_chunk_size_max := 512 * 1024
  slab_page_size := 1024 * 1024
  item_size_max := 1024 * 1024
  factor := 5 / 4

theorem slab_classes_sound_iff_witness : ∃ t, default_classes.slabs_init = some t ∧
    (t.Sound default_classes ∧ t.Lookup default_classes ↔ default_classes.Grows) ∧ default_classes.Grows := by
  have hinit : default_classes.slabs_init.isSome := by decide +kernel
  obtain ⟨t, ht⟩ := Option.isSome_iff_exists.mp hinit
  exact ⟨t, ht, slab_classes_sound_iff ht (by decide +kernel) (by decide +kernel) (by decide +kernel), by decide +kernel⟩

/-- With a factor of 1.01 every class has chunks of 96 bytes. -/
theorem slab_classes_stuck : ¬ ∀ (settings : ClassSettings) (t : SlabClasses), settings.slabs_init = some t → 1 < settings.factor →
    settings.slab_chunk_size_max ∣ settings.slab_page_size → 0 < settings.slab_page_size →
    t.Sound settings ∧ t.Lookup settings := by
  intro h
  have hsizes : ({ default_classes with factor := 101 / 100 } : ClassSettings).slabs_init.map
      (fun t : SlabClasses => (t.power_largest, t.size 1, t.size 62)) = some (63, 96, 96) := by decide +kernel
  obtain ⟨t, ht, hsize⟩ := Option.map_eq_some_iff.mp hsizes
  simp only [Prod.mk.injEq] at hsize
  obtain ⟨hlast, hfirst, hsecond⟩ := hsize
  have hsound := (h _ t ht (by decide +kernel) (by decide +kernel) (by decide +kernel)).1
  have hlt := hsound.increasing 1 62 le_rfl (by omega) (by omega)
  omega

end ClassSettings
end Memcached.MemoryLru

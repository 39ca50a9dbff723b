import Memcached.MemoryLru.SlabTheorems

/-!
# A page that could not be had

`do_slabs_newslab` gives up at the memory limit, when its list cannot grow, when the block of `-L` is used up, and when
`malloc` fails. The last has been paid for by then: `memory_allocate` counts the bytes before anyone looks at the
answer.
-/

namespace Memcached.MemoryLru.Slabs

variable {s : Slabs} {id : Nat} {env : MallocEnv}

/-- No class, and no memory, is other than it was. A list of pages may have room for more. -/
structure Untouched (s s' : Slabs) : Prop where
  sl_curr : ∀ i, (s'.slabclass i).sl_curr = (s.slabclass i).sl_curr
  slabs : ∀ i, (s'.slabclass i).slabs = (s.slabclass i).slabs
  requested : ∀ i, (s'.slabclass i).requested = (s.slabclass i).requested
  pool : s'.slabclass SLAB_GLOBAL_PAGE_POOL = s.slabclass SLAB_GLOBAL_PAGE_POOL
  mem_current : s'.mem_current = s.mem_current
  mem_avail : s'.mem_avail = s.mem_avail
  mem_malloced : s'.mem_malloced = s.mem_malloced

/-- The memory limit refuses a page to class `id`. -/
def limit_refuses (s : Slabs) (id : Nat) : Prop :=
  s.mem_limit ≠ 0 ∧ s.mem_malloced + s.page_len id > s.mem_limit ∧ (s.slabclass id).slabs > 0 ∧
    (s.slabclass SLAB_GLOBAL_PAGE_POOL).slabs = 0

/-! ## The list and the pool -/

theorem decr_ne (n : Nat) : decr n ≠ n := by
  unfold decr
  omega

theorem Untouched.refl (s : Slabs) : Untouched s s where
  sl_curr _ := rfl
  slabs _ := rfl
  requested _ := rfl
  pool := rfl
  mem_current := rfl
  mem_avail := rfl
  mem_malloced := rfl

theorem grow_slab_list_untouched {ok b : Bool} {s' : Slabs} (hid : POWER_SMALLEST ≤ id)
    (h : s.grow_slab_list id ok = (b, s')) : Untouched s s' ∧ s'.mem_base = s.mem_base := by
  have hpool : SLAB_GLOBAL_PAGE_POOL ≠ id := Nat.ne_of_lt hid
  unfold grow_slab_list at h
  dsimp only at h
  split at h
  · split at h <;> obtain ⟨-, rfl⟩ := Prod.mk.inj h
    · refine ⟨⟨fun i => ?_, fun i => ?_, fun i => ?_, ?_, rfl, rfl, rfl⟩, rfl⟩
      case refine_4 => simp [setClass, hpool]
      all_goals
        rcases eq_or_ne i id with rfl | hi
        · simp [setClass]
        · simp [setClass, hi]
    · exact ⟨.refl s, rfl⟩
  · obtain ⟨-, rfl⟩ := Prod.mk.inj h
    exact ⟨.refl s, rfl⟩

theorem Untouched.trans {s₁ s₂ : Slabs} (h : Untouched s s₁) (h' : Untouched s₁ s₂) : Untouched s s₂ where
  sl_curr i := (h'.sl_curr i).trans (h.sl_curr i)
  slabs i := (h'.slabs i).trans (h.slabs i)
  requested i := (h'.requested i).trans (h.requested i)
  pool := h'.pool.trans h.pool
  mem_current := h'.mem_current.trans h.mem_current
  mem_avail := h'.mem_avail.trans h.mem_avail
  mem_malloced := h'.mem_malloced.trans h.mem_malloced

/-- Where the pool gives no page, it had none, or the cell it gave was empty. -/
theorem get_page_none {s' : Slabs} (h : s.get_page_from_global_pool = (none, s')) :
    s'.mem_malloced = s.mem_malloced ∧ s'.mem_base = s.mem_base ∧ s'.mem_avail = s.mem_avail ∧
      ((s.slabclass SLAB_GLOBAL_PAGE_POOL).slabs = 0 ∧ s' = s ∨
        (s.slabclass SLAB_GLOBAL_PAGE_POOL).slabs ≠ 0 ∧
          (s'.slabclass SLAB_GLOBAL_PAGE_POOL).slabs = decr (s.slabclass SLAB_GLOBAL_PAGE_POOL).slabs) := by
  unfold get_page_from_global_pool at h
  dsimp only at h
  split_ifs at h with hlt <;> obtain ⟨-, rfl⟩ := Prod.mk.inj h
  · exact ⟨rfl, rfl, rfl, .inl ⟨Nat.lt_one_iff.mp hlt, rfl⟩⟩
  · exact ⟨rfl, rfl, rfl, .inr ⟨by omega, by simp [setClass]⟩⟩

/-- Where `memory_allocate` has no memory, `malloc` failed and the bytes are counted, or the block has too few left. -/
theorem memory_allocate_none {len : Nat} {malloc : Option Page} {s' : Slabs}
    (h : s.memory_allocate len malloc = (none, s')) :
    s.mem_base = none ∧ s'.slabclass = s.slabclass ∧ s'.mem_malloced = s.mem_malloced + len ∧
        s'.mem_current = s.mem_current ∧ s'.mem_avail = s.mem_avail ∨
      s.mem_base ≠ none ∧ s' = s := by
  unfold memory_allocate at h
  cases hb : s.mem_base with
  | none =>
      rw [hb] at h
      obtain ⟨-, rfl⟩ := Prod.mk.inj h
      exact .inl ⟨rfl, rfl, rfl, rfl, rfl⟩
  | some base =>
      rw [hb] at h
      dsimp only at h
      split at h
      · obtain ⟨-, rfl⟩ := Prod.mk.inj h
        exact .inr ⟨nofun, rfl⟩
      · exact nomatch (Prod.mk.inj h).1

/-! ## The page -/

/-- A call that fails leaves everything alone, unless it was the pool's page or `malloc` it failed for. -/
theorem failed_newslab_untouched_iff (hid : POWER_SMALLEST ≤ id) (h : (s.do_slabs_newslab id env).1 = false) :
    Untouched s (s.do_slabs_newslab id env).2 ↔
      (¬ s.limit_refuses id → (s.grow_slab_list id env.realloc_ok).1 = true →
        (s.slabclass SLAB_GLOBAL_PAGE_POOL).slabs = 0 ∧ (s.mem_base ≠ none ∨ s.page_len id = 0)) := by
  unfold do_slabs_newslab at h ⊢
  dsimp only at h ⊢
  split_ifs at h ⊢ with hlimit
  · exact iff_of_true ⟨fun _ => rfl, fun _ => rfl, fun _ => rfl, rfl, rfl, rfl, rfl⟩ fun hn => absurd hlimit hn
  cases hg : s.grow_slab_list id env.realloc_ok with
  | mk grown s₁ =>
  obtain ⟨hu, hbase⟩ := grow_slab_list_untouched hid hg
  rw [hg] at h
  cases grown with
  | false => exact iff_of_true hu fun _ he => nomatch he
  | true =>
  dsimp only at h ⊢
  cases hp : s₁.get_page_from_global_pool with
  | mk page s₂ =>
  rw [hp] at h
  cases page with
  | some ptr => exact nomatch h
  | none =>
  dsimp only at h ⊢
  obtain ⟨hm, hb, hav, hslabs⟩ := get_page_none hp
  cases ha : s₂.memory_allocate (s.page_len id) env.malloc with
  | mk ptr s₃ =>
  rw [ha] at h
  cases ptr with
  | some ptr => exact nomatch h
  | none =>
  dsimp only
  have hpool := congrArg Slabclass.slabs hu.pool
  constructor
  · intro hu' _ _
    -- the count of the pool tells that no cell was taken, and that of the bytes that none were paid for
    have hcount : (s₃.slabclass SLAB_GLOBAL_PAGE_POOL).slabs = (s₂.slabclass SLAB_GLOBAL_PAGE_POOL).slabs := by
      rcases memory_allocate_none ha with ⟨-, hc, -⟩ | ⟨-, rfl⟩
      · rw [hc]
      · rfl
    have hsame := hu'.slabs SLAB_GLOBAL_PAGE_POOL
    refine ⟨?_, ?_⟩
    · rcases hslabs with ⟨h0, -⟩ | ⟨-, hdecr⟩
      · exact hpool ▸ h0
      · rw [hcount, hdecr, hpool] at hsame
        exact absurd hsame (decr_ne _)
    · rcases memory_allocate_none ha with ⟨-, -, hmal, -⟩ | ⟨hne, -⟩
      · right
        have hmalloced := hu'.mem_malloced
        rw [hmal, hm, hu.mem_malloced] at hmalloced
        omega
      · exact .inl (by rw [← hbase, ← hb]; exact hne)
  · intro hcond
    obtain ⟨h0, hpaid⟩ := hcond hlimit rfl
    have hs₂ : s₂ = s₁ := by
      rcases hslabs with ⟨-, rfl⟩ | ⟨hne, -⟩
      · rfl
      · exact absurd (hpool.trans h0) hne
    subst hs₂
    rcases memory_allocate_none ha with ⟨hnone, hc, hmal, hcur, havail⟩ | ⟨-, rfl⟩
    · have hlen : s.page_len id = 0 := hpaid.resolve_left fun hne => hne (hbase ▸ hnone)
      refine hu.trans ⟨?_, ?_, ?_, ?_, hcur, havail, ?_⟩
      case refine_5 => rw [hmal, hlen, Nat.add_zero]
      all_goals simp [hc]
    · exact hu

theorem failed_newslab_untouched_iff_witness :
    Untouched (small 32 (some 0)) ((small 32 (some 0)).do_slabs_newslab 1 ⟨true, none⟩).2 :=
  (failed_newslab_untouched_iff (by decide) (by decide)).mpr fun _ _ => ⟨by decide, .inl (by decide)⟩

/-- `malloc` fails once, and 64 bytes that no page has are counted for good. -/
theorem failed_malloc_is_counted :
    ((small 4096 none).do_slabs_newslab 1 ⟨true, none⟩).1 = false ∧
      ¬ Untouched (small 4096 none) ((small 4096 none).do_slabs_newslab 1 ⟨true, none⟩).2 :=
  ⟨by decide, fun h => absurd h.mem_malloced (by decide)⟩

end Memcached.MemoryLru.Slabs

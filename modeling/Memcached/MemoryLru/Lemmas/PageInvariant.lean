import Memcached.MemoryLru.Lemmas.Pages

/-!
# The page invariant

`Core s loose` says that every page obtained and not freed is in one list, or in hand (`loose`), and that no
list outgrew its block. Each function keeps it, given that what it appends fits.
-/

namespace Memcached.MemoryLru.Slabs

variable {s s' : Slabs} {loose : Multiset (Option Page)}

structure Core (s : Slabs) (loose : Multiset (Option Page)) : Prop where
  power : s.power_largest < MAX_NUMBER_OF_SLAB_CLASSES
  bytes_pos : ∀ i, POWER_SMALLEST ≤ i → i ≤ s.power_largest → 0 < (s.slabclass i).size * (s.slabclass i).perslab
  fits : ∀ i, (s.slabclass i).slabs ≤ (s.slabclass i).list_size
  block : ∀ i, (s.slabclass i).slab_list.length = (s.slabclass i).list_size
  width : ∀ i, (s.slabclass i).list_size < 2 ^ 32
  tame : s.wild = false
  placed : s.owned + loose + s.freedPages = s.obtainedPages
  nodup : (s.owned + loose).Nodup
  prealloc : s.mem_base ≠ none → s.freed = [] ∧ ∀ e ∈ s.obtained, e.1 < s.mem_current

/-! ## Frames -/

theorem owned_congr (h : s'.slabclass = s.slabclass) : s'.owned = s.owned := by
  unfold owned; rw [h]

theorem owned_erase (s : Slabs) : s.erase.owned = s.owned := by
  unfold owned; rfl

theorem Core.of_erase (he : s'.erase = s.erase) (hs : Core s loose) : Core s' loose := by
  have hse : Core s.erase loose :=
    { hs with placed := by rw [owned_erase]; exact hs.placed, nodup := by rw [owned_erase]; exact hs.nodup }
  rw [← he] at hse
  exact { hse with placed := by rw [← owned_erase]; exact hse.placed,
                   nodup := by rw [← owned_erase]; exact hse.nodup }

/-- Limits, flags and the state of the rebalancer do not matter to `Core`. -/
theorem Core.frame (hs : Core s loose) (hset : s'.power_largest = s.power_largest)
    (hc : s'.slabclass = s.slabclass) (hw : s'.wild = s.wild) (ho : s'.obtained = s.obtained)
    (hf : s'.freed = s.freed) (hb : s'.mem_base = s.mem_base) (hm : s'.mem_current = s.mem_current) :
    Core s' loose where
  power := hset ▸ hs.power
  bytes_pos := by rw [hset, hc]; exact hs.bytes_pos
  fits := hc ▸ hs.fits
  block := hc ▸ hs.block
  width := hc ▸ hs.width
  tame := hw ▸ hs.tame
  placed := by rw [owned_congr hc, freedPages, obtainedPages, hf, ho]; exact hs.placed
  nodup := by rw [owned_congr hc]; exact hs.nodup
  prealloc := by rw [hb, hf, ho, hm]; exact hs.prealloc

/-- A new value for the list of class `id` that owns the same pages plus or minus what is in hand. -/
theorem Core.setClass {loose' : Multiset (Option Page)} (hs : Core s loose) {id : Nat}
    (hid : id < MAX_NUMBER_OF_SLAB_CLASSES) {c : Slabclass} (hsize : c.size = (s.slabclass id).size)
    (hper : c.perslab = (s.slabclass id).perslab) (hfit : c.slabs ≤ c.list_size)
    (hblock : c.slab_list.length = c.list_size) (hwidth : c.list_size < 2 ^ 32)
    (hpages : (c.pages : Multiset (Option Page)) + loose' = (s.slabclass id).pages + loose) :
    Core (s.setClass id c) loose' := by
  have hown : (s.setClass id c).owned + loose' = s.owned + loose := by
    have h := owned_setClass s hid c
    have h2 : (s.setClass id c).owned + loose' + (s.slabclass id).pages =
        s.owned + loose + (s.slabclass id).pages := by
      calc (s.setClass id c).owned + loose' + (s.slabclass id).pages
          = (s.setClass id c).owned + (s.slabclass id).pages + loose' := by abel
        _ = s.owned + (c.pages + loose') := by rw [h]; abel
        _ = s.owned + loose + (s.slabclass id).pages := by rw [hpages]; abel
    exact add_right_cancel h2
  have hupd : ∀ {P : Slabclass → Prop} (i : Nat), (∀ i, P (s.slabclass i)) → P c → P ((s.setClass id c).slabclass i) := by
    intro P i hall hc
    by_cases hi : i = id
    · subst hi; simpa [Slabs.setClass] using hc
    · simpa [Slabs.setClass, hi] using hall i
  exact {
    power := hs.power
    bytes_pos := by
      intro i h1 h2
      by_cases hi : i = id
      · subst hi; simpa [Slabs.setClass, hsize, hper] using hs.bytes_pos i h1 h2
      · simpa [Slabs.setClass, hi] using hs.bytes_pos i h1 h2
    fits := fun i => hupd (P := fun c => c.slabs ≤ c.list_size) i hs.fits hfit
    block := fun i => hupd (P := fun c => c.slab_list.length = c.list_size) i hs.block hblock
    width := fun i => hupd (P := fun c => c.list_size < 2 ^ 32) i hs.width hwidth
    tame := hs.tame
    placed := by rw [hown]; exact hs.placed
    nodup := by rw [hown]; exact hs.nodup
    prealloc := hs.prealloc }

/-! ## Pages in lists are real -/

theorem Core.some_of_mem (hs : Core s loose) {i : Nat} (hi : i < MAX_NUMBER_OF_SLAB_CLASSES) {p : Option Page}
    (hp : p ∈ (s.slabclass i).pages) : ∃ q, p = some q := by
  have hmem : p ∈ s.obtainedPages := by
    rw [← hs.placed, add_assoc]
    exact Multiset.mem_add.mpr (Or.inl (Multiset.mem_of_le (pages_le_owned s hi) (Multiset.mem_coe.mpr hp)))
  obtain ⟨e, _, rfl⟩ := List.mem_map.mp (Multiset.mem_coe.mp hmem)
  exact ⟨e.1, rfl⟩

theorem count_some_fst (l : List (Page × Nat)) (p : Page) :
    ((l.map fun e => some e.1 : List (Option Page)) : Multiset (Option Page)).count (some p) =
      (l.map Prod.fst).count p := by
  have hl : (l.map fun e => some e.1 : List (Option Page)) = (l.map Prod.fst).map some := by simp
  rw [hl, ← Multiset.map_coe, Multiset.count_map_eq_count' _ _ (Option.some_injective _), Multiset.coe_count]

theorem Core.not_mem_of_fresh (hs : Core s loose) {p : Page} (hp : ¬ s.Live p) : some p ∉ s.owned + loose := by
  have h := congrArg (Multiset.count (some p)) hs.placed
  rw [Multiset.count_add, freedPages, obtainedPages, count_some_fst, count_some_fst] at h
  have hle : (s.obtained.map Prod.fst).count p ≤ (s.freed.map Prod.fst).count p := Nat.le_of_not_lt hp
  exact Multiset.count_eq_zero.mp (by omega)

/-! ## The functions on pages -/

theorem pool_lt : SLAB_GLOBAL_PAGE_POOL < MAX_NUMBER_OF_SLAB_CLASSES := by decide

theorem get_page_spec (hs : Core s loose) :
    ((s.slabclass SLAB_GLOBAL_PAGE_POOL).slabs = 0 ∧ s.get_page_from_global_pool = (none, s)) ∨
    ∃ p, 0 < (s.slabclass SLAB_GLOBAL_PAGE_POOL).slabs ∧
      s.get_page_from_global_pool = (some p, s.setClass SLAB_GLOBAL_PAGE_POOL
        { s.slabclass SLAB_GLOBAL_PAGE_POOL with slabs := (s.slabclass SLAB_GLOBAL_PAGE_POOL).slabs - 1 }) ∧
      Core (s.setClass SLAB_GLOBAL_PAGE_POOL
        { s.slabclass SLAB_GLOBAL_PAGE_POOL with slabs := (s.slabclass SLAB_GLOBAL_PAGE_POOL).slabs - 1 })
        (some p ::ₘ loose) := by
  generalize hg : s.slabclass SLAB_GLOBAL_PAGE_POOL = g
  have hfit : g.slabs ≤ g.list_size := hg ▸ hs.fits SLAB_GLOBAL_PAGE_POOL
  have hblock : g.slab_list.length = g.list_size := hg ▸ hs.block SLAB_GLOBAL_PAGE_POOL
  have hwidth : g.list_size < 2 ^ 32 := hg ▸ hs.width SLAB_GLOBAL_PAGE_POOL
  by_cases h0 : g.slabs = 0
  · exact Or.inl ⟨h0, by simp [get_page_from_global_pool, hg, h0]⟩
  · have hlt : g.slabs - 1 < g.slab_list.length := by omega
    have htake : g.pages = g.slab_list.take (g.slabs - 1) ++ [g.slab_list[g.slabs - 1]] := by
      have h := List.take_concat_get' g.slab_list (g.slabs - 1) hlt
      rw [Nat.sub_add_cancel (Nat.pos_of_ne_zero h0)] at h
      rw [Slabclass.pages, h]
    obtain ⟨p, hp⟩ := hs.some_of_mem pool_lt (p := g.slab_list[g.slabs - 1]) (by
      rw [hg, htake]; exact List.mem_append_right _ (List.mem_singleton_self _))
    refine Or.inr ⟨p, by omega, ?_, ?_⟩
    · have hget : g.slab_list.getD (g.slabs - 1) none = some p := by
        rw [List.getD_eq_getElem?_getD, List.getElem?_eq_getElem hlt, hp]; rfl
      simp only [get_page_from_global_pool, hg, hget, decr_of_pos (Nat.pos_of_ne_zero h0) (by omega),
        show ¬ g.slabs < 1 by omega, ↓reduceIte]
    · refine hs.setClass pool_lt (by rw [hg]) (by rw [hg]) (by simp only; omega) hblock hwidth ?_
      rw [hg, htake, hp, ← Multiset.coe_add, Multiset.coe_singleton, add_assoc, Multiset.singleton_add]
      rfl

theorem memory_allocate_frame (s : Slabs) (size : Nat) (malloc : Option Page) :
    (s.memory_allocate size malloc).2.slabclass = s.slabclass ∧
    (s.memory_allocate size malloc).2.power_largest = s.power_largest ∧
    (s.memory_allocate size malloc).2.slab_rebal = s.slab_rebal ∧
    (s.memory_allocate size malloc).2.slab_rebalance_signal = s.slab_rebalance_signal ∧
    (s.memory_allocate size malloc).2.settings = s.settings ∧
    (s.memory_allocate size malloc).2.freed = s.freed ∧
    (s.memory_allocate size malloc).2.mem_base = s.mem_base := by
  unfold memory_allocate
  split
  · exact ⟨rfl, rfl, rfl, rfl, rfl, rfl, rfl⟩
  · split <;> exact ⟨rfl, rfl, rfl, rfl, rfl, rfl, rfl⟩

theorem memory_allocate_core (hs : Core s loose) {size : Nat} (hsize : 0 < size) {malloc : Option Page}
    (hfresh : s.mem_base = none → ∀ p, malloc = some p → ¬ s.Live p) :
    Core (s.memory_allocate size malloc).2 ((s.memory_allocate size malloc).1.elim loose fun p => some p ::ₘ loose) := by
  have hnew : ∀ {p : Page} {n m : Nat} {s' : Slabs}, some p ∉ s.owned + loose → s'.obtained = (p, n) :: s.obtained →
      s'.slabclass = s.slabclass → s'.power_largest = s.power_largest → s'.wild = s.wild → s'.freed = s.freed →
      s'.mem_base = s.mem_base → s'.mem_current = m →
      (s.mem_base ≠ none → s.freed = [] ∧ p < m ∧ s.mem_current ≤ m) → Core s' (some p ::ₘ loose) := by
    intro p n m s' hp ho hc hpow hw hf hb hm hpre
    have hown := owned_congr hc
    exact {
      power := hpow ▸ hs.power
      bytes_pos := by rw [hpow, hc]; exact hs.bytes_pos
      fits := hc ▸ hs.fits
      block := hc ▸ hs.block
      width := hc ▸ hs.width
      tame := hw ▸ hs.tame
      placed := by
        have hob : s'.obtainedPages = some p ::ₘ s.obtainedPages := by
          rw [obtainedPages, ho, List.map_cons, ← Multiset.cons_coe]; rfl
        rw [hob, ← hs.placed, hown, freedPages, hf, Multiset.add_cons, Multiset.cons_add]
        rfl
      nodup := by rw [hown, Multiset.add_cons]; exact Multiset.nodup_cons.mpr ⟨hp, hs.nodup⟩
      prealloc := by
        rw [hb, hf, ho, hm]
        intro hbase
        obtain ⟨h1, h2, h3⟩ := hpre hbase
        refine ⟨h1, fun e he => ?_⟩
        rcases List.mem_cons.mp he with rfl | he
        · exact h2
        · exact Nat.lt_of_lt_of_le ((hs.prealloc hbase).2 e he) h3 }
  unfold memory_allocate
  split
  · rename_i hbase
    cases malloc with
    | none => exact hs.frame rfl rfl rfl rfl rfl rfl rfl
    | some p =>
        exact hnew (hs.not_mem_of_fresh (hfresh hbase p rfl)) rfl rfl rfl rfl rfl rfl rfl (fun h => absurd hbase h)
  · rename_i b hbase
    split
    · exact hs
    · have hpre := hs.prealloc (by rw [hbase]; exact Option.some_ne_none b)
      have hp : ¬ s.Live s.mem_current := by
        have hnot : s.mem_current ∉ s.obtained.map Prod.fst := by
          intro hmem
          obtain ⟨e, he, heq⟩ := List.mem_map.mp hmem
          exact absurd heq (Nat.ne_of_lt (hpre.2 e he))
        rw [Live, List.count_eq_zero.mpr hnot]
        omega
      have hadv : ∀ n, 0 < n → s.mem_base ≠ none →
          s.freed = [] ∧ s.mem_current < s.mem_current + n ∧ s.mem_current ≤ s.mem_current + n :=
        fun n hn _ => ⟨hpre.1, by omega, by omega⟩
      exact hnew (hs.not_mem_of_fresh hp) rfl rfl rfl rfl rfl rfl rfl (hadv _ (by split <;> omega))

/-- Growing keeps the pages; when it reports success there is room for one more. -/
theorem grow_spec (hs : Core s loose) {id : Nat} (hid : id < MAX_NUMBER_OF_SLAB_CLASSES) {ok : Bool}
    (hw : (s.slabclass id).slabs = (s.slabclass id).list_size → ok = true → (s.slabclass id).list_size < 2 ^ 31) :
    Core (s.grow_slab_list id ok).2 loose ∧
    ((s.grow_slab_list id ok).1 = true ↔ (s.slabclass id).slabs ≠ (s.slabclass id).list_size ∨ ok = true) ∧
    ((s.grow_slab_list id ok).1 = true →
      ((s.grow_slab_list id ok).2.slabclass id).slabs < ((s.grow_slab_list id ok).2.slabclass id).list_size) ∧
    ∀ i, ((s.grow_slab_list id ok).2.slabclass i).slabs = (s.slabclass i).slabs ∧
      ((s.grow_slab_list id ok).2.slabclass i).pages = (s.slabclass i).pages ∧
      (i ≠ id → (s.grow_slab_list id ok).2.slabclass i = s.slabclass i) ∧
      ((s.slabclass i).slabs < (s.slabclass i).list_size →
        (s.grow_slab_list id ok).2.slabclass i = s.slabclass i) := by
  have hfit := hs.fits id
  have hblock := hs.block id
  have hwidth := hs.width id
  by_cases hfull : (s.slabclass id).slabs = (s.slabclass id).list_size
  · cases ok with
    | false => simp [grow_slab_list, hfull, hs]
    | true =>
        have hlt := hw hfull rfl
        obtain ⟨n, hgrow, hn1⟩ : ∃ n, s.grow_slab_list id true = (true, s.setClass id { s.slabclass id with
            list_size := n, slab_list := realloc (s.slabclass id).slab_list n }) ∧
            (s.slabclass id).list_size < n ∧ n < 2 ^ 32 := by
          refine ⟨if (s.slabclass id).list_size ≠ 0 then ((s.slabclass id).list_size * 2) % 2 ^ 32 else 16, ?_, ?_⟩
          · simp only [grow_slab_list, if_pos hfull, if_true]
          · split <;> omega
        have hpages : (realloc (s.slabclass id).slab_list n).take (s.slabclass id).slabs =
            (s.slabclass id).slab_list.take (s.slabclass id).slabs :=
          realloc_take (by omega) (by omega)
        rw [hgrow]
        refine ⟨hs.setClass hid rfl rfl (by simp only; omega) (realloc_length _ _) hn1.2 ?_, by simp, ?_, fun i => ?_⟩
        · rw [Slabclass.pages, hpages]; rfl
        · intro _; simp only [Slabs.setClass, Function.update_self]; omega
        · by_cases hi : i = id
          · subst hi
            refine ⟨by simp [Slabs.setClass], by simp [Slabs.setClass, Slabclass.pages, hpages], fun h => absurd rfl h,
              fun h => ?_⟩
            omega
          · simp [Slabs.setClass, hi]
  · have hgrow : s.grow_slab_list id ok = (true, s) := by simp [grow_slab_list, hfull]
    rw [hgrow]
    refine ⟨hs, by simp [hfull], fun _ => by simp only; omega, fun i => by simp⟩

/-- `slab_list[slabs++] = p` inside the block puts the page in hand in the list of class `id`. -/
theorem append_page_core {p : Option Page} (hs : Core s (p ::ₘ loose)) {id : Nat}
    (hid : id < MAX_NUMBER_OF_SLAB_CLASSES) (hroom : (s.slabclass id).slabs < (s.slabclass id).list_size) :
    Core (s.append_page id p) loose := by
  have hlt : (s.slabclass id).slabs < (s.slabclass id).slab_list.length := by rw [hs.block id]; exact hroom
  have hmod : ((s.slabclass id).slabs + 1) % 2 ^ 32 = (s.slabclass id).slabs + 1 :=
    Nat.mod_eq_of_lt (by have := hs.width id; omega)
  have hset : Core (s.setClass id { s.slabclass id with
      slab_list := (s.slabclass id).slab_list.set (s.slabclass id).slabs p
      slabs := ((s.slabclass id).slabs + 1) % 2 ^ 32 }) loose := by
    refine hs.setClass hid rfl rfl (by simp only [hmod]; omega) (by simp only [List.length_set]; exact hs.block id)
      (hs.width id) ?_
    rw [Slabclass.pages, hmod, take_set_self _ hlt, ← Multiset.coe_add, Multiset.coe_singleton, add_assoc,
      Multiset.singleton_add]
    rfl
  exact hset.frame rfl rfl (by simp [append_page, hroom, Slabs.setClass]) rfl rfl rfl rfl

theorem Core.free {p : Page} {n m : Nat} (hs : Core s (some p ::ₘ loose)) (hbase : s.mem_base = none) :
    Core { s with mem_malloced := m, freed := (p, n) :: s.freed } loose where
  power := hs.power
  bytes_pos := hs.bytes_pos
  fits := hs.fits
  block := hs.block
  width := hs.width
  tame := hs.tame
  placed := by
    have hf : ({ s with mem_malloced := m, freed := (p, n) :: s.freed } : Slabs).freedPages = some p ::ₘ s.freedPages := by
      simp only [freedPages, List.map_cons, Multiset.cons_coe]
    have hown : ({ s with mem_malloced := m, freed := (p, n) :: s.freed } : Slabs).owned = s.owned := owned_congr rfl
    rw [hf, hown, Multiset.add_cons, ← Multiset.cons_add, ← Multiset.add_cons]
    exact hs.placed
  nodup := by
    have hown : ({ s with mem_malloced := m, freed := (p, n) :: s.freed } : Slabs).owned = s.owned := owned_congr rfl
    rw [hown]
    have h := hs.nodup
    rw [Multiset.add_cons] at h
    exact (Multiset.nodup_cons.mp h).2
  prealloc := fun h => absurd hbase h

end Memcached.MemoryLru.Slabs

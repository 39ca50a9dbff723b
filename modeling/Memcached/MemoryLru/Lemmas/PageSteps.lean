import Memcached.MemoryLru.Lemmas.PageInvariant

/-!
# Every section keeps the page invariant

`Inv` adds to `Core` what holds of a page that is being moved. The primitives of slabs.c keep it one by one;
the sections are put together from them. A section keeps it if it is `PageSafe`: it leaves the page that is
being moved where it is, and the cell the page goes to free.
-/

namespace Memcached.MemoryLru.Slabs

variable {s s' : Slabs} {loose loose' : Multiset (Option Page)}

/-- A page is being moved: it is still the first of its source, and the list it goes to has a cell for it. -/
structure Moving (s : Slabs) : Prop where
  ne : s.slab_rebal.s_clsid ≠ s.slab_rebal.d_clsid
  head : ∃ p, s.slab_rebal.slab_start = some p ∧
    (s.slabclass s.slab_rebal.s_clsid).pages.head? = some (some p)
  room : (s.slabclass s.slab_rebal.d_clsid).slabs < (s.slabclass s.slab_rebal.d_clsid).list_size

structure Inv (s : Slabs) (loose : Multiset (Option Page)) : Prop where
  core : Core s loose
  src_le : s.slab_rebal.s_clsid ≤ s.power_largest
  dst_le : s.slab_rebal.d_clsid ≤ s.power_largest
  moving : s.slab_rebalance_signal = 2 → Moving s
  idle : s.slab_rebalance_signal ≠ 2 → s.slab_rebal.slab_start = none ∧ s.slab_rebal.done = 0

/-! ## Conditions on a section -/

/-- `list_size * 2` fits an `unsigned int`, should the list be doubled. -/
def GrowSafe (s : Slabs) (id : Nat) (realloc_ok : Bool) : Prop :=
  (s.slabclass id).slabs = (s.slabclass id).list_size → realloc_ok = true → (s.slabclass id).list_size < 2 ^ 31

/-- A page is being moved out of class `id`. -/
def MovingFrom (s : Slabs) (id : Nat) : Prop := s.slab_rebalance_signal = 2 ∧ s.slab_rebal.s_clsid = id

/-- A page is being moved to class `id`. -/
def MovingTo (s : Slabs) (id : Nat) : Prop := s.slab_rebalance_signal = 2 ∧ s.slab_rebal.d_clsid = id

/-- The memory limit stops `do_slabs_newslab` before it touches a list. -/
def Refused (s : Slabs) (id : Nat) : Prop :=
  s.mem_limit ≠ 0 ∧ s.mem_malloced + s.page_len id > s.mem_limit ∧ (s.slabclass id).slabs > 0 ∧
    (s.slabclass SLAB_GLOBAL_PAGE_POOL).slabs = 0

/-- The pool or the C library has a page for class `id`. -/
def PageAvailable (s : Slabs) (id : Nat) (env : MallocEnv) : Prop :=
  0 < (s.slabclass SLAB_GLOBAL_PAGE_POOL).slabs ∨
    match s.mem_base with
    | none => env.malloc ≠ none
    | some _ => s.page_len id ≤ s.mem_avail

/-- `do_slabs_newslab` doubles no list past `unsigned int`, does not take the page that is being moved off the
pool, and does not fill the list that page goes to. -/
def NewslabSafe (s : Slabs) (id : Nat) (env : MallocEnv) : Prop :=
  ¬ s.Refused id →
    s.GrowSafe id env.realloc_ok ∧
    ((s.slabclass id).slabs ≠ (s.slabclass id).list_size ∨ env.realloc_ok = true →
      (s.MovingFrom SLAB_GLOBAL_PAGE_POOL → (s.slabclass SLAB_GLOBAL_PAGE_POOL).slabs ≠ 1) ∧
      (s.PageAvailable id env → s.MovingTo id → (s.slabclass id).slabs + 1 ≠ (s.slabclass id).list_size))

/-- What a section must not do, said of the state before it. -/
def PageSafe (s : Slabs) : Op → Prop
  | .slabs_prefill_global envs =>
      (∀ env ∈ envs, env.realloc_ok = true) ∧ (s.slabclass SLAB_GLOBAL_PAGE_POOL).slabs + envs.length < 2 ^ 31
  | .do_slabs_newslab id env => s.NewslabSafe id env
  | .slabs_alloc _ id flags env =>
      POWER_SMALLEST ≤ id → id ≤ s.power_largest → (s.slabclass id).sl_curr = 0 → flags ≠ SLABS_ALLOC_NO_NEWPAGE →
        s.NewslabSafe id env
  | .slabs_adjust_mem_limit n =>
      s.MovingFrom SLAB_GLOBAL_PAGE_POOL → s.mem_base = none → s.settings.slab_reassign = true →
        s.mem_malloced ≤ n + ((s.slabclass SLAB_GLOBAL_PAGE_POOL).slabs - 1) * s.settings.slab_page_size
  | .slab_rebalance_start realloc_ok => s.GrowSafe s.slab_rebal.d_clsid realloc_ok
  | _ => True

instance (s : Slabs) (id : Nat) (ok : Bool) : Decidable (s.GrowSafe id ok) := inferInstanceAs (Decidable (_ → _ → _))
instance (s : Slabs) (id : Nat) : Decidable (s.MovingFrom id) := inferInstanceAs (Decidable (_ ∧ _))
instance (s : Slabs) (id : Nat) : Decidable (s.MovingTo id) := inferInstanceAs (Decidable (_ ∧ _))
instance (s : Slabs) (id : Nat) : Decidable (s.Refused id) := inferInstanceAs (Decidable (_ ∧ _ ∧ _ ∧ _))

instance (s : Slabs) (id : Nat) (env : MallocEnv) : Decidable (s.PageAvailable id env) :=
  match h : s.mem_base with
  | none => decidable_of_iff (0 < (s.slabclass SLAB_GLOBAL_PAGE_POOL).slabs ∨ env.malloc ≠ none)
      (by unfold PageAvailable; rw [h])
  | some _ => decidable_of_iff (0 < (s.slabclass SLAB_GLOBAL_PAGE_POOL).slabs ∨ s.page_len id ≤ s.mem_avail)
      (by unfold PageAvailable; rw [h])

instance (s : Slabs) (id : Nat) (env : MallocEnv) : Decidable (s.NewslabSafe id env) :=
  inferInstanceAs (Decidable (_ → _ ∧ (_ → (_ → _) ∧ (_ → _ → _))))

instance (s : Slabs) : ∀ op, Decidable (s.PageSafe op)
  | .slabs_prefill_global _ => inferInstanceAs (Decidable ((∀ _ ∈ _, _) ∧ _))
  | .do_slabs_newslab id env => inferInstanceAs (Decidable (s.NewslabSafe id env))
  | .slabs_alloc _ _ _ _ => inferInstanceAs (Decidable (_ → _ → _ → _ → _))
  | .slabs_adjust_mem_limit _ => inferInstanceAs (Decidable (_ → _ → _ → _))
  | .slab_rebalance_start ok => inferInstanceAs (Decidable (s.GrowSafe s.slab_rebal.d_clsid ok))
  | .slabs_free _ _ _ | .slabs_reassign _ _ | .slab_rebalance_move _ | .slab_rebalance_finish => isTrue trivial

/-! ## Primitives -/

theorem erase_fields (he : s'.erase = s.erase) :
    s'.power_largest = s.power_largest ∧ s'.slab_rebal = s.slab_rebal ∧
    s'.slab_rebalance_signal = s.slab_rebalance_signal ∧
    ∀ i, (s'.slabclass i).pages = (s.slabclass i).pages ∧ (s'.slabclass i).slabs = (s.slabclass i).slabs ∧
      (s'.slabclass i).list_size = (s.slabclass i).list_size := by
  simp only [erase, Slabs.mk.injEq] at he
  obtain ⟨-, hcls, -, -, -, hp, -, -, -, hr, hsig, -⟩ := he
  refine ⟨hp, hr, hsig, fun i => ?_⟩
  have hi := congrFun hcls i
  simp only [Slabclass.mk.injEq] at hi
  obtain ⟨-, -, -, hslabs, hlist, hsize, -⟩ := hi
  exact ⟨by rw [Slabclass.pages, Slabclass.pages, hslabs, hlist], hslabs, hsize⟩

/-- `Inv` after a change to page lists that leaves the page being moved, and the cell it goes to, alone. -/
theorem Inv.lists (h : Inv s loose) (hc : Core s' loose') (hr : s'.slab_rebal = s.slab_rebal)
    (hsig : s'.slab_rebalance_signal = s.slab_rebalance_signal) (hp : s'.power_largest = s.power_largest)
    (hhead : ∀ p, s.slab_rebalance_signal = 2 → (s.slabclass s.slab_rebal.s_clsid).pages.head? = some (some p) →
      (s'.slabclass s.slab_rebal.s_clsid).pages.head? = some (some p))
    (hroom : s.slab_rebalance_signal = 2 →
      (s.slabclass s.slab_rebal.d_clsid).slabs < (s.slabclass s.slab_rebal.d_clsid).list_size →
      (s'.slabclass s.slab_rebal.d_clsid).slabs < (s'.slabclass s.slab_rebal.d_clsid).list_size) :
    Inv s' loose' where
  core := hc
  src_le := by rw [hr, hp]; exact h.src_le
  dst_le := by rw [hr, hp]; exact h.dst_le
  moving := by
    intro h2
    rw [hsig] at h2
    obtain ⟨p, hstart, hp⟩ := (h.moving h2).head
    exact { ne := by rw [hr]; exact (h.moving h2).ne
            head := by rw [hr]; exact ⟨p, hstart, hhead p h2 hp⟩
            room := by rw [hr]; exact hroom h2 (h.moving h2).room }
  idle := by rw [hsig, hr]; exact h.idle

/-- Limits, the flag of the limit and the books on memory do not matter to `Inv`. -/
theorem Inv.frame (h : Inv s loose) (hc : Core s' loose') (hr : s'.slab_rebal = s.slab_rebal)
    (hsig : s'.slab_rebalance_signal = s.slab_rebalance_signal) (hp : s'.power_largest = s.power_largest)
    (hcls : s'.slabclass = s.slabclass) : Inv s' loose' :=
  h.lists hc hr hsig hp (fun _ _ hh => by rw [hcls]; exact hh) (fun _ hh => by rw [hcls]; exact hh)

theorem Inv.of_erase (he : s'.erase = s.erase) (h : Inv s loose) : Inv s' loose := by
  obtain ⟨hp, hr, hsig, hcls⟩ := erase_fields he
  refine h.lists (h.core.of_erase he) hr hsig hp (fun _ _ hh => by rw [(hcls _).1]; exact hh)
    (fun _ hh => by rw [(hcls _).2.1, (hcls _).2.2]; exact hh)

theorem Inv.lt_classes (h : Inv s loose) {id : Nat} (hid : id ≤ s.power_largest) : id < MAX_NUMBER_OF_SLAB_CLASSES :=
  Nat.lt_of_le_of_lt hid h.core.power

theorem grow_frame (s : Slabs) (id : Nat) (ok : Bool) :
    (s.grow_slab_list id ok).2.slab_rebal = s.slab_rebal ∧
    (s.grow_slab_list id ok).2.slab_rebalance_signal = s.slab_rebalance_signal ∧
    (s.grow_slab_list id ok).2.power_largest = s.power_largest ∧
    (s.grow_slab_list id ok).2.mem_base = s.mem_base ∧
    (s.grow_slab_list id ok).2.mem_avail = s.mem_avail ∧
    (s.grow_slab_list id ok).2.mem_malloced = s.mem_malloced ∧
    (s.grow_slab_list id ok).2.mem_limit = s.mem_limit ∧
    (s.grow_slab_list id ok).2.settings = s.settings ∧
    (s.grow_slab_list id ok).2.obtained = s.obtained ∧
    (s.grow_slab_list id ok).2.freed = s.freed := by
  unfold grow_slab_list
  dsimp only
  split
  · split <;> simp [setClass]
  · simp

theorem Inv.grow (h : Inv s loose) {id : Nat} (hid : id ≤ s.power_largest) {ok : Bool} (hg : s.GrowSafe id ok) :
    Inv (s.grow_slab_list id ok).2 loose := by
  obtain ⟨hc, _, _, hcls⟩ := grow_spec h.core (h.lt_classes hid) hg
  obtain ⟨hr, hsig, hp, _⟩ := grow_frame s id ok
  refine h.lists hc hr hsig hp (fun p _ hh => ?_) (fun _ hroom => ?_)
  · rw [(hcls _).2.1]; exact hh
  · rw [(hcls _).2.2.2 hroom]; exact hroom

/-- Taking the last page of the pool leaves its first page in place, unless that is the last one. -/
theorem Inv.get_page (h : Inv s loose) (hsafe : s.MovingFrom SLAB_GLOBAL_PAGE_POOL →
      (s.slabclass SLAB_GLOBAL_PAGE_POOL).slabs ≠ 1) :
    ((s.slabclass SLAB_GLOBAL_PAGE_POOL).slabs = 0 ∧ s.get_page_from_global_pool = (none, s)) ∨
    ∃ p, 0 < (s.slabclass SLAB_GLOBAL_PAGE_POOL).slabs ∧
      s.get_page_from_global_pool = (some p, s.setClass SLAB_GLOBAL_PAGE_POOL
        { s.slabclass SLAB_GLOBAL_PAGE_POOL with slabs := (s.slabclass SLAB_GLOBAL_PAGE_POOL).slabs - 1 }) ∧
      Inv (s.setClass SLAB_GLOBAL_PAGE_POOL
        { s.slabclass SLAB_GLOBAL_PAGE_POOL with slabs := (s.slabclass SLAB_GLOBAL_PAGE_POOL).slabs - 1 })
        (some p ::ₘ loose) := by
  rcases get_page_spec h.core with h0 | ⟨p, hpos, heq, hc⟩
  · exact Or.inl h0
  · refine Or.inr ⟨p, hpos, heq, h.lists hc rfl rfl rfl (fun q hsig hh => ?_) (fun _ hroom => ?_)⟩
    · by_cases hsrc : s.slab_rebal.s_clsid = SLAB_GLOBAL_PAGE_POOL
      · rw [hsrc] at hh ⊢
        simp only [setClass, Function.update_self, Slabclass.pages] at hh ⊢
        have hne := hsafe ⟨hsig, hsrc⟩
        obtain ⟨n, hn⟩ : ∃ n, (s.slabclass SLAB_GLOBAL_PAGE_POOL).slabs = n + 2 :=
          ⟨(s.slabclass SLAB_GLOBAL_PAGE_POOL).slabs - 2, by omega⟩
        rw [hn] at hh ⊢
        rw [List.head?_take] at hh ⊢
        simpa using hh
      · simp only [setClass, Function.update_of_ne hsrc]; exact hh
    · by_cases hdst : s.slab_rebal.d_clsid = SLAB_GLOBAL_PAGE_POOL
      · rw [hdst] at hroom ⊢; simp only [setClass, Function.update_self]; omega
      · simp only [setClass, Function.update_of_ne hdst]; exact hroom

/-- A page in hand goes to the end of a list that has a cell for it, and one more if a page is being moved there. -/
theorem Inv.append_page {p : Option Page} (h : Inv s (p ::ₘ loose)) {id : Nat} (hid : id ≤ s.power_largest)
    (hroom : (s.slabclass id).slabs < (s.slabclass id).list_size)
    (hsafe : s.MovingTo id → (s.slabclass id).slabs + 1 ≠ (s.slabclass id).list_size) :
    Inv (s.append_page id p) loose := by
  have hlt : (s.slabclass id).slabs < (s.slabclass id).slab_list.length := by rw [h.core.block id]; exact hroom
  have hmod : ((s.slabclass id).slabs + 1) % 2 ^ 32 = (s.slabclass id).slabs + 1 :=
    Nat.mod_eq_of_lt (by have := h.core.width id; omega)
  refine h.lists (append_page_core h.core (h.lt_classes hid) hroom) rfl rfl rfl (fun q _ hh => ?_) (fun hsig hd => ?_)
  · by_cases hsrc : s.slab_rebal.s_clsid = id
    · rw [hsrc] at hh ⊢
      simp only [Slabs.append_page, setClass, Function.update_self, Slabclass.pages] at hh ⊢
      rw [hmod, take_set_self _ hlt, List.head?_append, hh]
      rfl
    · simp only [Slabs.append_page, setClass, Function.update_of_ne hsrc]; exact hh
  · by_cases hdst : s.slab_rebal.d_clsid = id
    · have hne := hsafe ⟨hsig, hdst⟩
      rw [hdst] at hd ⊢
      simp only [Slabs.append_page, setClass, Function.update_self, hmod]
      omega
    · simp only [Slabs.append_page, setClass, Function.update_of_ne hdst]; exact hd

/-! ## Pages from the C library -/

theorem Inv.memory_allocate (h : Inv s loose) {size : Nat} (hsize : 0 < size) {malloc : Option Page}
    (hfresh : s.mem_base = none → ∀ p, malloc = some p → ¬ s.Live p) :
    Inv (s.memory_allocate size malloc).2
      ((s.memory_allocate size malloc).1.elim loose fun p => some p ::ₘ loose) := by
  obtain ⟨hcls, hp, hr, hsig, _⟩ := memory_allocate_frame s size malloc
  exact h.frame (memory_allocate_core h.core hsize hfresh) hr hsig hp hcls

theorem memory_release_loop_inv (n : Nat) : ∀ {s : Slabs}, Inv s loose → s.mem_base = none →
    (s.MovingFrom SLAB_GLOBAL_PAGE_POOL →
      s.mem_malloced ≤ s.mem_limit +
        ((s.slabclass SLAB_GLOBAL_PAGE_POOL).slabs - 1) * s.settings.slab_page_size) →
    Inv (memory_release_loop n s) loose := by
  induction n with
  | zero => intro s h _ _; exact h
  | succ n ih =>
      intro s h hbase hkeep
      unfold memory_release_loop
      by_cases hover : s.mem_malloced > s.mem_limit
      · rw [if_pos hover]
        have hsafe : s.MovingFrom SLAB_GLOBAL_PAGE_POOL → (s.slabclass SLAB_GLOBAL_PAGE_POOL).slabs ≠ 1 := by
          intro hm h1
          have := hkeep hm
          rw [h1] at this
          omega
        rcases h.get_page hsafe with ⟨_, heq⟩ | ⟨p, hpos, heq, hinv⟩
        · rw [heq]; exact h
        · rw [heq]
          refine ih (hinv.frame (hinv.core.free hbase) rfl rfl rfl rfl) hbase fun hm => ?_
          have hk := hkeep hm
          obtain ⟨k, hk2⟩ : ∃ k, (s.slabclass SLAB_GLOBAL_PAGE_POOL).slabs = k + 2 :=
            ⟨(s.slabclass SLAB_GLOBAL_PAGE_POOL).slabs - 2, by have := hsafe hm; omega⟩
          simp only [setClass, Function.update_self]
          rw [hk2] at hk ⊢
          simp only [Nat.add_one_sub_one] at hk ⊢
          have : (k + 1) * s.settings.slab_page_size = k * s.settings.slab_page_size + s.settings.slab_page_size :=
            Nat.succ_mul _ _
          omega
      · rw [if_neg hover]; exact h

theorem Inv.memory_release (h : Inv s loose) (hkeep : s.MovingFrom SLAB_GLOBAL_PAGE_POOL → s.mem_base = none →
      s.settings.slab_reassign = true → s.mem_malloced ≤ s.mem_limit +
        ((s.slabclass SLAB_GLOBAL_PAGE_POOL).slabs - 1) * s.settings.slab_page_size) :
    Inv s.memory_release loose := by
  unfold Slabs.memory_release
  by_cases hbase : s.mem_base = none
  · cases hr : s.settings.slab_reassign with
    | false => simp [hbase, h]
    | true =>
        simp only [hbase, ne_eq, not_true_eq_false, ↓reduceIte, Bool.not_true, Bool.false_eq_true]
        exact memory_release_loop_inv _ h hbase fun hm => hkeep hm hbase hr
  · rw [if_pos hbase]; exact h

/-! ## New pages -/

theorem Core.page_len_pos (h : Core s loose) {id : Nat} (h1 : POWER_SMALLEST ≤ id) (h2 : id ≤ s.power_largest) :
    0 < s.page_len id := by
  unfold page_len
  split
  · exact s.settings.page_pos
  · exact h.bytes_pos id h1 h2

theorem memory_allocate_some (s : Slabs) (size : Nat) (malloc : Option Page) :
    ((s.memory_allocate size malloc).1 ≠ none ↔
      match s.mem_base with
      | none => malloc ≠ none
      | some _ => size ≤ s.mem_avail) := by
  unfold Slabs.memory_allocate
  cases s.mem_base with
  | none => rfl
  | some b =>
      dsimp only
      by_cases hsize : size > s.mem_avail
      · simp [hsize]
      · simp [hsize, Nat.le_of_not_lt hsize]

theorem do_slabs_newslab_cases (s : Slabs) (id : Nat) (env : MallocEnv) :
    (s.Refused id ∧ (s.do_slabs_newslab id env).2 = { s with mem_limit_reached := true }) ∨
    ¬ s.Refused id ∧ ∃ b t, s.grow_slab_list id env.realloc_ok = (b, t) ∧
      ((b = false ∧ (s.do_slabs_newslab id env).2 = t) ∨
       (b = true ∧ ∃ p u, t.get_page_from_global_pool = (some p, u) ∧
          (s.do_slabs_newslab id env).2 = (u.split_slab_page_into_freelist id).append_page id (some p)) ∨
       (b = true ∧ ∃ t' o u, t.get_page_from_global_pool = (none, t') ∧
          t'.memory_allocate (s.page_len id) env.malloc = (o, u) ∧
          ((o = none ∧ (s.do_slabs_newslab id env).2 = u) ∨
            ∃ p, o = some p ∧
              (s.do_slabs_newslab id env).2 = (u.split_slab_page_into_freelist id).append_page id (some p)))) := by
  by_cases href : s.Refused id
  · exact Or.inl ⟨href, by unfold do_slabs_newslab; exact congrArg Prod.snd (if_pos href)⟩
  · refine Or.inr ⟨href, ?_⟩
    have hgo : s.do_slabs_newslab id env = _ := if_neg href
    obtain ⟨b, t, hg⟩ : ∃ b t, s.grow_slab_list id env.realloc_ok = (b, t) := ⟨_, _, rfl⟩
    refine ⟨b, t, hg, ?_⟩
    rw [hg] at hgo
    cases b with
    | false => exact Or.inl ⟨rfl, by rw [hgo]⟩
    | true =>
        obtain ⟨o, u, hp⟩ : ∃ o u, t.get_page_from_global_pool = (o, u) := ⟨_, _, rfl⟩
        simp only [hp] at hgo
        cases o with
        | some p => exact Or.inr (Or.inl ⟨rfl, p, u, hp, by rw [hgo]⟩)
        | none =>
            obtain ⟨o, v, ha⟩ : ∃ o v, u.memory_allocate (s.page_len id) env.malloc = (o, v) := ⟨_, _, rfl⟩
            simp only [ha] at hgo
            refine Or.inr (Or.inr ⟨rfl, u, o, v, hp, ha, ?_⟩)
            cases o with
            | none => exact Or.inl ⟨rfl, by rw [hgo]⟩
            | some p => exact Or.inr ⟨p, rfl, by rw [hgo]⟩

/-- A page in hand is split into chunks and put in the list of its class. -/
theorem Inv.place {p : Option Page} (h : Inv s (p ::ₘ loose)) {id : Nat} (hid : id ≤ s.power_largest)
    (hroom : (s.slabclass id).slabs < (s.slabclass id).list_size)
    (hsafe : s.MovingTo id → (s.slabclass id).slabs + 1 ≠ (s.slabclass id).list_size) :
    Inv ((s.split_slab_page_into_freelist id).append_page id p) loose := by
  have he := erase_split s id
  obtain ⟨hpl, hrb, hsg, hcls⟩ := erase_fields he
  obtain ⟨_, hslabs, hsize⟩ := hcls id
  refine (h.of_erase he).append_page (hpl ▸ hid) (by rw [hslabs, hsize]; exact hroom) fun hm => ?_
  rw [hslabs, hsize]
  exact hsafe ⟨hsg ▸ hm.1, hrb ▸ hm.2⟩

theorem Inv.do_slabs_newslab (h : Inv s 0) {id : Nat} {env : MallocEnv} (h1 : POWER_SMALLEST ≤ id)
    (h2 : id ≤ s.power_largest) (hfresh : env.Fresh s) (hsafe : s.NewslabSafe id env) :
    Inv (s.do_slabs_newslab id env).2 0 := by
  have hpool : id ≠ SLAB_GLOBAL_PAGE_POOL := Ne.symm (Nat.ne_of_lt h1)
  rcases do_slabs_newslab_cases s id env with ⟨_, heq⟩ | ⟨href, b, t, hgrow, hrest⟩
  · rw [heq]; exact h.frame (h.core.frame rfl rfl rfl rfl rfl rfl rfl) rfl rfl rfl rfl
  obtain ⟨hgs, hpages⟩ := hsafe href
  have hg := h.grow h2 hgs
  obtain ⟨_, hiff, hroom, hcls⟩ := grow_spec h.core (h.lt_classes h2) hgs
  obtain ⟨hr, hsig, hp, hbase, havail, _, _, _, ho, hf⟩ := grow_frame s id env.realloc_ok
  rw [hgrow] at hg hiff hroom hcls hr hsig hp hbase havail ho hf
  have hpoolcls : t.slabclass SLAB_GLOBAL_PAGE_POOL = s.slabclass SLAB_GLOBAL_PAGE_POOL :=
    (hcls SLAB_GLOBAL_PAGE_POOL).2.2.1 (Ne.symm hpool)
  -- the list a page is on its way to has a free cell already, so it is not grown here
  have hkeep : b = true → s.PageAvailable id env → t.MovingTo id →
      (t.slabclass id).slabs + 1 ≠ (t.slabclass id).list_size := by
    intro hb hav hm
    have hm' : s.MovingTo id := ⟨hsig ▸ hm.1, hr ▸ hm.2⟩
    have hlt := (h.moving hm'.1).room
    rw [hm'.2] at hlt
    rw [(hcls id).2.2.2 hlt]
    exact (hpages (hiff.mp hb)).2 hav hm'
  have hsrc : b = true → t.MovingFrom SLAB_GLOBAL_PAGE_POOL → (t.slabclass SLAB_GLOBAL_PAGE_POOL).slabs ≠ 1 := by
    intro hb hm
    rw [hpoolcls]
    exact (hpages (hiff.mp hb)).1 ⟨hsig ▸ hm.1, hr ▸ hm.2⟩
  rcases hrest with ⟨_, heq⟩ | ⟨hb, p, u, hget, heq⟩ | ⟨hb, t', o, u, hget, halloc, hres⟩
  · rw [heq]; exact hg
  · rcases hg.get_page (hsrc hb) with ⟨_, hnone⟩ | ⟨q, hpos, hsome, hinv⟩
    · rw [hnone] at hget; cases congrArg Prod.fst hget
    · rw [hsome, Prod.mk.injEq, Option.some.injEq] at hget
      obtain ⟨rfl, rfl⟩ := hget
      have hcid : (t.setClass SLAB_GLOBAL_PAGE_POOL { t.slabclass SLAB_GLOBAL_PAGE_POOL with
          slabs := (t.slabclass SLAB_GLOBAL_PAGE_POOL).slabs - 1 }).slabclass id = t.slabclass id := by
        simp only [setClass, Function.update_of_ne hpool]
      rw [heq]
      refine hinv.place (hp ▸ h2) (by rw [hcid]; exact hroom hb) fun hm => ?_
      rw [hcid]
      exact hkeep hb (Or.inl (by rw [← hpoolcls]; exact hpos)) hm
  · rcases hg.get_page (hsrc hb) with ⟨_, hnone⟩ | ⟨q, _, hsome, _⟩
    · rw [hnone, Prod.mk.injEq] at hget
      obtain rfl := hget.2
      have hlive : t.mem_base = none → ∀ p, env.malloc = some p → ¬ t.Live p := by
        intro _ p hm hl
        exact hfresh p hm (by unfold Live at hl ⊢; rw [← ho, ← hf]; exact hl)
      have hinv := hg.memory_allocate (h.core.page_len_pos h1 h2) hlive
      obtain ⟨hcls', hp', hr', hsig', _⟩ := memory_allocate_frame t (s.page_len id) env.malloc
      have hsome := memory_allocate_some t (s.page_len id) env.malloc
      rw [halloc] at hinv hcls' hp' hr' hsig' hsome
      rcases hres with ⟨rfl, heq⟩ | ⟨p, rfl, heq⟩
      · rw [heq]; exact hinv
      · rw [heq]
        refine hinv.place (hp' ▸ hp ▸ h2) (by rw [hcls']; exact hroom hb) fun hm => ?_
        rw [hcls']
        refine hkeep hb (Or.inr ?_) ⟨hsig' ▸ hm.1, hr' ▸ hm.2⟩
        rw [← hbase, ← havail]
        exact hsome.mp (Option.some_ne_none p)
    · rw [hsome] at hget; cases congrArg Prod.fst hget

end Memcached.MemoryLru.Slabs

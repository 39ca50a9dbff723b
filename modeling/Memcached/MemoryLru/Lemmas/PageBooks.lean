import Memcached.MemoryLru.Lemmas.PageSections

/-!
# The books on memory

`mem_malloced` counts the bytes of the pages obtained and not freed, as long as `malloc` does not fail.
-/

namespace Memcached.MemoryLru.Slabs

variable {s s' : Slabs} {loose : Multiset (Option Page)} {initial : Nat}

/-- `mem_malloced` is what pages cost; where pages can be freed they all cost the same. -/
structure Books (initial : Nat) (s : Slabs) : Prop where
  account : s.mem_malloced + (s.freed.map Prod.snd).sum = initial + (s.obtained.map Prod.snd).sum
  sizes : s.settings.slab_reassign = true → s.mem_base = none →
    (∀ e ∈ s.obtained, e.2 = s.settings.slab_page_size) ∧ ∀ e ∈ s.freed, e.2 = s.settings.slab_page_size
  unfreed : s.settings.slab_reassign = false ∨ s.mem_base ≠ none → s.freed = []

theorem Books.congr (h : Books initial s) (hset : s'.settings = s.settings) (hbase : s'.mem_base = s.mem_base)
    (hm : s'.mem_malloced = s.mem_malloced) (ho : s'.obtained = s.obtained) (hf : s'.freed = s.freed) :
    Books initial s' where
  account := by rw [hm, hf, ho]; exact h.account
  sizes := by rw [hset, hbase, ho, hf]; exact h.sizes
  unfreed := by rw [hset, hbase, hf]; exact h.unfreed

theorem Books.of_erase (he : s'.erase = s.erase) (h : Books initial s) : Books initial s' := by
  simp only [erase, Slabs.mk.injEq] at he
  obtain ⟨hset, -, -, hm, -, -, hbase, -, -, -, -, -, ho, hf, -⟩ := he
  exact h.congr hset hbase hm ho hf

theorem Books.grow (h : Books initial s) (id : Nat) (ok : Bool) : Books initial (s.grow_slab_list id ok).2 := by
  obtain ⟨_, _, _, hbase, _, hm, _, hset, ho, hf⟩ := grow_frame s id ok
  exact h.congr hset hbase hm ho hf

theorem Books.place (h : Books initial s) (id : Nat) (p : Option Page) :
    Books initial ((s.split_slab_page_into_freelist id).append_page id p) :=
  (h.of_erase (erase_split s id)).congr rfl rfl rfl rfl rfl

theorem Books.get_page (h : Books initial s) : Books initial s.get_page_from_global_pool.2 := by
  unfold get_page_from_global_pool
  dsimp only
  split
  · exact h
  · exact h.congr rfl rfl rfl rfl rfl

/-- A page of the right size goes into the books, unless `malloc` failed. -/
theorem Books.memory_allocate (h : Books initial s) {size : Nat} {malloc : Option Page}
    (hsize : s.settings.slab_reassign = true → size = s.settings.slab_page_size)
    (hmalloc : s.mem_base = none → malloc ≠ none) : Books initial (s.memory_allocate size malloc).2 := by
  have hacc := h.account
  unfold Slabs.memory_allocate
  split
  · rename_i hbase
    obtain ⟨p, rfl⟩ := Option.ne_none_iff_exists'.mp (hmalloc hbase)
    exact {
      account := by
        simp only [Option.map_some, Option.toList_some, List.singleton_append, List.map_cons, List.sum_cons]
        omega
      sizes := by
        intro hr _
        obtain ⟨ho, hf⟩ := h.sizes hr hbase
        refine ⟨fun e he => ?_, hf⟩
        rcases List.mem_cons.mp he with rfl | he
        · exact hsize hr
        · exact ho e he
      unfreed := h.unfreed }
  · rename_i b hbase
    have hb : s.mem_base ≠ none := by rw [hbase]; exact Option.some_ne_none b
    split
    · exact h
    · exact {
        account := by simp only [List.map_cons, List.sum_cons]; omega
        sizes := fun _ hn => absurd hn hb
        unfreed := h.unfreed }

theorem Books.page_size_le (h : Books initial s) {p : Page} (hc : Core s (some p ::ₘ loose))
    (hr : s.settings.slab_reassign = true) (hbase : s.mem_base = none) :
    s.settings.slab_page_size ≤ s.mem_malloced := by
  obtain ⟨ho, hf⟩ := h.sizes hr hbase
  have hsum : ∀ l : List (Page × Nat), (∀ e ∈ l, e.2 = s.settings.slab_page_size) →
      (l.map Prod.snd).sum = l.length * s.settings.slab_page_size := by
    intro l hl
    rw [List.map_congr_left hl, List.map_const', List.sum_replicate, smul_eq_mul]
  have hcard := congrArg Multiset.card hc.placed
  simp only [Multiset.card_add, Multiset.card_cons, freedPages, obtainedPages, Multiset.coe_card,
    List.length_map] at hcard
  have hacc := h.account
  rw [hsum _ ho, hsum _ hf] at hacc
  have hle : (s.freed.length + 1) * s.settings.slab_page_size ≤ s.obtained.length * s.settings.slab_page_size :=
    Nat.mul_le_mul_right _ (by omega)
  rw [Nat.succ_mul] at hle
  omega

theorem memory_release_loop_books (n : Nat) : ∀ {s : Slabs}, Core s 0 → Books initial s →
    s.settings.slab_reassign = true → s.mem_base = none → Books initial (memory_release_loop n s) := by
  induction n with
  | zero => intro s _ h _ _; exact h
  | succ n ih =>
      intro s hc h hr hbase
      unfold memory_release_loop
      split
      · rcases get_page_spec hc with ⟨_, heq⟩ | ⟨p, _, heq, hc'⟩
        · rw [heq]; exact h
        · rw [heq]
          have hmid := h.get_page
          rw [heq] at hmid
          have hle := hmid.page_size_le hc' hr hbase
          refine ih (hc'.free hbase) ?_ hr hbase
          exact {
            account := by
              have hacc := hmid.account
              simp only [List.map_cons, List.sum_cons] at hacc hle ⊢
              simp only [setClass] at hacc hle ⊢
              omega
            sizes := by
              intro _ _
              obtain ⟨ho, hf⟩ := h.sizes hr hbase
              refine ⟨ho, fun e he => ?_⟩
              rcases List.mem_cons.mp he with rfl | he
              · rfl
              · exact hf e he
            unfreed := by
              rintro (hc | hc)
              · exact absurd hr (by rw [show s.settings.slab_reassign = false from hc]; decide)
              · exact absurd hbase hc }
      · exact h

theorem Books.memory_release (h : Books initial s) (hc : Core s 0) : Books initial s.memory_release := by
  unfold Slabs.memory_release
  by_cases hbase : s.mem_base = none
  · cases hr : s.settings.slab_reassign with
    | false => simp [hbase, h]
    | true =>
        simp only [hbase, ne_eq, not_true_eq_false, ↓reduceIte, Bool.not_true, Bool.false_eq_true]
        exact memory_release_loop_books _ hc h hr hbase
  · rw [if_pos hbase]; exact h

/-! ## Sections -/

/-- `malloc` does not fail where `do_slabs_newslab` calls it. -/
def NewslabMalloc (s : Slabs) (id : Nat) (env : MallocEnv) : Prop :=
  ¬ s.Refused id → (s.slabclass id).slabs ≠ (s.slabclass id).list_size ∨ env.realloc_ok = true →
    (s.slabclass SLAB_GLOBAL_PAGE_POOL).slabs = 0 → s.mem_base = none → env.malloc ≠ none

/-- `malloc` does not fail in a section, said of the state before it. -/
def MallocSafe (s : Slabs) : Op → Prop
  | .slabs_prefill_global envs => s.mem_base = none → ∀ env ∈ envs, env.malloc ≠ none
  | .do_slabs_newslab id env => s.NewslabMalloc id env
  | .slabs_alloc _ id flags env =>
      POWER_SMALLEST ≤ id → id ≤ s.power_largest → (s.slabclass id).sl_curr = 0 → flags ≠ SLABS_ALLOC_NO_NEWPAGE →
        s.NewslabMalloc id env
  | _ => True

instance (s : Slabs) (id : Nat) (env : MallocEnv) : Decidable (s.NewslabMalloc id env) :=
  inferInstanceAs (Decidable (_ → _ → _ → _ → _))

instance (s : Slabs) : ∀ op, Decidable (s.MallocSafe op)
  | .slabs_prefill_global _ => inferInstanceAs (Decidable (_ → ∀ _ ∈ _, _))
  | .do_slabs_newslab id env => inferInstanceAs (Decidable (s.NewslabMalloc id env))
  | .slabs_alloc _ _ _ _ => inferInstanceAs (Decidable (_ → _ → _ → _ → _))
  | .slabs_adjust_mem_limit _ | .slab_rebalance_start _ | .slabs_free _ _ _ | .slabs_reassign _ _
  | .slab_rebalance_move _ | .slab_rebalance_finish => isTrue trivial

theorem grow_success (s : Slabs) (id : Nat) (ok : Bool) :
    (s.grow_slab_list id ok).1 = true → (s.slabclass id).slabs ≠ (s.slabclass id).list_size ∨ ok = true := by
  unfold grow_slab_list
  dsimp only
  split
  · cases ok with
    | true => exact fun _ => Or.inr rfl
    | false => exact fun h => absurd h Bool.false_ne_true
  · rename_i h; exact fun _ => Or.inl h

theorem grow_pool (s : Slabs) {id : Nat} (hid : SLAB_GLOBAL_PAGE_POOL ≠ id) (ok : Bool) :
    (s.grow_slab_list id ok).2.slabclass SLAB_GLOBAL_PAGE_POOL = s.slabclass SLAB_GLOBAL_PAGE_POOL := by
  unfold grow_slab_list
  dsimp only
  split
  · split
    · simp only [setClass, Function.update_of_ne hid]
    · rfl
  · rfl

theorem Books.do_slabs_newslab (h : Books initial s) (hinv : Inv s 0) {id : Nat} {env : MallocEnv}
    (h1 : POWER_SMALLEST ≤ id) (h2 : id ≤ s.power_largest) (hsafe : s.NewslabSafe id env)
    (hmalloc : s.NewslabMalloc id env) : Books initial (s.do_slabs_newslab id env).2 := by
  rcases do_slabs_newslab_cases s id env with ⟨_, heq⟩ | ⟨href, b, t, hgrow, hrest⟩
  · rw [heq]; exact h.congr rfl rfl rfl rfl rfl
  have hg := h.grow id env.realloc_ok
  have hcore := (hinv.grow h2 (hsafe href).1).core
  have hsucc := grow_success s id env.realloc_ok
  have hpool := grow_pool s (Nat.ne_of_lt h1) env.realloc_ok
  obtain ⟨_, _, _, hbase, _, _, _, hset, _, _⟩ := grow_frame s id env.realloc_ok
  rw [hgrow] at hg hcore hsucc hpool hbase hset
  rcases hrest with ⟨_, heq⟩ | ⟨_, p, u, hget, heq⟩ | ⟨hb, t', o, u, hget, halloc, hres⟩
  · rw [heq]; exact hg
  · have hu := hg.get_page
    rw [hget] at hu
    rw [heq]
    exact hu.place id (some p)
  · rcases get_page_spec hcore with ⟨hempty, hnone⟩ | ⟨q, _, hsome, _⟩
    · rw [hnone, Prod.mk.injEq] at hget
      obtain rfl := hget.2
      have hu : Books initial (t.memory_allocate (s.page_len id) env.malloc).2 := hg.memory_allocate
        (fun hr => by rw [page_len, if_pos (Or.inl (by rw [← hset]; exact hr)), hset])
        (fun hbn => hmalloc href (hsucc hb) (by rw [← hpool]; exact hempty) (by rw [← hbase]; exact hbn))
      rw [halloc] at hu
      rcases hres with ⟨_, heq⟩ | ⟨p, _, heq⟩
      · rw [heq]; exact hu
      · rw [heq]; exact hu.place id (some p)
    · rw [hsome] at hget; exact nomatch congrArg Prod.fst hget

theorem slabs_prefill_loop_books (envs : List MallocEnv) : ∀ {s : Slabs}, Books initial s →
    (s.mem_base = none → ∀ env ∈ envs, env.malloc ≠ none) → Books initial (slabs_prefill_loop envs s) := by
  induction envs with
  | nil => intro s h _; exact h
  | cons env envs ih =>
      intro s h hmalloc
      unfold slabs_prefill_loop
      split
      · have ha : Books initial (s.memory_allocate s.settings.slab_page_size env.malloc).2 :=
          h.memory_allocate (fun _ => rfl) fun hb => hmalloc hb env List.mem_cons_self
        obtain ⟨_, _, _, _, _, _, hbase⟩ := memory_allocate_frame s s.settings.slab_page_size env.malloc
        cases halloc : s.memory_allocate s.settings.slab_page_size env.malloc with
        | mk o t =>
            rw [halloc] at ha hbase
            cases o with
            | none => exact ha
            | some p =>
                refine ih ((ha.grow SLAB_GLOBAL_PAGE_POOL env.realloc_ok).congr rfl rfl rfl rfl rfl) fun hb => ?_
                obtain ⟨_, _, _, hgbase, _⟩ := grow_frame t SLAB_GLOBAL_PAGE_POOL env.realloc_ok
                have hbn : s.mem_base = none := by rw [← hbase, ← hgbase]; exact hb
                exact fun e he => hmalloc hbn e (List.mem_cons_of_mem _ he)
      · exact h

theorem Books.exec (h : Books initial s) (hinv : Inv s 0) {op : Op} (hen : s.Enabled op) (hsafe : s.PageSafe op)
    (hmalloc : s.MallocSafe op) : Books initial (s.exec op) := by
  cases op with
  | slabs_prefill_global envs => exact (slabs_prefill_loop_books envs h hmalloc).congr rfl rfl rfl rfl rfl
  | do_slabs_newslab id env => exact h.do_slabs_newslab hinv hen.1 hen.2.1 hsafe hmalloc
  | slabs_alloc size id flags env =>
      rcases erase_do_slabs_alloc s size id flags env with he | ⟨h1, h2, hempty, hflags, he⟩
      · exact h.of_erase he
      · exact (h.do_slabs_newslab hinv h1 h2 (hsafe h1 h2 hempty hflags) (hmalloc h1 h2 hempty hflags)).of_erase he
  | slabs_free it size id => exact h.of_erase (erase_do_slabs_free s it size id)
  | slabs_adjust_mem_limit n =>
      change Books initial (s.do_slabs_adjust_mem_limit n).2
      unfold do_slabs_adjust_mem_limit
      split
      · exact h
      · exact Books.memory_release (h.congr rfl rfl rfl rfl rfl) (hinv.core.frame rfl rfl rfl rfl rfl rfl rfl)
  | slabs_reassign src dst =>
      change Books initial (s.do_slabs_reassign src dst).2
      unfold do_slabs_reassign slabs_reassign_pick_any
      repeat' (first | split | dsimp only)
      all_goals exact h.congr rfl rfl rfl rfl rfl
  | slab_rebalance_start ok =>
      have hg := h.grow s.slab_rebal.d_clsid ok
      change Books initial (s.slab_rebalance_start ok)
      unfold slab_rebalance_start
      dsimp only
      split
      · exact hg.congr rfl rfl rfl rfl rfl
      · exact hg.congr rfl rfl rfl rfl rfl
  | slab_rebalance_move pieces =>
      obtain ⟨r, he, _⟩ := progressed_slab_rebalance_move s pieces
      have hr : Books initial { s with slab_rebal := r } := h.congr rfl rfl rfl rfl rfl
      exact Books.of_erase (s := { s with slab_rebal := r }) he hr
  | slab_rebalance_finish =>
      have hm : Books initial { s.moved with mem_limit_reached := false } := h.congr rfl rfl rfl rfl rfl
      change Books initial { (if s.slab_rebal.d_clsid > SLAB_GLOBAL_PAGE_POOL
        then s.moved.split_slab_page_into_freelist s.slab_rebal.d_clsid
        else Slabs.memory_release { s.moved with mem_limit_reached := false }) with
          slab_rebal := _, slab_rebalance_signal := 0 }
      split
      · exact Books.congr (Books.of_erase (erase_split s.moved s.slab_rebal.d_clsid) (h.congr rfl rfl rfl rfl rfl))
          rfl rfl rfl rfl rfl
      · exact (hm.memory_release ((hinv.moved hen).frame rfl rfl rfl rfl rfl rfl rfl)).congr rfl rfl rfl rfl rfl

end Memcached.MemoryLru.Slabs

import Memcached.MemoryLru.NewslabTheorems
import Memcached.MemoryRebalance.Slabs

/-!
# The memory limit of memory_rebalance/slabs.c

Its guard never refuses a page: the limit is kept by callers that do not ask for a page beyond it for a class that has one.
Then `mem_malloced` stays within the limit and one page for each class.
-/

namespace Memcached.MemoryRebalance

open Transition MemoryLru MemoryLru.Slabs

variable {s s' : Slabs} {id : Nat} {env : MallocEnv}

/-! ## What no allocation changes -/

/-- Limits, classes and the size of their pages stay, and the pool owns as many pages. -/
structure Steady (s s' : Slabs) : Prop where
  mem_limit : s'.mem_limit = s.mem_limit
  power_largest : s'.power_largest = s.power_largest
  page_cost : ∀ i, page_cost s' i = page_cost s i
  pool : (s'.slabclass SLAB_GLOBAL_PAGE_POOL).slabs = (s.slabclass SLAB_GLOBAL_PAGE_POOL).slabs

theorem Steady.trans {s₁ : Slabs} (h : Steady s s₁) (h' : Steady s₁ s') : Steady s s' where
  mem_limit := h'.mem_limit.trans h.mem_limit
  power_largest := h'.power_largest.trans h.power_largest
  page_cost i := (h'.page_cost i).trans (h.page_cost i)
  pool := h'.pool.trans h.pool

theorem page_cost_congr (hset : s'.settings = s.settings) (hb : s'.mem_base = s.mem_base)
    (hc : ∀ i, (s'.slabclass i).size = (s.slabclass i).size ∧ (s'.slabclass i).perslab = (s.slabclass i).perslab) (i : Nat) :
    page_cost s' i = page_cost s i := by
  have hlen : s'.page_len i = s.page_len i := by simp only [page_len, hset, (hc i).1, (hc i).2]
  simp only [page_cost, hlen, counted, hb]

/-- What chunks are free, and how many bytes are requested, is of no matter to pages. -/
theorem of_erase (h : s'.erase = s.erase) :
    Steady s s' ∧ s'.mem_malloced = s.mem_malloced ∧ ∀ i, (s'.slabclass i).slabs = (s.slabclass i).slabs := by
  have hc (i : Nat) : (s'.slabclass i).slabs = (s.slabclass i).slabs ∧ (s'.slabclass i).size = (s.slabclass i).size ∧
      (s'.slabclass i).perslab = (s.slabclass i).perslab := by
    have hi := congrFun (congrArg Slabs.slabclass h) i
    simp only [erase, Slabclass.mk.injEq] at hi
    exact ⟨hi.2.2.2.1, hi.1, hi.2.1⟩
  have hset : s'.erase.settings = s.erase.settings := by rw [h]
  have hb : s'.erase.mem_base = s.erase.mem_base := by rw [h]
  have hmal : s'.erase.mem_malloced = s.erase.mem_malloced := by rw [h]
  have hlim : s'.erase.mem_limit = s.erase.mem_limit := by rw [h]
  have hpow : s'.erase.power_largest = s.erase.power_largest := by rw [h]
  exact ⟨⟨hlim, hpow, page_cost_congr hset hb fun i => (hc i).2, (hc _).1⟩, hmal, fun i => (hc i).1⟩

theorem setClass_steady {c : Slabclass} (hn : c.slabs = (s.slabclass id).slabs) (hz : c.size = (s.slabclass id).size)
    (hp : c.perslab = (s.slabclass id).perslab) :
    Steady s (s.setClass id c) ∧ ∀ i, ((s.setClass id c).slabclass i).slabs = (s.slabclass i).slabs := by
  have hc (i : Nat) : ((s.setClass id c).slabclass i).slabs = (s.slabclass i).slabs ∧
      ((s.setClass id c).slabclass i).size = (s.slabclass i).size ∧
      ((s.setClass id c).slabclass i).perslab = (s.slabclass i).perslab := by
    rcases eq_or_ne i id with rfl | hi
    · simp [setClass, hn, hz, hp]
    · simp [setClass, hi]
  exact ⟨⟨rfl, rfl, page_cost_congr rfl rfl fun i => (hc i).2, (hc _).1⟩, fun i => (hc i).1⟩

theorem grow_slab_list_steady {ok b : Bool} (h : s.grow_slab_list id ok = (b, s')) :
    Steady s s' ∧ s'.mem_malloced = s.mem_malloced ∧ (s'.mem_base = s.mem_base ∧ s'.mem_avail = s.mem_avail) ∧
      (∀ i, (s'.slabclass i).slabs = (s.slabclass i).slabs) ∧
        (b = true ↔ (s.slabclass id).slabs ≠ (s.slabclass id).list_size ∨ ok = true) := by
  have hrefl : Steady s s := ⟨rfl, rfl, fun _ => rfl, rfl⟩
  unfold grow_slab_list at h
  dsimp only at h
  split at h
  · next hfull =>
    split at h <;> obtain ⟨rfl, rfl⟩ := Prod.mk.inj h
    · next hok =>
      obtain ⟨hs, hslabs⟩ := @setClass_steady s id
        { s.slabclass id with
          list_size := if (s.slabclass id).list_size ≠ 0 then (s.slabclass id).list_size * 2 % 2 ^ 32 else 16
          slab_list := realloc (s.slabclass id).slab_list
            (if (s.slabclass id).list_size ≠ 0 then (s.slabclass id).list_size * 2 % 2 ^ 32 else 16) } rfl rfl rfl
      exact ⟨hs, rfl, ⟨rfl, rfl⟩, hslabs, by simp [hok]⟩
    · next hok => exact ⟨hrefl, rfl, ⟨rfl, rfl⟩, fun _ => rfl, by simp [hok, hfull]⟩
  · next hroom =>
    obtain ⟨rfl, rfl⟩ := Prod.mk.inj h
    exact ⟨hrefl, rfl, ⟨rfl, rfl⟩, fun _ => rfl, by simp [hroom]⟩

/-! ## A new page -/

theorem memory_allocate_some {len : Nat} {malloc : Option Page} {ptr : Page}
    (h : s.memory_allocate len malloc = (some ptr, s')) :
    s'.mem_malloced = s.mem_malloced + counted s len ∧ Steady s s' ∧ s'.slabclass = s.slabclass := by
  unfold memory_allocate at h
  cases hb : s.mem_base with
  | none =>
      rw [hb] at h
      obtain ⟨-, rfl⟩ := Prod.mk.inj h
      exact ⟨by simp [counted, hb], ⟨rfl, rfl, page_cost_congr rfl hb.symm fun _ => ⟨rfl, rfl⟩, rfl⟩, rfl⟩
  | some base =>
      rw [hb] at h
      dsimp only at h
      split at h
      · cases (Prod.mk.inj h).1
      · obtain ⟨-, rfl⟩ := Prod.mk.inj h
        refine ⟨?_, ⟨rfl, rfl, page_cost_congr rfl hb.symm fun _ => ⟨rfl, rfl⟩, rfl⟩, rfl⟩
        simp only [counted, hb, reduceCtorEq, false_or, ne_eq]
        split_ifs <;> rfl

theorem memory_allocate_none_iff {len : Nat} {malloc : Option Page} (hm : malloc ≠ none) :
    (s.memory_allocate len malloc).1 = none ↔ ¬ (s.mem_base = none ∨ len ≤ s.mem_avail) := by
  unfold memory_allocate
  cases s.mem_base with
  | none => simp [hm]
  | some base =>
      dsimp only
      split
      · next hlen => simp [hlen]
      · next hlen => simp [Nat.le_of_not_lt hlen]

theorem append_page_steady {ptr : Option Page} (hid : POWER_SMALLEST ≤ id) :
    Steady s (s.append_page id ptr) ∧ (s.append_page id ptr).mem_malloced = s.mem_malloced ∧
      ∀ i, ((s.append_page id ptr).slabclass i).slabs =
        if i = id then ((s.slabclass id).slabs + 1) % 2 ^ 32 else (s.slabclass i).slabs := by
  have hpool : SLAB_GLOBAL_PAGE_POOL ≠ id := Nat.ne_of_lt hid
  refine ⟨⟨rfl, rfl, page_cost_congr rfl rfl fun i => ?_, ?_⟩, rfl, fun i => ?_⟩
  case refine_2 => simp [append_page, setClass, hpool]
  all_goals
    rcases eq_or_ne i id with rfl | hi
    · simp [append_page, setClass]
    · simp [append_page, setClass, hi]

/-- The pages and the bytes that are counted stay. -/
structure Uncounted (s s' : Slabs) : Prop where
  mem_malloced : s'.mem_malloced = s.mem_malloced
  slabs : ∀ i, (s'.slabclass i).slabs = (s.slabclass i).slabs

/-- One more page of class `id` is counted. -/
structure Counted (id : Nat) (s s' : Slabs) : Prop where
  mem_malloced : s'.mem_malloced = s.mem_malloced + page_cost s id
  slabs : ∀ i, (s'.slabclass i).slabs = if i = id then ((s.slabclass id).slabs + 1) % 2 ^ 32 else (s.slabclass i).slabs

/-- What `do_slabs_newslab` does while the pool is empty: it lists one more page of the class and counts its cost, if a page
can be had, and neither if not. -/
theorem newslab_counts (hid : POWER_SMALLEST ≤ id) (hpool : (s.slabclass SLAB_GLOBAL_PAGE_POOL).slabs = 0)
    (hm : env.malloc ≠ none) :
    Steady s (do_slabs_newslab s id env).2 ∧
      if can_get s id env then Counted id s (do_slabs_newslab s id env).2 else Uncounted s (do_slabs_newslab s id env).2 := by
  unfold do_slabs_newslab
  dsimp only
  rw [if_neg (by omega)]
  cases hg : s.grow_slab_list id env.realloc_ok with
  | mk grown s₁ =>
  obtain ⟨hs₁, hmal₁, ⟨hbase₁, havail₁⟩, hslabs₁, hgrown⟩ := grow_slab_list_steady hg
  cases grown with
  | false =>
      rw [if_neg (show ¬ can_get s id env from fun h => Bool.false_ne_true (hgrown.mpr h.1))]
      exact ⟨hs₁, hmal₁, hslabs₁⟩
  | true =>
  have hget : s₁.get_page_from_global_pool = (none, s₁) := by
    simp [get_page_from_global_pool, hslabs₁, hpool]
  dsimp only
  rw [hget]
  dsimp only
  have hnone := @memory_allocate_none_iff s₁ (s.page_len id) _ hm
  rw [hbase₁, havail₁] at hnone
  cases ha : s₁.memory_allocate (s.page_len id) env.malloc with
  | mk ptr s₂ =>
  rw [ha] at hnone
  cases ptr with
  | none =>
      rw [if_neg (show ¬ can_get s id env from fun h => hnone.mp rfl h.2)]
      rcases memory_allocate_none ha with ⟨hb, -⟩ | ⟨-, rfl⟩
      · exact absurd (.inl (hbase₁.symm.trans hb)) (hnone.mp rfl)
      · exact ⟨hs₁, hmal₁, hslabs₁⟩
  | some ptr =>
      rw [if_pos (show can_get s id env from ⟨hgrown.mp rfl, not_not.mp fun h => Option.some_ne_none ptr (hnone.mpr h)⟩)]
      obtain ⟨hmal₂, hs₂, hc₂⟩ := memory_allocate_some ha
      obtain ⟨hs₃, hmal₃, hslabs₃⟩ := of_erase (erase_split s₂ id)
      obtain ⟨hs₄, hmal₄, hslabs₄⟩ := @append_page_steady (s₂.split_slab_page_into_freelist id) id (some ptr) hid
      have hcost : counted s₁ (s.page_len id) = page_cost s id := by simp only [page_cost, counted, hbase₁]
      refine ⟨((hs₁.trans hs₂).trans hs₃).trans hs₄, ?_, fun i => ?_⟩
      · rw [hmal₄, hmal₃, hmal₂, hmal₁, hcost]
      · rw [hslabs₄, hslabs₃, hslabs₃, hc₂, hslabs₁, hslabs₁]

theorem erase_take_chunk (s : Slabs) (size id : Nat) : (take_chunk s size id).erase = s.erase := by
  unfold take_chunk
  dsimp only
  split_ifs
  · exact erase_setClass s id _ rfl rfl rfl rfl rfl
  · rfl

/-- What a call counts: a page of the class it had `do_slabs_newslab` called for, if one can be had, or nothing. -/
theorem exec_counts {op : Op} (hen : Enabled s op) (hpool : (s.slabclass SLAB_GLOBAL_PAGE_POOL).slabs = 0) :
    Steady s (exec s op) ∧
      ((∀ id env, newslab_call s op = some (id, env) → ¬ can_get s id env) ∧ Uncounted s (exec s op) ∨
        ∃ id env, newslab_call s op = some (id, env) ∧ can_get s id env ∧ POWER_SMALLEST ≤ id ∧ id ≤ s.power_largest ∧
          Counted id s (exec s op)) := by
  cases op with
  | do_slabs_newslab id env =>
      obtain ⟨hlo, hhi, hm⟩ := hen
      obtain ⟨hs, hcount⟩ := newslab_counts hlo hpool hm
      refine ⟨hs, ?_⟩
      split at hcount
      · next hget => exact .inr ⟨id, env, rfl, hget, hlo, hhi, hcount⟩
      · next hget =>
        refine .inl ⟨fun _ _ hcall => ?_, hcount⟩
        obtain ⟨rfl, rfl⟩ := Prod.mk.inj (Option.some.inj hcall)
        exact hget
  | slabs_free it size id =>
      obtain ⟨hs, hmal, hslabs⟩ := of_erase (erase_do_slabs_free s it size id)
      exact ⟨hs, .inl ⟨nofun, hmal, hslabs⟩⟩
  | slabs_alloc size id flags env =>
      unfold exec do_slabs_alloc newslab_call
      dsimp only
      split_ifs with hid hcall hnew hcall
      · omega
      · exact ⟨⟨rfl, rfl, fun _ => rfl, rfl⟩, .inl ⟨nofun, rfl, fun _ => rfl⟩⟩
      · obtain ⟨hlo, hhi, -⟩ := hcall
        obtain ⟨hs, hmal, hslabs⟩ := of_erase (erase_take_chunk (do_slabs_newslab s id env).2 size id)
        obtain ⟨hs₁, hcount⟩ := newslab_counts hlo hpool hen
        refine ⟨hs₁.trans hs, ?_⟩
        split at hcount
        · next hget =>
          exact .inr ⟨id, env, rfl, hget, hlo, hhi, hmal.trans hcount.mem_malloced, fun i => (hslabs i).trans (hcount.slabs i)⟩
        · next hget =>
          refine .inl ⟨fun _ _ hcall => ?_, hmal.trans hcount.mem_malloced, fun i => (hslabs i).trans (hcount.slabs i)⟩
          obtain ⟨rfl, rfl⟩ := Prod.mk.inj (Option.some.inj hcall)
          exact hget
      · exact absurd ⟨by omega, by omega, hnew⟩ hcall
      · omega
      · obtain ⟨hs, hmal, hslabs⟩ := of_erase (erase_take_chunk s size id)
        exact ⟨hs, .inl ⟨nofun, hmal, hslabs⟩⟩

/-! ## The limit -/

/-- Where a page is asked for and can be had, the class owns none or the page fits below the limit. -/
def Fits (s : Slabs) (op : Op) : Prop :=
  ∀ c ∈ newslab_call s op, can_get s c.1 c.2 →
    (s.slabclass c.1).slabs = 0 ∨ s.mem_malloced + page_cost s c.1 ≤ s.mem_limit

instance (s : Slabs) (op : Op) : Decidable (Fits s op) := inferInstanceAs (Decidable (∀ c ∈ newslab_call s op, _))

/-- No count of pages is full. -/
def Countable (s : Slabs) (op : Op) : Prop := ∀ c ∈ newslab_call s op, (s.slabclass c.1).slabs + 1 < 2 ^ 32

instance (s : Slabs) (op : Op) : Decidable (Countable s op) := inferInstanceAs (Decidable (∀ c ∈ newslab_call s op, _))

/-- A page that brings `mem_malloced` above the limit is the first one of its class. -/
def FirstOnly (s s' : Slabs) : Prop :=
  ∀ i, (s'.slabclass i).slabs ≠ (s.slabclass i).slabs → s.mem_limit < s'.mem_malloced → (s.slabclass i).slabs = 0

/-- An allocation that asks for pages within the limit. -/
def LimitStep (s : Slabs) (op : Op) (s' : Slabs) : Prop := (Enabled s op ∧ Fits s op ∧ Countable s op) ∧ s' = exec s op

theorem first_only_iff {op : Op} (hen : Enabled s op) (hpool : (s.slabclass SLAB_GLOBAL_PAGE_POOL).slabs = 0) :
    FirstOnly s (exec s op) ↔ Fits s op := by
  obtain ⟨-, ⟨hcall, hsame⟩ | ⟨id, env, hcall, hget, -, -, hmal, hslabs⟩⟩ := exec_counts hen hpool
  · exact ⟨fun _ c hc hget => absurd hget (hcall _ _ hc), fun _ i hne => absurd (hsame.slabs i) hne⟩
  · have hmore : ((s.slabclass id).slabs + 1) % 2 ^ 32 ≠ (s.slabclass id).slabs := by omega
    constructor
    · intro h c hc _
      obtain rfl := Option.some.inj (hcall.symm.trans hc)
      rcases Nat.lt_or_ge s.mem_limit (s.mem_malloced + page_cost s id) with hover | hle
      · refine .inl (h id ?_ (hmal ▸ hover))
        rw [hslabs, if_pos rfl]
        exact hmore
      · exact .inr hle
    · intro h i hne hover
      have hi : i = id := by
        by_contra hi
        exact hne ((hslabs i).trans (if_neg hi))
      subst hi
      refine (h _ hcall hget).resolve_right fun hle => ?_
      rw [hmal] at hover
      exact Nat.not_lt.mpr hle hover

/-- `mem_malloced`, by what went beyond `limit`: a page for each class that owns one. -/
structure Budget (limit : Nat) (s : Slabs) : Prop where
  pool : (s.slabclass SLAB_GLOBAL_PAGE_POOL).slabs = 0
  limit_le : s.mem_limit ≤ limit
  spent : s.mem_malloced ≤ limit +
    ∑ i ∈ Finset.Icc POWER_SMALLEST s.power_largest, if 0 < (s.slabclass i).slabs then page_cost s i else 0

theorem Budget.step {limit : Nat} {op : Op} (h : Budget limit s) (hst : LimitStep s op s') : Budget limit s' := by
  obtain ⟨⟨hen, hfits, hcountable⟩, rfl⟩ := hst
  obtain ⟨hs, hcount⟩ := exec_counts hen h.pool
  refine ⟨hs.pool.trans h.pool, hs.mem_limit.trans_le h.limit_le, ?_⟩
  simp only [hs.power_largest, hs.page_cost]
  obtain ⟨-, hmal, hslabs⟩ | ⟨id, env, hcall, hget, hlo, hhi, hmal, hslabs⟩ := hcount
  · simpa only [hmal, hslabs] using h.spent
  have hspent := h.spent
  rcases Nat.eq_zero_or_pos (s.slabclass id).slabs with h0 | hpos
  · -- the first page of the class makes room for itself
    have hmem : id ∈ Finset.Icc POWER_SMALLEST s.power_largest := Finset.mem_Icc.mpr ⟨hlo, hhi⟩
    have hfirst : (∑ i ∈ Finset.Icc POWER_SMALLEST s.power_largest,
          if 0 < ((exec s op).slabclass i).slabs then page_cost s i else 0) =
        (∑ i ∈ Finset.Icc POWER_SMALLEST s.power_largest, if 0 < (s.slabclass i).slabs then page_cost s i else 0) +
          page_cost s id := by
      rw [← Finset.add_sum_erase _ _ hmem, ← Finset.add_sum_erase _ _ hmem, hslabs, if_pos rfl, h0]
      have hrest : ∀ i ∈ (Finset.Icc POWER_SMALLEST s.power_largest).erase id,
          (if 0 < ((exec s op).slabclass i).slabs then page_cost s i else 0) =
            if 0 < (s.slabclass i).slabs then page_cost s i else 0 := by
        intro i hi
        rw [hslabs, if_neg (Finset.ne_of_mem_erase hi)]
      rw [Finset.sum_congr rfl hrest]
      simp [Nat.add_comm]
    rw [hfirst, hmal, ← Nat.add_assoc]
    exact Nat.add_le_add_right hspent _
  · have hle := (hfits _ hcall hget).resolve_left hpos.ne'
    rw [hmal]
    exact (hle.trans h.limit_le).trans (Nat.le_add_right _ _)

theorem run_pool {settings : SlabSettings} {table : ClassTable} {limit initial : Nat} {base : Option Nat} {ops : List Op}
    (h : Run Step (slabs_init settings table limit initial base) ops s) : (s.slabclass SLAB_GLOBAL_PAGE_POOL).slabs = 0 :=
  h.invariant (P := fun s => (s.slabclass SLAB_GLOBAL_PAGE_POOL).slabs = 0)
    (fun hpool hst => by
      obtain ⟨hen, rfl⟩ := hst
      exact (exec_counts hen hpool).1.pool.trans hpool) rfl

/-- In every state that is reached, a call gives a page beyond the limit to a class without pages only, exactly if what it
asks for fits. In every run of such calls `mem_malloced` stays within the limit and one page for each class. -/
theorem mem_malloced_within {settings : SlabSettings} {table : ClassTable} {limit initial : Nat} {base : Option Nat}
    {ops : List Op} :
    (Run Step (slabs_init settings table limit initial base) ops s →
        ∀ op, Enabled s op → (FirstOnly s (exec s op) ↔ Fits s op)) ∧
      (Run LimitStep (slabs_init settings table limit initial base) ops s →
        s.mem_malloced ≤ max limit initial + ∑ i ∈ Finset.Icc POWER_SMALLEST s.power_largest, page_cost s i) := by
  refine ⟨fun h op hen => first_only_iff hen (run_pool h), fun h => ?_⟩
  have hstart : Budget (max limit initial) (slabs_init settings table limit initial base) :=
    ⟨rfl, Nat.le_max_left .., (Nat.le_max_right ..).trans (Nat.le_add_right ..)⟩
  have hs : Budget (max limit initial) s := h.invariant (P := Budget _) (fun hb hst => hb.step hst) hstart
  refine hs.spent.trans (Nat.add_le_add_left (Finset.sum_le_sum fun i _ => ?_) _)
  split_ifs
  · exact Nat.le_refl _
  · exact Nat.zero_le _

/-- Classes 1 and 2 have pages of 64 bytes; `malloc` returns them one after the other. -/
def calls (classes : List Nat) : List Op := classes.mapIdx fun i id => .do_slabs_newslab id ⟨true, some (64 * i)⟩

theorem mem_malloced_within_witness :
    (FirstOnly ((calls [1, 2]).foldl exec (small 64 none)) (exec ((calls [1, 2]).foldl exec (small 64 none))
        (.do_slabs_newslab 1 ⟨true, some 128⟩)) ↔
      Fits ((calls [1, 2]).foldl exec (small 64 none)) (.do_slabs_newslab 1 ⟨true, some 128⟩)) ∧
      ((calls [1, 2]).foldl exec (small 64 none)).mem_malloced ≤ 64 + 128 := by
  have hrun : Run LimitStep (small 64 none) (calls [1, 2]) ((calls [1, 2]).foldl exec (small 64 none)) :=
    Guarded.run (by decide +kernel)
  have hsteps : Run Step (small 64 none) (calls [1, 2]) ((calls [1, 2]).foldl exec (small 64 none)) :=
    hrun.mono fun hst => ⟨hst.1.1, hst.2⟩
  exact ⟨mem_malloced_within.1 hsteps _ (by decide +kernel), (mem_malloced_within.2 hrun).trans (by decide +kernel)⟩

/-- Class 1 owns a page at the limit, and is given another; after two more, `mem_malloced` is beyond a page for each class. -/
theorem limit_never_refuses :
    (∃ s s', Run Step (small 64 none) (calls [1]) s ∧ Step s (.do_slabs_newslab 1 ⟨true, some 64⟩) s' ∧
        (s.slabclass 1).slabs = 1 ∧ s.mem_malloced = s.mem_limit ∧ s.mem_limit < s'.mem_malloced) ∧
      ∃ s, Run Step (small 64 none) (calls [1, 1, 1, 1]) s ∧
        s.mem_limit + ∑ i ∈ Finset.Icc POWER_SMALLEST s.power_largest, page_cost s i < s.mem_malloced :=
  ⟨⟨_, _, Guarded.run (by decide +kernel), ⟨by decide +kernel, rfl⟩, by decide +kernel, by decide +kernel, by decide +kernel⟩,
    _, Guarded.run (by decide +kernel), by decide +kernel⟩

end Memcached.MemoryRebalance

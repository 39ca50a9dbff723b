import Memcached.Lib.Run
import Memcached.MemoryLru.Lemmas.PageBooks

/-!
# What holds of slab pages in every run

`slab_list_capacity`: no list outgrows its block. `pages_conserved`: no page is lost or owned twice, and
`mem_malloced` counts the bytes of the pages. Both hold in runs whose sections are `PageSafe`, the second if
`malloc` does not fail either. Without these conditions they fail.
-/

namespace Memcached.MemoryLru.Slabs

open Transition

variable {s : Slabs} {initial : Nat}

/-! ## Capacity -/

/-- No class lists more pages than its block has cells, and no page was written past a block. -/
def WithinCapacity (s : Slabs) : Prop :=
  (∀ i, (s.slabclass i).slabs ≤ (s.slabclass i).list_size) ∧ s.wild = false

/-- A section that is `PageSafe` in the state it runs in. -/
def SafeStep (s : Slabs) (op : Op) (s' : Slabs) : Prop := (s.Enabled op ∧ s.PageSafe op) ∧ s' = s.exec op

theorem Inv.run {s t : Slabs} {ops : List Op} (h : Run SafeStep s ops t) (hs : Inv s 0) : Inv t 0 :=
  h.invariant (P := fun s => Inv s 0) (fun hi hst => by rw [hst.2]; exact hi.exec hst.1.1 hst.1.2) hs

/-- In every run of safe sections the lists stay inside their blocks. -/
theorem slab_list_capacity {settings : SlabSettings} {table : ClassTable} {limit initial : Nat}
    {base : Option Nat} {ops : List Op} {s : Slabs}
    (h : Run SafeStep (slabs_init settings table limit initial base) ops s) : WithinCapacity s := by
  have hinv := Inv.run h (inv_slabs_init settings table limit initial base)
  exact ⟨hinv.core.fits, hinv.core.tame⟩

/-- A small allocator: classes 1 and 2, pages of two chunks. `base` is where `-L` put its memory. -/
def small (limit : Nat) (base : Option Nat) : Slabs :=
  slabs_init { slab_reassign := true, slab_page_size := 64, slab_chunk_size_max := 64, page_pos := by decide }
    { power_largest := 2, size := fun _ => 32, perslab := fun _ => 2, power_lt := by decide,
      bytes_pos := fun _ _ _ => by decide } limit 0 base

/-- A call of `do_slabs_newslab` in which `realloc` succeeds. -/
def newslab (id : Nat) : Op := .do_slabs_newslab id { realloc_ok := true, malloc := none }

/-- A page moves to class 1, and class 1 grows meanwhile. -/
def move_and_grow (pages : Nat) : List Op :=
  List.replicate pages (newslab 1) ++
    [newslab 2, newslab 2, .slabs_reassign 2 1, .slab_rebalance_start true, newslab 1,
     .slab_rebalance_move [.from_slab, .from_slab], .slab_rebalance_finish]

theorem slab_list_capacity_witness : WithinCapacity ((move_and_grow 3).foldl exec (small 4096 (some 0))) := by
  have hrun : Run SafeStep (small 4096 (some 0)) (move_and_grow 3)
      ((move_and_grow 3).foldl exec (small 4096 (some 0))) :=
    Guarded.run (by decide +kernel)
  exact slab_list_capacity hrun

/-- With 15 pages at the start of the move and a sixteenth during it, `slab_rebalance_finish` writes cell 16 of
16; and `slabs_prefill_global` writes cell 0 of none when its `realloc` fails. -/
theorem slab_list_overrun :
    (∃ s, Run Step (small 4096 (some 0)) (move_and_grow 15) s ∧ ¬ WithinCapacity s) ∧
    (∃ s, Run Step (small 128 (some 0))
      [.slabs_prefill_global (List.replicate 2 { realloc_ok := false, malloc := none })] s ∧ ¬ WithinCapacity s) := by
  refine ⟨⟨_, Guarded.run (by decide +kernel), fun h => absurd h.2 (by decide +kernel)⟩,
    ⟨_, Guarded.run (by decide +kernel), fun h => absurd h.2 (by decide +kernel)⟩⟩

/-! ## Conservation -/

/-- How often the classes list page `p`. -/
def listed (s : Slabs) (p : Page) : Nat :=
  ∑ i ∈ Finset.range MAX_NUMBER_OF_SLAB_CLASSES, (s.slabclass i).pages.count (some p)

/-- Where the pages are, and what they cost. -/
structure Conserved (initial : Nat) (s : Slabs) : Prop where
  /-- No two cells, of one class or of two, hold one page. -/
  once : ∀ (i j k l : Nat) (p : Option Page), i < MAX_NUMBER_OF_SLAB_CLASSES → j < MAX_NUMBER_OF_SLAB_CLASSES →
    (s.slabclass i).pages[k]? = some p → (s.slabclass j).pages[l]? = some p → i = j ∧ k = l
  /-- A page is listed or freed as often as it was obtained. -/
  placed : ∀ p : Page, s.listed p + (s.freed.map Prod.fst).count p = (s.obtained.map Prod.fst).count p
  /-- The lists hold pages. -/
  real : ∀ i < MAX_NUMBER_OF_SLAB_CLASSES, none ∉ (s.slabclass i).pages
  /-- The page being moved is the first of its source, so that finishing takes it, and it alone, from there. -/
  source : s.slab_rebalance_signal = 2 → s.slab_rebal.slab_start ≠ none ∧
    (s.slabclass s.slab_rebal.s_clsid).pages[0]? = some s.slab_rebal.slab_start
  /-- `slab_rebalance_finish` counts down from a positive number. -/
  no_underflow : s.slab_rebal.done ≠ 0 → 0 < (s.slabclass s.slab_rebal.s_clsid).slabs
  /-- `mem_malloced` moved by the bytes of the pages. -/
  account : s.mem_malloced + (s.freed.map Prod.snd).sum = initial + (s.obtained.map Prod.snd).sum
  /-- A page is freed for the bytes it was obtained for. -/
  priced : ∀ e ∈ s.freed, e ∈ s.obtained

theorem Core.once (h : Core s 0) {i j k l : Nat} {p : Option Page} (hi : i < MAX_NUMBER_OF_SLAB_CLASSES)
    (hj : j < MAX_NUMBER_OF_SLAB_CLASSES) (hk : (s.slabclass i).pages[k]? = some p)
    (hl : (s.slabclass j).pages[l]? = some p) : i = j ∧ k = l := by
  have hnd : s.owned.Nodup := by have := h.nodup; rwa [add_zero] at this
  obtain rfl := owned_unique hnd hi hj (List.mem_of_getElem? hk) (List.mem_of_getElem? hl)
  have hpages : (s.slabclass i).pages.Nodup :=
    Multiset.coe_nodup.mp (Multiset.nodup_of_le (pages_le_owned s hi) hnd)
  exact ⟨rfl, (List.getElem?_inj (List.getElem?_eq_some_iff.mp hk).1 hpages).mp (hk.trans hl.symm)⟩

theorem count_owned (s : Slabs) (p : Page) : s.owned.count (some p) = s.listed p := by
  unfold owned listed
  generalize MAX_NUMBER_OF_SLAB_CLASSES = n
  rw [Multiset.count_sum']
  refine Finset.sum_congr rfl fun i _ => ?_
  rw [Multiset.coe_count, lawful_beq_subsingleton instBEqOfDecidableEq (Option.instBEq : BEq (Option Page))]

theorem Core.count (h : Core s 0) (p : Page) :
    s.listed p + (s.freed.map Prod.fst).count p = (s.obtained.map Prod.fst).count p := by
  have hcount := congrArg (Multiset.count (some p)) h.placed
  rw [add_zero, Multiset.count_add, freedPages, obtainedPages, count_some_fst, count_some_fst, count_owned] at hcount
  exact hcount

theorem Books.priced (h : Books initial s) (hc : Core s 0) {e : Page × Nat} (he : e ∈ s.freed) :
    e ∈ s.obtained := by
  by_cases hr : s.settings.slab_reassign = true ∧ s.mem_base = none
  · obtain ⟨ho, hf⟩ := h.sizes hr.1 hr.2
    have hpos : 0 < (s.freed.map Prod.fst).count e.1 := List.count_pos_iff.mpr (List.mem_map_of_mem he)
    have hcount := hc.count e.1
    obtain ⟨e', he', heq⟩ := List.mem_map.mp (List.count_pos_iff.mp (show 0 < (s.obtained.map Prod.fst).count e.1 by omega))
    have hsame : e = e' := Prod.ext heq.symm ((hf e he).trans (ho e' he').symm)
    rw [hsame]
    exact he'
  · have hnil := h.unfreed (by
      by_cases hre : s.settings.slab_reassign = true
      · exact Or.inr fun hb => hr ⟨hre, hb⟩
      · exact Or.inl (Bool.eq_false_iff.mpr hre))
    rw [hnil] at he
    exact absurd he List.not_mem_nil

theorem Inv.conserved (h : Inv s 0) (hb : Books initial s) : Conserved initial s where
  once := fun _ _ _ _ _ hi hj hk hl => h.core.once hi hj hk hl
  placed := h.core.count
  real := by
    intro i hi hn
    obtain ⟨q, hq⟩ := h.core.some_of_mem hi hn
    cases hq
  source := by
    intro hsig
    obtain ⟨p, hstart, hhead⟩ := (h.moving hsig).head
    rw [hstart, ← List.head?_eq_getElem?]
    exact ⟨Option.some_ne_none p, hhead⟩
  no_underflow := by
    intro hdone
    obtain ⟨p, _, hhead⟩ := (h.moving_of_done hdone).head
    exact (h.core.shift (h.lt_classes h.src_le) hhead).1
  account := hb.account
  priced := fun _ he => hb.priced h.core he

/-- A safe section in which `malloc` does not fail. -/
def SoundStep (s : Slabs) (op : Op) (s' : Slabs) : Prop :=
  (s.Enabled op ∧ s.PageSafe op ∧ s.MallocSafe op) ∧ s' = s.exec op

theorem books_slabs_init (settings : SlabSettings) (table : ClassTable) (limit initial : Nat)
    (base : Option Nat) : Books initial (slabs_init settings table limit initial base) where
  account := rfl
  sizes := fun _ _ => ⟨fun _ he => absurd he List.not_mem_nil, fun _ he => absurd he List.not_mem_nil⟩
  unfreed := fun _ => rfl

/-- In every run of sound sections each page is in one list, or freed, and `mem_malloced` adds up. -/
theorem pages_conserved {settings : SlabSettings} {table : ClassTable} {limit initial : Nat}
    {base : Option Nat} {ops : List Op} {s : Slabs}
    (h : Run SoundStep (slabs_init settings table limit initial base) ops s) : Conserved initial s := by
  have hboth := h.invariant (P := fun s => Inv s 0 ∧ Books initial s)
    (fun hi hst => by
      obtain ⟨⟨hen, hsafe, hmalloc⟩, rfl⟩ := hst
      exact ⟨hi.1.exec hen hsafe, hi.2.exec hi.1 hen hsafe hmalloc⟩)
    ⟨inv_slabs_init settings table limit initial base, books_slabs_init settings table limit initial base⟩
  exact hboth.1.conserved hboth.2

/-- Three pages are prefilled; the first moves to class 1, and `others` run meanwhile. -/
def move_out_of_pool (others : List Op) : List Op :=
  [.slabs_prefill_global (List.replicate 3 { realloc_ok := true, malloc := none }), .slabs_reassign 0 1,
    .slab_rebalance_start true] ++ others ++ [.slab_rebalance_finish]

theorem pages_conserved_witness :
    Conserved 0 ((move_out_of_pool [newslab 1, newslab 2]).foldl exec (small 192 (some 0))) := by
  have hrun : Run SoundStep (small 192 (some 0)) (move_out_of_pool [newslab 1, newslab 2])
      ((move_out_of_pool [newslab 1, newslab 2]).foldl exec (small 192 (some 0))) :=
    Guarded.run (by decide +kernel)
  exact pages_conserved hrun

/-- While the first page of the pool is being moved to class 1, three calls of `do_slabs_newslab` empty the pool
and take that page too: it ends in class 1 and in class 2, and the pool counts `2 ^ 32 - 1` pages. And a `malloc`
that fails is charged to `mem_malloced`. -/
theorem pages_doubly_owned :
    (∃ s, Run Step (small 192 (some 0)) (move_out_of_pool [newslab 1, newslab 1, newslab 2]) s ∧ ¬ Conserved 0 s ∧
      (s.slabclass SLAB_GLOBAL_PAGE_POOL).slabs = 2 ^ 32 - 1) ∧
    (∃ s, Run Step (small 192 none) [newslab 1] s ∧ ¬ Conserved 0 s) := by
  refine ⟨⟨_, Guarded.run (by decide +kernel), fun h => ?_, by decide +kernel⟩,
    ⟨_, Guarded.run (by decide +kernel), fun h => absurd h.account (by decide +kernel)⟩⟩
  have htwice := h.once 1 2 2 0 (some 0) (by decide) (by decide) (by decide +kernel) (by decide +kernel)
  exact absurd htwice.1 (by decide)

end Memcached.MemoryLru.Slabs

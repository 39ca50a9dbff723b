import Memcached.MemoryLru.Lemmas.PageSteps

/-!
# The sections under slabs_lock

Start-up, allocation, the memory limit and the three steps of the rebalancer. Each keeps `Inv` where it is
`PageSafe`; `Inv.exec` puts them together.
-/

namespace Memcached.MemoryLru.Slabs

variable {s s' : Slabs} {loose : Multiset (Option Page)}

/-! ## Start-up -/

theorem owned_of_empty (h : ∀ i, (s.slabclass i).pages = []) : s.owned = 0 := by
  unfold owned
  generalize MAX_NUMBER_OF_SLAB_CLASSES = n
  exact Finset.sum_eq_zero fun i _ => by rw [h i]; rfl

theorem inv_slabs_init (settings : SlabSettings) (table : ClassTable) (limit initial_malloc : Nat)
    (base : Option Nat) : Inv (slabs_init settings table limit initial_malloc base) 0 where
  core := {
    power := table.power_lt
    bytes_pos := table.bytes_pos
    fits := fun _ => Nat.le_refl _
    block := fun _ => rfl
    width := fun _ => by simp [slabs_init]
    tame := rfl
    placed := by rw [owned_of_empty fun _ => rfl]; rfl
    nodup := by rw [owned_of_empty fun _ => rfl]; exact Multiset.nodup_zero
    prealloc := fun _ => ⟨rfl, fun _ he => absurd he List.not_mem_nil⟩ }
  src_le := Nat.zero_le _
  dst_le := Nat.zero_le _
  moving := fun h => absurd h (by simp [slabs_init])
  idle := fun _ => ⟨rfl, rfl⟩

theorem live_memory_allocate {size : Nat} {malloc : Option Page} (hbase : s.mem_base = none) {p : Page}
    (hp : malloc ≠ some p) : (s.memory_allocate size malloc).2.Live p ↔ s.Live p := by
  unfold Live memory_allocate
  rw [hbase]
  cases malloc with
  | none => rfl
  | some q =>
      have hqp : q ≠ p := fun h => hp (by rw [h])
      simp [List.count_cons_of_ne hqp]

theorem slabs_prefill_loop_inv (envs : List MallocEnv) : ∀ {s : Slabs}, Inv s 0 → s.slab_rebalance_signal ≠ 2 →
    (s.mem_base = none → ∀ env ∈ envs, env.Fresh s) → (envs.filterMap MallocEnv.malloc).Nodup →
    (∀ env ∈ envs, env.realloc_ok = true) → (s.slabclass SLAB_GLOBAL_PAGE_POOL).slabs + envs.length < 2 ^ 31 →
    Inv (slabs_prefill_loop envs s) 0 := by
  induction envs with
  | nil => intro s h _ _ _ _ _; exact h
  | cons env envs ih =>
      intro s h hsig hfresh hnd hok hlen
      unfold slabs_prefill_loop
      by_cases hlim : s.mem_malloced < s.mem_limit
      · rw [if_pos hlim]
        have hinv : Inv (s.memory_allocate s.settings.slab_page_size env.malloc).2
            ((s.memory_allocate s.settings.slab_page_size env.malloc).1.elim 0 fun p => some p ::ₘ 0) :=
          h.memory_allocate s.settings.page_pos fun hb => hfresh hb env List.mem_cons_self
        obtain ⟨hcls, hp, hr, hsg, _, hf, hbase⟩ := memory_allocate_frame s s.settings.slab_page_size env.malloc
        have hlive : s.mem_base = none → ∀ p, env.malloc ≠ some p →
            ((s.memory_allocate s.settings.slab_page_size env.malloc).2.Live p ↔ s.Live p) :=
          fun hb _ hm => live_memory_allocate hb hm
        have hgot := memory_allocate_some s s.settings.slab_page_size env.malloc
        cases halloc : s.memory_allocate s.settings.slab_page_size env.malloc with
        | mk o t =>
            rw [halloc] at hinv hcls hp hr hsg hf hlive hbase hgot
            cases o with
            | none => exact hinv
            | some p =>
                have hzero : SLAB_GLOBAL_PAGE_POOL ≤ t.power_largest := Nat.zero_le _
                have hsafe : t.GrowSafe SLAB_GLOBAL_PAGE_POOL env.realloc_ok := by
                  intro hfull _
                  rw [← hfull, hcls]
                  omega
                have hg := hinv.grow hzero hsafe
                obtain ⟨_, hiff, hroom, hgcls⟩ := grow_spec hinv.core (hinv.lt_classes hzero) hsafe
                obtain ⟨_, hgsig, _, hgbase, _, _, _, _, hgo, hgf⟩ :=
                  grow_frame t SLAB_GLOBAL_PAGE_POOL env.realloc_ok
                have hroom := hroom (hiff.mpr (Or.inr (hok env List.mem_cons_self)))
                have hno2 : (t.grow_slab_list SLAB_GLOBAL_PAGE_POOL env.realloc_ok).2.slab_rebalance_signal ≠ 2 := by
                  rw [hgsig, hsg]; exact hsig
                refine ih (hg.append_page (Nat.zero_le _) hroom fun hm => absurd hm.1 hno2) hno2 ?_ ?_ ?_ ?_
                · -- the page just obtained is none of those still to come
                  intro hb e he q hq hl
                  have hb : s.mem_base = none := by rw [← hbase, ← hgbase]; exact hb
                  have hpq : env.malloc ≠ some q := by
                    intro heq
                    simp only [List.filterMap_cons, heq] at hnd
                    exact (List.nodup_cons.mp hnd).1 (List.mem_filterMap.mpr ⟨e, he, hq⟩)
                  have hl' : t.Live q := by unfold Live at hl ⊢; rw [← hgo, ← hgf]; exact hl
                  exact hfresh hb e (List.mem_cons_of_mem _ he) q hq ((hlive hb q hpq).mp hl')
                · rw [List.filterMap_cons] at hnd
                  cases hm : env.malloc with
                  | none => rw [hm] at hnd; exact hnd
                  | some q => rw [hm] at hnd; exact (List.nodup_cons.mp hnd).2
                · exact fun e he => hok e (List.mem_cons_of_mem _ he)
                · have hs : ((t.grow_slab_list SLAB_GLOBAL_PAGE_POOL env.realloc_ok).2.slabclass
                      SLAB_GLOBAL_PAGE_POOL).slabs = (s.slabclass SLAB_GLOBAL_PAGE_POOL).slabs := by
                    rw [(hgcls _).1, hcls]
                  simp only [Slabs.append_page, setClass, Function.update_self, hs]
                  rw [List.length_cons] at hlen
                  omega
      · rw [if_neg hlim]; exact h

/-! ## Allocation and the memory limit -/

/-- What `do_slabs_alloc` does to pages: nothing, unless it calls `do_slabs_newslab`. -/
theorem erase_do_slabs_alloc (s : Slabs) (size id flags : Nat) (env : MallocEnv) :
    (s.do_slabs_alloc size id flags env).2.2.erase = s.erase ∨
    POWER_SMALLEST ≤ id ∧ id ≤ s.power_largest ∧ (s.slabclass id).sl_curr = 0 ∧ flags ≠ SLABS_ALLOC_NO_NEWPAGE ∧
      (s.do_slabs_alloc size id flags env).2.2.erase = (s.do_slabs_newslab id env).2.erase := by
  have hlast : ∀ t : Slabs, (if (t.slabclass id).sl_curr ≠ 0 then
      (true, some (s.slabclass id).requested, t.setClass id { t.slabclass id with
        sl_curr := (t.slabclass id).sl_curr - 1
        requested := (t.slabclass id).requested + UInt64.ofNat size })
      else (false, some (s.slabclass id).requested, t) : Bool × Option UInt64 × Slabs).2.2.erase = t.erase := by
    intro t
    split
    · exact erase_setClass t id _ rfl rfl rfl rfl rfl
    · rfl
  unfold do_slabs_alloc
  by_cases hid : id < POWER_SMALLEST ∨ id > s.power_largest
  · rw [if_pos hid]; exact Or.inl rfl
  rw [if_neg hid]
  rw [not_or, Nat.not_lt, gt_iff_lt, Nat.not_lt] at hid
  by_cases hc : (s.slabclass id).sl_curr = 0 ∧ flags ≠ SLABS_ALLOC_NO_NEWPAGE
  · simp only [if_pos hc]
    exact Or.inr ⟨hid.1, hid.2, hc.1, hc.2, hlast _⟩
  · simp only [if_neg hc]
    exact Or.inl (hlast s)

theorem Inv.do_slabs_alloc (h : Inv s 0) {size id flags : Nat} {env : MallocEnv} (hfresh : env.Fresh s)
    (hsafe : POWER_SMALLEST ≤ id → id ≤ s.power_largest → (s.slabclass id).sl_curr = 0 →
      flags ≠ SLABS_ALLOC_NO_NEWPAGE → s.NewslabSafe id env) :
    Inv (s.do_slabs_alloc size id flags env).2.2 0 := by
  rcases erase_do_slabs_alloc s size id flags env with he | ⟨h1, h2, hempty, hflags, he⟩
  · exact h.of_erase he
  · exact (h.do_slabs_newslab h1 h2 hfresh (hsafe h1 h2 hempty hflags)).of_erase he

theorem Inv.do_slabs_adjust_mem_limit (h : Inv s 0) {n : Nat}
    (hsafe : s.MovingFrom SLAB_GLOBAL_PAGE_POOL → s.mem_base = none → s.settings.slab_reassign = true →
      s.mem_malloced ≤ n + ((s.slabclass SLAB_GLOBAL_PAGE_POOL).slabs - 1) * s.settings.slab_page_size) :
    Inv (s.do_slabs_adjust_mem_limit n).2 0 := by
  unfold Slabs.do_slabs_adjust_mem_limit
  split
  · exact h
  · have hset : Inv { s with mem_limit := n, mem_limit_reached := false } 0 :=
      h.frame (h.core.frame rfl rfl rfl rfl rfl rfl rfl) rfl rfl rfl rfl
    exact hset.memory_release hsafe

/-! ## The rebalancer -/

theorem Inv.do_slabs_reassign (h : Inv s 0) (src dst : Int) : Inv (s.do_slabs_reassign src dst).2 0 := by
  have hpick : ∀ n, Inv { s with pick_cur := n } 0 := fun n =>
    h.frame (h.core.frame rfl rfl rfl rfl rfl rfl rfl) rfl rfl rfl rfl
  unfold Slabs.do_slabs_reassign
  by_cases h0 : s.slab_rebalance_signal ≠ 0
  · rw [if_pos h0]; exact h
  rw [if_neg h0]
  rw [not_not] at h0
  by_cases hsd : src = dst
  · rw [if_pos hsd]; exact h
  rw [if_neg hsd]
  obtain ⟨i, n, hpicked⟩ : ∃ i n, (if src = -1 then s.slabs_reassign_pick_any dst else (src, s)) =
      (i, { s with pick_cur := n }) := by
    split
    · exact ⟨_, _, rfl⟩
    · exact ⟨src, s.pick_cur, rfl⟩
  dsimp only
  rw [hpicked]
  dsimp only
  split
  · exact hpick n
  · rename_i hrange
    simp only [not_or, Int.not_lt, gt_iff_lt] at hrange
    split
    · exact hpick n
    · exact {
        core := h.core.frame rfl rfl rfl rfl rfl rfl rfl
        src_le := by simp only; omega
        dst_le := by simp only; omega
        moving := fun h1 => absurd h1 (by simp)
        idle := fun _ => h.idle (by rw [h0]; decide) }

theorem head?_pages {c : Slabclass} (hpos : 0 < c.slabs) (hlen : c.slabs ≤ c.slab_list.length) :
    c.pages.head? = some (c.slab_list.getD 0 none) := by
  obtain ⟨n, hn⟩ : ∃ n, c.slabs = n + 1 := ⟨c.slabs - 1, by omega⟩
  cases hl : c.slab_list with
  | nil => rw [hl, List.length_nil] at hlen; omega
  | cons p ps => simp [Slabclass.pages, hl, hn]

theorem Inv.slab_rebalance_start (h : Inv s 0) {ok : Bool} (hsig : s.slab_rebalance_signal = 1)
    (hsafe : s.GrowSafe s.slab_rebal.d_clsid ok) : Inv (s.slab_rebalance_start ok) 0 := by
  have hg := h.grow h.dst_le hsafe
  obtain ⟨_, hiff, hroom, hcls⟩ := grow_spec h.core (h.lt_classes h.dst_le) hsafe
  obtain ⟨hr, hs, hp, _⟩ := grow_frame s s.slab_rebal.d_clsid ok
  have hidle := h.idle (by rw [hsig]; decide)
  unfold Slabs.slab_rebalance_start
  dsimp only
  generalize s.grow_slab_list s.slab_rebal.d_clsid ok = g at hg hiff hroom hcls hr hs hp ⊢
  split
  · exact {
      core := hg.core.frame rfl rfl rfl rfl rfl rfl rfl
      src_le := hg.src_le
      dst_le := hg.dst_le
      moving := fun h2 => absurd h2 (by simp)
      idle := fun _ => by simp only; rw [hr]; exact hidle }
  · rename_i hgo
    simp only [not_or, gt_iff_lt, Nat.not_lt, Bool.not_eq_false] at hgo
    obtain ⟨⟨hsrc, hdst, hne⟩, hb, htwo⟩ := hgo
    have hhead := head?_pages (c := g.2.slabclass s.slab_rebal.s_clsid) (by omega)
      (by rw [hg.core.block]; exact hg.core.fits _)
    obtain ⟨q, hq⟩ := hg.core.some_of_mem (i := s.slab_rebal.s_clsid) (h.lt_classes hsrc) (List.mem_of_head? hhead)
    rw [hq] at hhead
    exact {
      core := hg.core.frame rfl rfl rfl rfl rfl rfl rfl
      src_le := by simp only; rw [hp]; exact hsrc
      dst_le := by simp only; rw [hp]; exact hdst
      moving := fun _ => {
        ne := hne
        head := ⟨q, hq, hhead⟩
        room := hroom hb }
      idle := fun h2 => absurd rfl h2 }

/-- `s'` is `s` but for chunk counts and how far the move has come. -/
def Progressed (s s' : Slabs) : Prop :=
  ∃ r : SlabRebalance, s'.erase = { s.erase with slab_rebal := r } ∧ r.s_clsid = s.slab_rebal.s_clsid ∧
    r.d_clsid = s.slab_rebal.d_clsid ∧ r.slab_start = s.slab_rebal.slab_start

theorem Progressed.of_erase (h : s'.erase = s.erase) : Progressed s s' :=
  ⟨s.slab_rebal, h, rfl, rfl, rfl⟩

theorem Progressed.trans {s'' : Slabs} (h : Progressed s s') (h' : Progressed s' s'') : Progressed s s'' := by
  obtain ⟨r, he, hsrc, hdst, hstart⟩ := h
  obtain ⟨r', he', hsrc', hdst', hstart'⟩ := h'
  have hr : s'.slab_rebal = r := congrArg (fun t : Slabs => t.slab_rebal) he
  refine ⟨r', ?_, ?_, ?_, ?_⟩
  · rw [he', he]
  · rw [hsrc', hr, hsrc]
  · rw [hdst', hr, hdst]
  · rw [hstart', hr, hstart]

theorem progressed_move_piece (s : Slabs) (piece : Piece) : Progressed s (s.move_piece piece) := by
  cases piece with
  | pass => exact .of_erase rfl
  | from_slab => exact .of_erase (erase_setClass s _ _ rfl rfl rfl rfl rfl)
  | rescued inline_reclaim requested_adjust => exact .of_erase (erase_setClass s _ _ rfl rfl rfl rfl rfl)
  | dropped it ntotal =>
      exact (Progressed.of_erase (erase_do_slabs_free s it ntotal s.slab_rebal.s_clsid)).trans
        ⟨_, rfl, rfl, rfl, rfl⟩
  | busy => exact ⟨_, rfl, rfl, rfl, rfl⟩

theorem progressed_move_loop (pieces : List Piece) : ∀ s : Slabs, Progressed s (move_loop pieces s) := by
  induction pieces with
  | nil => exact fun s => .of_erase rfl
  | cons piece pieces ih =>
      intro s
      have hone : Progressed s { s.move_piece piece with slab_rebal :=
          { (s.move_piece piece).slab_rebal with slab_pos := (s.move_piece piece).slab_rebal.slab_pos + 1 } } :=
        (progressed_move_piece s piece).trans ⟨_, rfl, rfl, rfl, rfl⟩
      unfold move_loop
      dsimp only
      split
      · exact hone
      · exact hone.trans (ih _)

theorem progressed_slab_rebalance_move (s : Slabs) (pieces : List Piece) :
    Progressed s (s.slab_rebalance_move pieces) := by
  refine (progressed_move_loop pieces s).trans ?_
  unfold slab_rebalance_move
  dsimp only
  split
  · split <;> exact ⟨_, rfl, rfl, rfl, rfl⟩
  · exact .of_erase rfl

theorem Inv.slab_rebalance_move (h : Inv s 0) (hsig : s.slab_rebalance_signal = 2) (pieces : List Piece) :
    Inv (s.slab_rebalance_move pieces) 0 := by
  obtain ⟨r, he, hsrc, hdst, hstart⟩ := progressed_slab_rebalance_move s pieces
  have hm := h.moving hsig
  have hmid : Inv { s with slab_rebal := r } 0 := {
    core := h.core.frame rfl rfl rfl rfl rfl rfl rfl
    src_le := by simp only [hsrc]; exact h.src_le
    dst_le := by simp only [hdst]; exact h.dst_le
    moving := fun _ => {
      ne := by simp only [hsrc, hdst]; exact hm.ne
      head := by simp only [hsrc, hstart]; exact hm.head
      room := by simp only [hdst]; exact hm.room }
    idle := fun h2 => absurd hsig h2 }
  exact hmid.of_erase he

/-! ## The end of a move -/

theorem memory_release_loop_rebal (n : Nat) (r : SlabRebalance) (sig : Nat) : ∀ s : Slabs,
    memory_release_loop n { s with slab_rebal := r, slab_rebalance_signal := sig } =
      { memory_release_loop n s with slab_rebal := r, slab_rebalance_signal := sig } := by
  induction n with
  | zero => exact fun s => rfl
  | succ n ih =>
      intro s
      simp only [memory_release_loop, get_page_from_global_pool]
      by_cases hover : s.mem_malloced > s.mem_limit
      · rw [if_pos hover, if_pos hover]
        by_cases h1 : (s.slabclass SLAB_GLOBAL_PAGE_POOL).slabs < 1
        · rw [if_pos h1, if_pos h1]
        · rw [if_neg h1, if_neg h1]
          cases (s.slabclass SLAB_GLOBAL_PAGE_POOL).slab_list.getD
              ((s.slabclass SLAB_GLOBAL_PAGE_POOL).slabs - 1) none with
          | none => rfl
          | some p => exact ih { s.setClass SLAB_GLOBAL_PAGE_POOL { s.slabclass SLAB_GLOBAL_PAGE_POOL with
                slabs := decr (s.slabclass SLAB_GLOBAL_PAGE_POOL).slabs } with
              mem_malloced := s.mem_malloced - s.settings.slab_page_size
              freed := (p, s.settings.slab_page_size) :: s.freed }
      · rw [if_neg hover, if_neg hover]

theorem memory_release_rebal (r : SlabRebalance) (sig : Nat) (s : Slabs) :
    memory_release { s with slab_rebal := r, slab_rebalance_signal := sig } =
      { s.memory_release with slab_rebal := r, slab_rebalance_signal := sig } := by
  unfold memory_release
  dsimp only
  split
  · rfl
  · split
    · rfl
    · exact memory_release_loop_rebal _ r sig s

/-- Shuffling the list of the source backwards takes its first page in hand. -/
theorem Core.shift (h : Core s 0) {id : Nat} (hid : id < MAX_NUMBER_OF_SLAB_CLASSES) {p : Option Page}
    (hhead : (s.slabclass id).pages.head? = some p) :
    0 < (s.slabclass id).slabs ∧ decr (s.slabclass id).slabs = (s.slabclass id).slabs - 1 ∧
    Core (s.setClass id { s.slabclass id with
      slabs := decr (s.slabclass id).slabs
      slab_list := shift_list (s.slabclass id).slab_list 0 (decr (s.slabclass id).slabs) }) (p ::ₘ 0) := by
  have hfit := h.fits id
  have hblock := h.block id
  have hwidth := h.width id
  have hpos : 0 < (s.slabclass id).slabs := by
    by_contra h0
    rw [Slabclass.pages, Nat.eq_zero_of_not_pos h0] at hhead
    simp at hhead
  have hdecr := decr_of_pos hpos (by omega)
  obtain ⟨n, hn⟩ : ∃ n, (s.slabclass id).slabs = n + 1 := ⟨(s.slabclass id).slabs - 1, by omega⟩
  obtain ⟨hlen, htake⟩ := shift_list_spec n (s.slabclass id).slab_list 0 (by omega)
  refine ⟨hpos, hdecr, ?_⟩
  rw [hdecr, hn, Nat.add_one_sub_one]
  refine h.setClass hid rfl rfl (by simp only; omega) (by simp only; rw [hlen]; exact hblock) hwidth ?_
  have hold : (s.slabclass id).pages = p :: ((s.slabclass id).slab_list.drop 1).take n := by
    cases hl : (s.slabclass id).slab_list with
    | nil => rw [hl, List.length_nil] at hblock; omega
    | cons q qs =>
        rw [Slabclass.pages, hl, hn, List.take_succ_cons] at hhead ⊢
        rw [List.head?_cons, Option.some.injEq] at hhead
        rw [hhead, List.drop_succ_cons, List.drop_zero]
  rw [Nat.zero_add, List.take_zero, List.nil_append] at htake
  rw [hold, Slabclass.pages, htake, ← Multiset.cons_coe, Multiset.add_cons, add_zero, add_zero]

/-- The lists as `slab_rebalance_finish` leaves them: the page is gone from its source and at the end of its
new list. -/
def moved (s : Slabs) : Slabs :=
  (s.setClass s.slab_rebal.s_clsid { s.slabclass s.slab_rebal.s_clsid with
    slabs := decr (s.slabclass s.slab_rebal.s_clsid).slabs
    slab_list := shift_list (s.slabclass s.slab_rebal.s_clsid).slab_list 0
      (decr (s.slabclass s.slab_rebal.s_clsid).slabs) }).append_page s.slab_rebal.d_clsid s.slab_rebal.slab_start

theorem Inv.moving_of_done (h : Inv s loose) (hdone : s.slab_rebal.done ≠ 0) : Moving s :=
  h.moving (by_contra fun hne => hdone (h.idle hne).2)

theorem Inv.moved (h : Inv s 0) (hdone : s.slab_rebal.done ≠ 0) : Core s.moved 0 := by
  obtain ⟨hne, ⟨p, hstart, hhead⟩, hroom⟩ := h.moving_of_done hdone
  obtain ⟨_, _, hshift⟩ := h.core.shift (h.lt_classes h.src_le) hhead
  rw [← hstart] at hshift
  exact append_page_core hshift (h.lt_classes h.dst_le) (by
    simp only [setClass, Function.update_of_ne (Ne.symm hne)]; exact hroom)

theorem Inv.slab_rebalance_finish (h : Inv s 0) (hdone : s.slab_rebal.done ≠ 0) :
    Inv s.slab_rebalance_finish 0 := by
  have hmoved := h.moved hdone
  have hidle : ∀ {u : Slabs} {r : SlabRebalance}, Core u 0 → r.s_clsid = 0 → r.d_clsid = 0 → r.slab_start = none →
      r.done = 0 → Inv { u with slab_rebal := r, slab_rebalance_signal := 0 } 0 := by
    intro u r hc hs hd h1 h2
    exact {
      core := hc.frame rfl rfl rfl rfl rfl rfl rfl
      src_le := by simp only [hs]; exact Nat.zero_le _
      dst_le := by simp only [hd]; exact Nat.zero_le _
      moving := fun h2 => absurd h2 (by simp)
      idle := fun _ => ⟨h1, h2⟩ }
  unfold Slabs.slab_rebalance_finish
  change Inv { (if s.slab_rebal.d_clsid > SLAB_GLOBAL_PAGE_POOL
    then s.moved.split_slab_page_into_freelist s.slab_rebal.d_clsid
    else Slabs.memory_release { s.moved with mem_limit_reached := false }) with
      slab_rebal := _, slab_rebalance_signal := 0 } 0
  split
  · exact hidle (hmoved.of_erase (erase_split s.moved _)) rfl rfl rfl rfl
  · rw [← memory_release_rebal]
    have hpre := hidle (u := { s.moved with mem_limit_reached := false })
      (r := ⟨none, 0, 0, 0, s.slab_rebal.busy_items, 0, 0⟩) (hmoved.frame rfl rfl rfl rfl rfl rfl rfl) rfl rfl rfl rfl
    exact hpre.memory_release fun hm => absurd hm.1 (by simp)

/-! ## All sections -/

theorem Inv.exec (h : Inv s 0) {op : Op} (hen : s.Enabled op) (hsafe : s.PageSafe op) : Inv (s.exec op) 0 := by
  cases op with
  | slabs_prefill_global envs =>
      obtain ⟨hsig, _, hfresh, hnd, _⟩ := hen
      have hloop := slabs_prefill_loop_inv envs h (by rw [hsig]; decide) (fun _ => hfresh) hnd hsafe.1 hsafe.2
      exact hloop.frame (hloop.core.frame rfl rfl rfl rfl rfl rfl rfl) rfl rfl rfl rfl
  | do_slabs_newslab id env => exact h.do_slabs_newslab hen.1 hen.2.1 hen.2.2 hsafe
  | slabs_alloc size id flags env => exact h.do_slabs_alloc hen hsafe
  | slabs_free it size id => exact h.of_erase (erase_do_slabs_free s it size id)
  | slabs_adjust_mem_limit n => exact h.do_slabs_adjust_mem_limit hsafe
  | slabs_reassign src dst => exact h.do_slabs_reassign src dst
  | slab_rebalance_start ok => exact h.slab_rebalance_start hen hsafe
  | slab_rebalance_move pieces => exact h.slab_rebalance_move hen.1 pieces
  | slab_rebalance_finish => exact h.slab_rebalance_finish hen

end Memcached.MemoryLru.Slabs

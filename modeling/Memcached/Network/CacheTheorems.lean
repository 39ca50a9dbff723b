import Memcached.Network.Cache

/-!
# What becomes of the objects of a cache

Each object is constructed once, is with one client at a time, and is destructed before its buffer is freed. Where the pool
of a debug build cannot grow, the destructor is given the buffer and not the object.
-/

namespace Memcached.Network

open Function (update update_self update_of_ne)
open Lifecycle (Phase Mark)
open Thread (c_int)

/-- What a call is to the object in the buffer. -/
def CacheCall.mark (debug : Bool) : CacheCall → Mark Nat
  | .malloc ptr build => .make (Cache.get_object debug ptr) build
  | .constructor object ok => .build object ok
  | .cache_alloc object => .give object
  | .cache_free object => .take object
  | .destructor object => .tear object
  | .free ptr tear => .dispose (Cache.get_object debug ptr) tear

namespace Caches

variable {debug : Bool} {s s' : Caches} {phase phase' : Nat → Phase} {h h' : Nat} {c c' : Cache} {p q : Nat}

/-- The buffer is in the pool of the cache, at the place `i`. -/
def Pooled (s : Caches) (h i p : Nat) : Prop := ∃ c, s.caches h = some c ∧ i < c.freecurr ∧ c.ptr i = p

/-- The calls up to now are as they should be, and the objects stand as they say. -/
structure Tracked (debug : Bool) (s : Caches) (phase : Nat → Phase) : Prop where
  accepted : Lifecycle.run (fun _ => .absent) (s.calls.map (CacheCall.mark debug)) = some phase
  buffers : ∀ {o}, phase o ≠ .absent → ∃ p ∈ s.allocated, o = Cache.get_object debug p
  live : ∀ {h o}, (h, o) ∈ s.live → phase o = .used
  live_nodup : (s.live.map Prod.snd).Nodup
  pooled : ∀ {h i p}, s.Pooled h i p → phase (Cache.get_object debug p) = .idle
  distinct : ∀ {h i h' i' p}, s.Pooled h i p → s.Pooled h' i' p → h = h' ∧ i = i'

/-! ## Buffers -/

theorem get_object_inj (he : Cache.get_object debug p = Cache.get_object debug q) : p = q := by
  cases debug <;> simpa [Cache.get_object] using he

theorem Tracked.allocated (ht : Tracked debug s phase) (hp : phase (Cache.get_object debug p) ≠ .absent) : p ∈ s.allocated := by
  obtain ⟨q, hq, he⟩ := ht.buffers hp
  exact get_object_inj he ▸ hq

theorem Tracked.fresh (ht : Tracked debug s phase) (hp : p ∉ s.allocated) : phase (Cache.get_object debug p) = .absent := by
  by_contra habsent
  exact hp (ht.allocated habsent)

theorem Tracked.unpooled (ht : Tracked debug s phase) (hp : phase (Cache.get_object debug p) ≠ .idle) (h i : Nat) :
    ¬ s.Pooled h i p := fun hpool => hp (ht.pooled hpool)

theorem Tracked.not_live (ht : Tracked debug s phase) {o : Nat} (ho : phase o ≠ .used) (h : Nat) : (h, o) ∉ s.live :=
  fun hmem => ho (ht.live hmem)

/-- The calls are about one object, which is neither in a pool nor with a client. -/
theorem Tracked.call (ht : Tracked debug s phase) {calls : List CacheCall} {state : Phase}
    (hrun : Lifecycle.run phase (calls.map (CacheCall.mark debug)) = some (update phase (Cache.get_object debug p) state))
    (hbuffers : ∀ q, (q = p ∧ state ≠ .absent) ∨ (q ∈ s.allocated ∧ q ≠ p) → q ∈ calls.foldl track s.allocated)
    (hlive : ∀ h, (h, Cache.get_object debug p) ∉ s.live) (hunpooled : ∀ h i, ¬ s.Pooled h i p) :
    Tracked debug (s.call calls) (update phase (Cache.get_object debug p) state) where
  accepted := by
    rw [Caches.call, List.map_append]
    exact Lifecycle.run_trans ht.accepted hrun
  buffers {o} ho := by
    by_cases he : o = Cache.get_object debug p
    · subst he
      rw [update_self] at ho
      exact ⟨p, hbuffers p (.inl ⟨rfl, ho⟩), rfl⟩
    · rw [update_of_ne he] at ho
      obtain ⟨q, hq, rfl⟩ := ht.buffers ho
      exact ⟨q, hbuffers q (.inr ⟨hq, fun hqp => he (hqp ▸ rfl)⟩), rfl⟩
  live {h o} hmem := by
    have hne : o ≠ Cache.get_object debug p := fun he => hlive h (he ▸ hmem)
    rw [update_of_ne hne]
    exact ht.live hmem
  live_nodup := ht.live_nodup
  pooled {h i q} hp := by
    have hne : Cache.get_object debug q ≠ Cache.get_object debug p := fun he => hunpooled h i (get_object_inj he ▸ hp)
    rw [update_of_ne hne]
    exact ht.pooled hp
  distinct := ht.distinct

/-- The buffer has an object that can be given out, and no one has it. -/
structure Held (debug : Bool) (s : Caches) (phase : Nat → Phase) (p : Nat) : Prop where
  tracked : Tracked debug s phase
  idle : phase (Cache.get_object debug p) = .idle
  unpooled : ∀ h i, ¬ s.Pooled h i p

/-! ## Pools -/

theorem pooled_update {k i : Nat} : Pooled { s with caches := update s.caches h (some c) } k i p ↔
    k = h ∧ i < c.freecurr ∧ c.ptr i = p ∨ k ≠ h ∧ s.Pooled k i p := by
  by_cases hk : k = h
  · subst hk
    simp [Pooled, update_self]
  · simp [Pooled, hk]

/-- The last buffer of a pool is taken. -/
theorem Tracked.pop (ht : Tracked debug s phase) (hc : s.caches h = some c) (hn : 0 < c.freecurr) :
    Held debug { s with caches := update s.caches h (some { c with freecurr := c.freecurr - 1 }) } phase
      (c.ptr (c.freecurr - 1)) := by
  have hlast : s.Pooled h (c.freecurr - 1) (c.ptr (c.freecurr - 1)) := ⟨c, hc, by omega, rfl⟩
  have hold {k i p : Nat} (hp : Pooled { s with
      caches := update s.caches h (some { c with freecurr := c.freecurr - 1 }) } k i p) : s.Pooled k i p := by
    rcases pooled_update.mp hp with ⟨rfl, hi, rfl⟩ | ⟨-, hp⟩
    · exact ⟨c, hc, by dsimp only at hi; omega, rfl⟩
    · exact hp
  refine ⟨⟨ht.accepted, ht.buffers, ht.live, ht.live_nodup, fun hp => ht.pooled (hold hp),
    fun hp hq => ht.distinct (hold hp) (hold hq)⟩, ht.pooled hlast, fun k i hp => ?_⟩
  obtain ⟨rfl, rfl⟩ := ht.distinct (hold hp) hlast
  rcases pooled_update.mp hp with ⟨-, hi, -⟩ | ⟨hne, -⟩
  · simp at hi
  · exact hne rfl

/-- A buffer that no one has goes to a pool. -/
theorem Held.push (hh : Held debug s phase p) (hc : s.caches h = some c) (hptr : c'.ptr = update c.ptr c.freecurr p)
    (hn : c'.freecurr = c.freecurr + 1) : Tracked debug { s with caches := update s.caches h (some c') } phase := by
  have ht := hh.tracked
  have hnew {k i q : Nat} (hq : Pooled { s with caches := update s.caches h (some c') } k i q) :
      k = h ∧ i = c.freecurr ∧ q = p ∨ s.Pooled k i q := by
    rcases pooled_update.mp hq with ⟨rfl, hi, rfl⟩ | ⟨-, hq⟩
    · rw [hptr]
      by_cases hlast : i = c.freecurr
      · exact .inl ⟨rfl, hlast, by rw [hlast, update_self]⟩
      · exact .inr ⟨c, hc, by omega, (update_of_ne hlast ..).symm⟩
    · exact .inr hq
  refine ⟨ht.accepted, ht.buffers, ht.live, ht.live_nodup, fun hq => ?_, fun hq hq' => ?_⟩
  · rcases hnew hq with ⟨-, -, rfl⟩ | hq
    · exact hh.idle
    · exact ht.pooled hq
  · rcases hnew hq with ⟨rfl, rfl, rfl⟩ | hold
    · rcases hnew hq' with ⟨rfl, rfl, -⟩ | hold'
      · exact ⟨rfl, rfl⟩
      · exact absurd hold' (hh.unpooled _ _)
    · rcases hnew hq' with ⟨rfl, rfl, rfl⟩ | hold'
      · exact absurd hold (hh.unpooled _ _)
      · exact ht.distinct hold hold'

/-! ## Clients -/

/-- A client is given the object. -/
theorem Held.hand (hh : Held debug s phase p) (mem : Nat → UInt8) : Tracked debug
    ({ s with mem := mem, live := (h, Cache.get_object debug p) :: s.live }.call [.cache_alloc (Cache.get_object debug p)])
    (update phase (Cache.get_object debug p) .used) := by
  have hfree := hh.tracked.not_live (o := Cache.get_object debug p) (by simp [hh.idle])
  have ht : Tracked debug (s.call [.cache_alloc (Cache.get_object debug p)]) (update phase (Cache.get_object debug p) .used) :=
    hh.tracked.call (Lifecycle.run_cons (p := .used) (by simp [CacheCall.mark, Mark.object, hh.idle, Phase.after]) rfl)
      (fun q hq => ?_) hfree hh.unpooled
  · refine ⟨ht.accepted, ht.buffers, fun {k o} hmem => ?_, ?_, ht.pooled, ht.distinct⟩
    · rcases List.mem_cons.mp hmem with he | hmem
      · obtain ⟨rfl, rfl⟩ := Prod.mk.inj he
        rw [update_self]
      · exact ht.live hmem
    · refine List.nodup_cons.mpr ⟨fun hmem => ?_, ht.live_nodup⟩
      obtain ⟨⟨k, o⟩, hmem, rfl⟩ := List.mem_map.mp hmem
      exact hfree k hmem
  · rcases hq with ⟨rfl, -⟩ | ⟨hq, -⟩
    · exact hh.tracked.allocated (by simp [hh.idle])
    · exact hq

/-- A client gives an object back. -/
theorem Tracked.take_back (ht : Tracked debug s phase) {o : Nat} (hmem : (h, o) ∈ s.live) :
    ∃ p, o = Cache.get_object debug p ∧
      Held debug ({ s with live := s.live.erase (h, o) }.call [.cache_free o]) (update phase o .idle) p := by
  have hused := ht.live hmem
  obtain ⟨p, hp, rfl⟩ := ht.buffers (o := o) (by simp [hused])
  have hunpooled := ht.unpooled (p := p) (by simp [hused])
  have herase : Tracked debug { s with live := s.live.erase (h, Cache.get_object debug p) } phase :=
    ⟨ht.accepted, ht.buffers, fun hmem => ht.live (List.mem_of_mem_erase hmem),
      ht.live_nodup.sublist (List.erase_sublist.map _), ht.pooled, ht.distinct⟩
  have hgone (k : Nat) : (k, Cache.get_object debug p) ∉ s.live.erase (h, Cache.get_object debug p) := fun hk => by
    have hnodup := ht.live_nodup
    rw [(List.perm_cons_erase hmem).map Prod.snd |>.nodup_iff, List.map_cons, List.nodup_cons] at hnodup
    exact hnodup.1 (List.mem_map.mpr ⟨_, hk, rfl⟩)
  refine ⟨p, rfl, herase.call (Lifecycle.run_cons (p := .idle) (by simp [CacheCall.mark, Mark.object, hused, Phase.after]) rfl)
    (fun q hq => ?_) hgone hunpooled, update_self .., hunpooled⟩
  rcases hq with ⟨rfl, -⟩ | ⟨hq, -⟩
  · exact hp
  · exact hq

/-! ## Buffers come and go -/

theorem call_append (a b : List CacheCall) : s.call (a ++ b) = (s.call a).call b := by
  simp [Caches.call, List.append_assoc, List.foldl_append]

/-- A buffer is allocated, and the object in it constructed. -/
theorem Tracked.malloc (ht : Tracked debug s phase) (hp : p ∉ s.allocated) (build : Bool) :
    Held debug (s.call (.malloc p build :: if build then [.constructor (Cache.get_object debug p) true] else []))
      (update phase (Cache.get_object debug p) .idle) p := by
  have habsent := ht.fresh hp
  have hunpooled := ht.unpooled (p := p) (by simp [habsent])
  refine ⟨ht.call ?_ (fun q hq => ?_) (ht.not_live (by simp [habsent])) hunpooled, update_self .., hunpooled⟩
  · have hrun := Lifecycle.run_make habsent build
    cases build <;> exact hrun
  · have hq' : q ∈ p :: s.allocated := by
      rcases hq with ⟨rfl, -⟩ | ⟨hq, -⟩
      · exact List.mem_cons_self
      · exact List.mem_cons_of_mem _ hq
    cases build <;> exact hq'

theorem Tracked.constructor_failed (ht : Tracked debug s phase) (hp : p ∉ s.allocated) (tear : Bool) :
    Tracked debug (s.call [.malloc p true, .constructor (Cache.get_object debug p) false, .free p tear])
      (update phase (Cache.get_object debug p) .absent) := by
  have habsent := ht.fresh hp
  refine ht.call ?_ (fun q hq => ?_) (ht.not_live (by simp [habsent])) (ht.unpooled (by simp [habsent]))
  · simp [Lifecycle.run, Lifecycle.step, CacheCall.mark, Mark.object, habsent, Phase.after]
  · rcases hq with ⟨-, hne⟩ | ⟨hq, hne⟩
    · exact absurd rfl hne
    · simpa [track] using hq

theorem Held.dispose (hh : Held debug s phase p) (tear : Bool) :
    Tracked debug (s.call ((if tear then [.destructor (Cache.get_object debug p)] else []) ++ [.free p tear]))
      (update phase (Cache.get_object debug p) .absent) := by
  refine hh.tracked.call ?_ (fun q hq => ?_) (hh.tracked.not_live (by simp [hh.idle])) hh.unpooled
  · have hrun := Lifecycle.run_dispose hh.idle tear
    cases tear <;> exact hrun
  · rcases hq with ⟨-, hne⟩ | ⟨hq, hne⟩
    · exact absurd rfl hne
    · have hq' := (List.mem_erase_of_ne hne).mpr hq
      cases tear <;> exact hq'

/-- The pool is emptied, and the cache gone. -/
theorem Tracked.drain {n : Nat} (ht : Tracked debug s phase) (hc : s.caches h = some { c with freecurr := n }) :
    ∃ phase', Tracked debug ({ s with caches := update s.caches h none }.call (c.destroy debug n)) phase' := by
  induction n generalizing s phase with
  | zero =>
      have hold {k i p : Nat} (hp : Pooled { s with caches := update s.caches h none } k i p) : s.Pooled k i p := by
        obtain ⟨c', hc', hi, rfl⟩ := hp
        by_cases hk : k = h
        · subst hk
          simp at hc'
        · exact ⟨c', (update_of_ne hk ..).symm.trans hc', hi, rfl⟩
      have hgone : Tracked debug { s with caches := update s.caches h none } phase :=
        ⟨ht.accepted, ht.buffers, ht.live, ht.live_nodup, fun hp => ht.pooled (hold hp),
          fun hp hq => ht.distinct (hold hp) (hold hq)⟩
      refine ⟨phase, ?_⟩
      simpa [Cache.destroy, Caches.call] using hgone
  | succ n ih =>
      have hdisposed := (ht.pop hc (by simp)).dispose c.destructor
      obtain ⟨phase', h'⟩ := ih hdisposed (by simp [Caches.call])
      refine ⟨phase', ?_⟩
      have hsplit : c.destroy debug (n + 1) = ((if c.destructor then [.destructor (Cache.get_object debug (c.ptr n))] else []) ++
          [.free (c.ptr n) c.destructor]) ++ c.destroy debug n := by
        simp [Cache.destroy]
      rw [hsplit, call_append]
      simpa [Caches.call, Function.update_idem] using h'

/-! ## Steps -/

/-- An object comes back to a pool that has room for it, or can grow: in a debug build, if there is a destructor and the
redzones are whole. -/
def Room (debug : Bool) (s : Caches) : CacheEvent → Prop
  | .cache_free h object realloc => ∀ c, s.caches h = some c → c.validate debug s.mem object = none → debug → c.destructor →
      (c.freecurr : Int) < c.freetotal ∨ realloc
  | _ => True

theorem call_nil : s.call [] = s := by simp [Caches.call]

theorem Tracked.do_cache_alloc (ht : Tracked debug s phase) (hc : s.caches h = some c) {malloc : Option Nat}
    (hmalloc : ∀ ret ∈ malloc, 0 < ret ∧ ret ∉ s.allocated) (build : Bool) :
    ∃ phase', Tracked debug (s.do_cache_alloc debug h c malloc build) phase' := by
  have hsame : update s.caches h (some c) = s.caches := hc ▸ Function.update_eq_self h s.caches
  by_cases hn : c.freecurr > 0
  · simp only [Caches.do_cache_alloc, Cache.take, if_pos hn, call_nil]
    exact ⟨_, (ht.pop hc hn).hand _⟩
  · simp only [Caches.do_cache_alloc, Cache.take, if_neg hn]
    cases malloc with
    | none =>
        simp only [call_nil, hsame]
        exact ⟨_, ht⟩
    | some ret =>
        have hnew := (hmalloc ret rfl).2
        cases hctor : c.constructor with
        | false =>
            simp only [Bool.false_eq_true, if_false, hsame]
            exact ⟨_, (ht.malloc hnew false).hand _⟩
        | true =>
            cases build with
            | true =>
                simp only [if_true, hsame]
                exact ⟨_, (ht.malloc hnew true).hand _⟩
            | false =>
                simp only [if_true, Bool.false_eq_true, if_false, hsame]
                exact ⟨_, ht.constructor_failed hnew _⟩

theorem Tracked.do_cache_free (ht : Tracked debug s phase) (hc : s.caches h = some c) {o : Nat} (hmem : (h, o) ∈ s.live)
    {realloc : Bool} (hroom : s.Room debug (.cache_free h o realloc)) :
    ∃ phase', Tracked debug (s.do_cache_free debug h c o realloc) phase' := by
  obtain ⟨p, rfl, hh⟩ := ht.take_back hmem
  have hptr : (if debug then Cache.get_object debug p - 8 else Cache.get_object debug p) = p := by
    cases debug <;> simp [Cache.get_object]
  simp only [Caches.do_cache_free, hptr]
  cases hv : Cache.validate debug c s.mem (Cache.get_object debug p) with
  | some error =>
      simp only [Caches.call, hv]
      exact ⟨_, hh.tracked.accepted, hh.tracked.buffers, hh.tracked.live, hh.tracked.live_nodup, hh.tracked.pooled,
        hh.tracked.distinct⟩
  | none =>
      have hsame : update s.caches h (some c) = s.caches := hc ▸ Function.update_eq_self h s.caches
      simp only [Caches.call, hv, Cache.give]
      by_cases hn : (c.freecurr : Int) < c.freetotal
      · simp only [if_pos hn, List.append_nil]
        exact ⟨_, hh.push hc rfl rfl⟩
      cases realloc with
      | true =>
          simp only [if_neg hn, if_true, List.append_nil]
          exact ⟨_, hh.push hc rfl rfl⟩
      | false =>
          have hobject : c.destructor → Cache.get_object debug p = p := fun hd => by
            cases debug with
            | false => rfl
            | true => exact ((hroom c hc hv rfl hd).elim hn nofun).elim
          have hdisposed := hh.dispose c.destructor
          simp only [if_neg hn, Bool.false_eq_true, if_false, hsame]
          refine ⟨update (update phase (Cache.get_object debug p) .idle) (Cache.get_object debug p) .absent, ?_⟩
          cases hd : c.destructor with
          | false =>
              rw [hd] at hdisposed
              exact hdisposed
          | true =>
              rw [hd, hobject hd] at hdisposed
              rw [hobject hd]
              exact hdisposed

theorem Tracked.step {e : CacheEvent} (ht : Tracked debug s phase) (hstep : Step debug s e s') (hroom : s.Room debug e) :
    ∃ phase', Tracked debug s' phase' := by
  cases e with
  | cache_create h bufsize constructor destructor ok =>
      simp only [Step, Caches.step, Option.ite_none_right_eq_some, Option.some.injEq] at hstep
      obtain ⟨hnone, rfl⟩ := hstep
      cases ok with
      | false => exact ⟨_, ht⟩
      | true =>
          have hold {k i p : Nat} (hp : Pooled { s with
              caches := update s.caches h (some (.create debug bufsize constructor destructor)) } k i p) : s.Pooled k i p := by
            rcases pooled_update.mp hp with ⟨-, hi, -⟩ | ⟨-, hp⟩
            · exact absurd hi (Nat.not_lt_zero _)
            · exact hp
          exact ⟨phase, ht.accepted, ht.buffers, ht.live, ht.live_nodup, fun hp => ht.pooled (hold hp),
            fun hp hq => ht.distinct (hold hp) (hold hq)⟩
  | cache_alloc h malloc constructor =>
      obtain ⟨c, hc, hstep⟩ := Option.bind_eq_some_iff.mp hstep
      obtain ⟨hmalloc, rfl⟩ := Option.ite_none_right_eq_some.mp hstep |>.imp_right Option.some.inj
      exact ht.do_cache_alloc hc hmalloc constructor
  | cache_free h object realloc =>
      obtain ⟨c, hc, hstep⟩ := Option.bind_eq_some_iff.mp hstep
      obtain ⟨hguard, rfl⟩ := Option.ite_none_right_eq_some.mp hstep |>.imp_right Option.some.inj
      exact ht.do_cache_free hc hguard.1 hroom
  | write a b =>
      obtain rfl := Option.some.inj hstep
      exact ⟨phase, ht.accepted, ht.buffers, ht.live, ht.live_nodup, ht.pooled, ht.distinct⟩
  | cache_destroy h =>
      obtain ⟨c, hc, rfl⟩ := Option.map_eq_some_iff.mp hstep
      exact ht.drain hc

end Caches

/-! ## The size of the pool -/

namespace Cache

variable {debug : Bool} {c : Cache}

/-- The array grows up to the largest size that `realloc` is ever asked for. -/
structure Fits (c : Cache) : Prop where
  total : ∃ k ≤ 24, c.freetotal = (64 * 2 ^ k : Nat)
  fits : (c.freecurr : Int) ≤ c.freetotal

theorem newtotal_eq {n : Nat} (hn : n < 2 ^ 30) (htotal : c.freetotal = n) : c.newtotal = 2 * n := by
  rw [newtotal, htotal, Thread.c_int_of_lt (by omega) (by omega)]
  omega

/-- One more doubling, and `realloc` is asked for more than there is. -/
theorem new_size_last (htotal : c.freetotal = (64 * 2 ^ 24 : Nat)) : PTRDIFF_MAX < c.new_size := by
  rw [new_size, newtotal, htotal]
  decide

theorem Fits.give (hf : Fits c) {ptr : Nat} {realloc : Bool} (hsize : realloc → c.new_size ≤ PTRDIFF_MAX) :
    Fits (c.give ptr realloc).1 := by
  obtain ⟨k, hk, htotal⟩ := hf.total
  have hfits := hf.fits
  simp only [Cache.give]
  by_cases hn : (c.freecurr : Int) < c.freetotal
  · rw [if_pos hn]
    exact ⟨hf.total, hn⟩
  rw [if_neg hn]
  cases realloc with
  | false => exact hf
  | true =>
      have hlt : k < 24 := by
        refine Nat.lt_of_le_of_ne hk fun he => ?_
        subst he
        exact absurd (hsize rfl) (Nat.not_le.mpr (new_size_last htotal))
      have hle : 2 ^ k ≤ 2 ^ 23 := Nat.pow_le_pow_right (by omega) (by omega)
      have hpos : 0 < 2 ^ k := Nat.pow_pos (by omega)
      have hdouble : 64 * 2 ^ (k + 1) = 2 * (64 * 2 ^ k) := by rw [Nat.pow_succ]; omega
      have hnew : c_int c.newtotal = (64 * 2 ^ (k + 1) : Nat) := by
        rw [hdouble, newtotal_eq (by omega) htotal, Thread.c_int_of_lt (by omega) (by omega)]
      simp only [if_true, hnew]
      refine ⟨⟨k + 1, hlt, rfl⟩, ?_⟩
      dsimp only
      omega

end Cache

namespace Caches

variable {debug : Bool} {s s' : Caches} {h : Nat} {c : Cache}

theorem fits_update {caches : Nat → Option Cache} (hall : ∀ h c, caches h = some c → c.Fits) (hf : c.Fits) :
    ∀ k d, update caches h (some c) k = some d → d.Fits := by
  intro k d hd
  by_cases hk : k = h
  · subst hk
    rw [update_self] at hd
    exact Option.some.inj hd ▸ hf
  · rw [update_of_ne hk] at hd
    exact hall k d hd

theorem take_fits (hf : c.Fits) (malloc : Option Nat) (constructor : Bool) : (c.take debug malloc constructor).2.1.Fits := by
  have hfits := hf.fits
  simp only [Cache.take]
  split
  · exact ⟨hf.total, by dsimp only; omega⟩
  · cases malloc with
    | none => exact hf
    | some ret => split_ifs <;> exact hf

theorem step_fits {e : CacheEvent} (hall : ∀ h c, s.caches h = some c → c.Fits) (hstep : Step debug s e s') :
    ∀ h c, s'.caches h = some c → c.Fits := by
  cases e with
  | cache_create h bufsize constructor destructor ok =>
      simp only [Step, Caches.step, Option.ite_none_right_eq_some, Option.some.injEq] at hstep
      obtain ⟨-, rfl⟩ := hstep
      cases ok with
      | false => exact hall
      | true => exact fits_update hall ⟨⟨0, by omega, rfl⟩, Int.natCast_nonneg 64⟩
  | cache_alloc h malloc constructor =>
      obtain ⟨c, hc, hstep⟩ := Option.bind_eq_some_iff.mp hstep
      obtain ⟨-, rfl⟩ := Option.ite_none_right_eq_some.mp hstep |>.imp_right Option.some.inj
      have htake : (c.take debug malloc constructor).2.1.Fits := take_fits (hall h c hc) malloc constructor
      have hnew := fits_update (h := h) hall htake
      simp only [Caches.do_cache_alloc]
      split <;> exact hnew
  | cache_free h object realloc =>
      obtain ⟨c, hc, hstep⟩ := Option.bind_eq_some_iff.mp hstep
      obtain ⟨hguard, rfl⟩ := Option.ite_none_right_eq_some.mp hstep |>.imp_right Option.some.inj
      simp only [Caches.do_cache_free]
      split
      · exact hall
      · exact fits_update hall ((hall h c hc).give hguard.2)
  | write a b =>
      obtain rfl := Option.some.inj hstep
      exact hall
  | cache_destroy h =>
      obtain ⟨c, hc, rfl⟩ := Option.map_eq_some_iff.mp hstep
      intro k d hd
      by_cases hk : k = h
      · subst hk
        simp [Caches.call] at hd
      · exact hall k d ((update_of_ne hk ..).symm.trans hd)

theorem Tracked.init (mem : Nat → UInt8) : Tracked debug (init mem) fun _ => .absent where
  accepted := rfl
  buffers h := absurd rfl h
  live := nofun
  live_nodup := List.nodup_nil
  pooled := by
    rintro h i p ⟨c, hc, -⟩
    cases hc
  distinct := by
    rintro h i h' i' p ⟨c, hc, -⟩
    cases hc

/-! ## Runs -/

/-- A step for which the pool has room, where that matters. -/
def StepWithRoom (debug : Bool) (s : Caches) (e : CacheEvent) (s' : Caches) : Prop := Step debug s e s' ∧ s.Room debug e

/-- The calls are as the monitor has them: an object is constructed once and before it is given out, is not given out while a
client has it, and is destructed, under the pointer it was constructed with, before its buffer is freed. -/
theorem cache_calls {mem : Nat → UInt8} {es : List CacheEvent} (hrun : Transition.Run (StepWithRoom debug) (init mem) es s) :
    (∀ h c, s.caches h = some c → (c.freecurr : Int) ≤ c.freetotal) ∧
      (∀ h i h' i' p, s.Pooled h i p → s.Pooled h' i' p → h = h' ∧ i = i') ∧
      ∃ phase, Lifecycle.run (fun _ => .absent) (s.calls.map (CacheCall.mark debug)) = some phase ∧
        (∀ h o, (h, o) ∈ s.live → phase o = .used) ∧
        ∀ h i p, s.Pooled h i p → phase (Cache.get_object debug p) = .idle := by
  have hinv : (∃ phase, Tracked debug s phase) ∧ ∀ h c, s.caches h = some c → c.Fits :=
    hrun.invariant (P := fun s => (∃ phase, Tracked debug s phase) ∧ ∀ h c, s.caches h = some c → c.Fits)
      (fun hs hstep => ⟨hs.1.elim fun _ ht => ht.step hstep.1 hstep.2, step_fits hs.2 hstep.1⟩) ⟨⟨_, .init mem⟩, nofun⟩
  obtain ⟨⟨phase, ht⟩, hfits⟩ := hinv
  exact ⟨fun h c hc => (hfits h c hc).fits, fun _ _ _ _ _ => ht.distinct, phase, ht.accepted, fun _ _ => ht.live,
    fun _ _ _ => ht.pooled⟩

/-- A debug build: an object is constructed, used, and destructed with its cache. -/
theorem cache_calls_witness : ∃ s, Transition.Run (StepWithRoom true) (init fun _ => 0)
    [.cache_create 0 8 true true true, .cache_alloc 0 (some 1000) true, .cache_free 0 1008 true, .cache_destroy 0] s ∧
    ((∀ h c, s.caches h = some c → (c.freecurr : Int) ≤ c.freetotal) ∧
      (∀ h i h' i' p, s.Pooled h i p → s.Pooled h' i' p → h = h' ∧ i = i') ∧
      ∃ phase, Lifecycle.run (fun _ => .absent) (s.calls.map (CacheCall.mark true)) = some phase ∧
        (∀ h o, (h, o) ∈ s.live → phase o = .used) ∧
        ∀ h i p, s.Pooled h i p → phase (Cache.get_object true p) = .idle) := by
  have hrun : Transition.Run (StepWithRoom true) (init fun _ => 0) [.cache_create 0 8 true true true,
      .cache_alloc 0 (some 1000) true, .cache_free 0 1008 true, .cache_destroy 0] _ :=
    .cons ⟨rfl, trivial⟩ (.cons ⟨rfl, trivial⟩ (.cons ⟨rfl, fun _ _ _ _ _ => .inr rfl⟩ (.cons ⟨rfl, trivial⟩ (.nil _))))
  exact ⟨_, hrun, cache_calls hrun⟩

/-- Sixty-five objects of one cache are used, and the last finds the pool full and no memory for a larger one. -/
def overflow : List CacheEvent :=
  .cache_create 0 8 true true true :: (List.range 65).map (fun i => .cache_alloc 0 (some (1000 + 100 * i)) true) ++
    (List.range 65).map fun i => .cache_free 0 (1008 + 100 * i) false

/-- The destructor is called for the buffer of the last, where no object is. -/
theorem overflow_destructor : ¬ ∀ (debug : Bool) (mem : Nat → UInt8) (es : List CacheEvent) (s : Caches),
    Transition.Run (Step debug) (init mem) es s →
      (Lifecycle.run (fun _ => .absent) (s.calls.map (CacheCall.mark debug))).isSome := by
  intro h
  have hnone : (overflow.foldlM (Caches.step true) (init fun _ => 0)).map (fun s =>
      (Lifecycle.run (fun _ => .absent) (s.calls.map (CacheCall.mark true))).isSome) = some false := by decide +kernel
  obtain ⟨s, hs, hcalls⟩ := Option.map_eq_some_iff.mp hnone
  rw [h true (fun _ => 0) overflow s (.of_foldlM hs)] at hcalls
  cases hcalls

end Caches
end Memcached.Network

import Memcached.Lib.Run
import Memcached.SlabsCurd.Lemmas.Storing

/-!
# The cache is a map that loses entries

Whatever connections, pulls, crawlers and bumps do to the items, clients see a map from keys to values that loses entries and
changes none.
-/

namespace Memcached.SlabsCurd

open MemoryLru Lossy Transition

namespace ChunkCache

variable {cfg : Settings} {c c' : ChunkCache} {s s' : Store} {n : Nat} {key : MemoryLru.Key} {o : Seen}

/-! ## Gets -/

theorem mark_fetched_table {it : Ptr} {room : Bool} (h : s.mark_fetched cfg it room = some s') : s'.table = s.table := by
  obtain ⟨fetched, active, ⟨-, rfl | hupdate⟩ | ⟨-, rfl⟩⟩ := Store.mark_fetched_cases h
  · rfl
  · rw [(Store.do_item_update_kept hupdate).1.rest]
    rfl
  · rfl

/-- A get returns the item of the key, and none if the key is absent afterwards. -/
theorem do_item_get_table {do_update room : Bool} {r : Option Ptr}
    (hs : s.Sound) (h : s.do_item_get cfg key do_update room = some (s', r)) : s'.table key = r := by
  obtain ⟨htable, rfl, rfl⟩ | ⟨it, htable, hcases⟩ := Store.do_item_get_cases h
  · exact htable
  obtain ⟨-, rfl, s₁, hunlink, hremove⟩ | ⟨-, rfl, s₁, rfl, hs₁⟩ := hcases
  · exact do_item_get_dead hs htable hunlink hremove
  · obtain ⟨-, rfl⟩ | ⟨-, hmark⟩ := hs₁
    · exact htable
    · exact (congrFun (mark_fetched_table hmark) key).trans htable

theorem entry_after_get {do_update room : Bool} {r : Option Ptr} (hs : c.store.Sound)
    (h : c.store.do_item_get cfg key do_update room = some (s', r)) :
    ({ c with store := s' } : ChunkCache).entries cfg key = r.map (({ c with store := s' } : ChunkCache).record cfg) := by
  rw [entries, do_item_get_table hs h]

/-! ## Steps -/

theorem touch_refines {exptime : UInt32} {room : Bool} {it : Option Ptr} (h : c.Ready cfg)
    (hroom : ∀ m, c.store.refs m + 2 < 2 ^ 16) (htouch : c.store.do_item_touch cfg key exptime room = some (s', it)) :
    Ready cfg { c with store := s' } ∧ RecordMap.Step cfg (c.map cfg)
      (.touch key exptime (it.map (({ c with store := s' } : ChunkCache).record cfg)))
      (({ c with store := s' } : ChunkCache).map cfg) := by
  have hlive' := h.toLive.do_item_touch hroom htouch
  obtain ⟨s, hget, rfl⟩ := Store.do_item_touch_cases htouch
  have hfades := Store.Fades.do_item_get hget
  obtain ⟨hready, hloses⟩ := h.fades (h.toLive.do_item_get hroom hget) hfades
  have hentry := entry_after_get h.sound hget
  cases it with
  | none =>
      refine ⟨hready, _, _, hloses, ?_, .refl, fun _ _ _ _ he => by cases he⟩
      simp only [ChunkCache.map, Store.modify?, hfades.cas_id]
      exact .untouched hentry
  | some it =>
      have ht : s.table key = some it := do_item_get_table h.sound hget
      obtain ⟨m, rfl, hlinked, -, hused⟩ := hready.sound.entry ht
      let touched : ChunkCache := { c with store := s.modify (.item m) fun i => { i with exptime := exptime } }
      have hpasses : Passes (.item m) { c with store := s } touched :=
        .of_store (.of_core fun n hn => by rw [Store.modify_of_ne hn])
      have hitem : touched.store.heap (.item m) = { s.heap (.item m) with exptime := exptime } := by
        simp only [touched, Store.modify_self]
      have hunwritten : Unwritten { c with store := s } touched (.item m) := ⟨rfl, rfl, rfl⟩
      have hrecord : touched.record cfg (.item m) =
          { ({ c with store := s } : ChunkCache).record cfg (.item m) with exptime := exptime } := by
        simp only [ChunkCache.record, hunwritten.value (by rw [hitem]) (by rw [hitem]),
          hunwritten.flags (by rw [hitem]), hitem, Item.get_cas]
      refine ⟨hpasses.ready hready hlive' (fun n hn _ => ?_) fun n hn _ => ?_, ?_⟩
      · exact hunwritten.filled (by rw [hitem]) (by rw [hitem]) (hready.filled m hlinked)
      · exact (hready.sized m hused).congr (by rw [hitem]) (hunwritten.flags (by rw [hitem])) (by rw [hitem]) (by rw [hitem])
      · obtain ⟨m₁, hloses₁, hkey, heq⟩ := hpasses.put cfg hready.sound hlive'.sound ht
        refine ⟨m₁, _, hloses.trans hloses₁, ?_, .refl, fun _ _ _ _ he => by cases he⟩
        rw [hentry] at hkey
        change RecordMap.Does cfg ⟨m₁, c.store.cas_id⟩ (.touch key exptime (some (touched.record cfg (.item m))))
          ⟨touched.entries cfg, s.cas_id⟩
        rw [heq, hrecord, hfades.cas_id]
        exact .touch hkey

theorem alloc_refines {a : NewItem} {rounds : List Round} {it : Option Ptr} (h : c.Ready cfg) (hcfg : cfg.tail_repair_time = 0)
    (hroom : ∀ m, c.store.refs m + 2 < 2 ^ 16) (halloc : c.do_item_alloc cfg a rounds = some (c', it)) :
    c'.Ready cfg ∧ RecordMap.Step cfg (c.map cfg) .nothing (c'.map cfg) := by
  have hlow (m) : c.store.refs m + 1 < 2 ^ 16 := Nat.lt_of_succ_lt (hroom m)
  cases it with
  | none =>
      obtain ⟨s, hthin, rfl⟩ := do_item_alloc_none h.toLive hcfg hlow halloc
      obtain ⟨hready, hloses⟩ := h.fades (h.toLive.thinned hthin) hthin.fades
      refine ⟨hready, _, _, .refl, ?_, hloses, fun _ _ _ _ he => by cases he⟩
      simp only [ChunkCache.map, hthin.fades.cas_id]
      exact .nothing
  | some it =>
      obtain ⟨n, rfl, hmakes⟩ := do_item_alloc_some h.toLive hcfg hlow halloc
      have hunlinked : ¬ (c'.store.heap (.item n)).it_flags.linked := by simp [hmakes.item.linked]
      refine ⟨hmakes.passes.ready h hmakes.live (fun _ _ hl => absurd hl hunlinked) fun _ _ _ => hmakes.sized, _, _, .refl, ?_,
        hmakes.passes.loses h.sound hmakes.live.sound hunlinked, fun _ _ _ _ he => by cases he⟩
      simp only [ChunkCache.map, hmakes.cas_id]
      exact .nothing

/-- Each step keeps the cache in order, and is a step of the map. -/
theorem step_refines (h : c.Ready cfg) (hcfg : cfg.tail_repair_time = 0) (hstep : Step cfg c o c') :
    c'.Ready cfg ∧ RecordMap.Step cfg (c.map cfg) o (c'.map cfg) := by
  obtain ⟨act, ⟨hallowed, hjoins⟩, hstep⟩ := hstep
  cases act with
  | items e =>
      obtain ⟨hquiet, hroom, htold⟩ := hallowed
      obtain ⟨s, hs, hstep⟩ := Option.bind_eq_some_iff.mp hstep
      cases hstep
      have hfades := Store.Fades.step h.sound hquiet hs
      obtain ⟨hready, hloses⟩ := h.fades (h.toLive.step hcfg ⟨hs, hroom, htold⟩) hfades
      refine ⟨hready, c.entries cfg, c.entries cfg, .refl, ?_, hloses, fun _ _ _ _ he => by cases he⟩
      simp only [ChunkCache.map, hfades.cas_id]
      exact .nothing
  | get key do_update room =>
      obtain ⟨⟨s, it⟩, hget, hstep⟩ := Option.bind_eq_some_iff.mp hstep
      cases hstep
      have hfades := Store.Fades.do_item_get hget
      obtain ⟨hready, hloses⟩ := h.fades (h.toLive.do_item_get hallowed hget) hfades
      refine ⟨hready, _, _, hloses, ?_, .refl, fun _ _ _ _ he => by cases he⟩
      simp only [ChunkCache.map, hfades.cas_id]
      rw [← entry_after_get h.sound hget]
      exact .get
  | touch key exptime room =>
      obtain ⟨⟨s, it⟩, htouch, hstep⟩ := Option.bind_eq_some_iff.mp hstep
      cases hstep
      exact touch_refines h hallowed htouch
  | alloc a rounds =>
      obtain ⟨⟨c₁, it⟩, halloc, hstep⟩ := Option.bind_eq_some_iff.mp hstep
      cases hstep
      exact alloc_refines h hcfg hallowed halloc
  | upload n cas data chain =>
      cases hstep
      have hpasses : Passes (.item n) c (c.upload n cas data chain) :=
        ⟨.of_core fun q hq => by rw [upload, Store.modify_of_ne hq],
          fun q hq => ⟨Function.update_of_ne hq _ _, rfl, Function.update_of_ne hq _ _⟩⟩
      have hitem : (c.upload n cas data chain).store.heap (.item n) = (c.store.heap (.item n)).set_cas cas := Store.modify_self
      have hunlinked : ¬ ((c.upload n cas data chain).store.heap (.item n)).it_flags.linked := by
        rw [hitem, set_cas_eq]
        exact hallowed
      refine ⟨hpasses.ready h h.toLive.set_cas (fun _ _ hl => absurd hl hunlinked) fun _ _ hused => ?_, _, _, .refl,
        .nothing, hpasses.loses h.sound h.toLive.set_cas.sound hunlinked, fun _ _ _ _ he => by cases he⟩
      have hflags : (c.upload n cas data chain).flags cfg (.item n) = c.flags cfg (.item n) := by
        rw [Cache.flags, hitem, set_cas_eq]
        rfl
      rw [hitem, set_cas_eq] at hused
      exact (h.sized n hused).congr (by rw [hitem, set_cas_eq]) hflags (by rw [hitem, set_cas_eq]) (by rw [hitem, set_cas_eq])
  | store n comm cas r =>
      obtain ⟨reply, hreply, hstep⟩ := Option.bind_eq_some_iff.mp hstep
      cases hstep
      obtain ⟨hready, hstep⟩ := do_store_item_stepped h hcfg hallowed hjoins hreply
      exact ⟨hready, hstep⟩

/-! ## Runs -/

theorem ready_empty (h : c.store = .empty) : c.Ready cfg := by
  refine ⟨⟨h ▸ Store.sound_empty, h ▸ Store.referenced_empty, fun n => ?_, fun n => ?_⟩, fun n hlinked => ?_, fun n hused => ?_⟩
  · rw [h]
    exact Store.tagged_empty
  · rw [h]
    simp [Plain, Store.empty, Flags.zero]
  · rw [h] at hlinked
    cases hlinked
  · rw [h] at hused
    exact absurd rfl hused

/-- What clients see of a run of the cache they may see of the map that was there first. -/
theorem run_refines {os : List Seen} (hcfg : cfg.tail_repair_time = 0) (h : c.Ready cfg) (hrun : Run (Step cfg) c os c') :
    c'.Ready cfg ∧ Run (RecordMap.Step cfg) (c.map cfg) os (c'.map cfg) := by
  induction hrun with
  | nil c => exact ⟨h, .nil _⟩
  | cons hstep _ ih =>
      obtain ⟨hready, hstep⟩ := step_refines h hcfg hstep
      obtain ⟨hready', hrun⟩ := ih hready
      exact ⟨hready', .cons hstep hrun⟩

/-! ## Runs that are tried -/

/-- The items that were ever allocated have room for two more references. -/
def roomy (c : ChunkCache) : Bool :=
  c.store.allocs.all fun
    | .item n => c.store.refs n + 2 < 2 ^ 16
    | .crawler _ => true

/-- Whether `Allowed` and `JoinsWell` are known to hold, for acts on items without chunks. -/
def checks (c : ChunkCache) : Act → Bool
  | .items (.remove _) => c.roomy
  | .items _ => false
  | .get _ _ _ | .touch _ _ _ | .alloc _ _ => c.roomy
  | .upload n _ _ _ => !(c.store.heap (.item n)).it_flags.linked
  | .store n _ _ _ => !(c.store.heap (.item n)).it_flags.linked && 0 < c.store.held (.item n) &&
      !(c.store.heap (.item n)).it_flags.chunked && (c.value (.item n)).length = (c.store.heap (.item n)).nbytes && c.roomy

def attempt (cfg : Settings) (c : ChunkCache) (a : Act) : Option (ChunkCache × Seen) :=
  if c.checks a then c.step cfg a else none

def attempts (cfg : Settings) : ChunkCache → List Act → Option (ChunkCache × List Seen)
  | c, [] => some (c, [])
  | c, a :: as => do
      let (c, o) ← c.attempt cfg a
      let (c, os) ← c.attempts cfg as
      some (c, o :: os)

theorem Ready.roomy (h : c.Ready cfg) (hroomy : c.roomy = true) (n : Nat) : c.store.refs n + 2 < 2 ^ 16 := by
  by_cases hrefs : c.store.refs n = 0
  · omega
  -- what has references was allocated once more than freed
  have hfreed := (h.referenced.of_zero (m := n)).freed n
  rw [Store.sum_zero, if_neg hrefs] at hfreed
  have hmem : Ptr.item n ∈ c.store.allocs := List.count_pos_iff.mp (by omega)
  simpa using List.all_eq_true.mp hroomy _ hmem

theorem Ready.allowed {a : Act} (h : c.Ready cfg) (hchecks : c.checks a = true) : c.Allowed a := by
  cases a with
  | get key do_update room => exact h.roomy hchecks
  | touch key exptime room => exact h.roomy hchecks
  | alloc new rounds => exact h.roomy hchecks
  | items e =>
      cases e with
      | remove n =>
          refine ⟨rfl, fun m => ?_, fun a locks he => by cases he⟩
          have hm := h.roomy hchecks m
          simp only [Event.takes]
          omega
      | _ => cases hchecks
  | upload n cas data chain => simpa [checks, Allowed] using hchecks
  | store n comm cas r =>
      simp only [checks, Bool.and_eq_true, Bool.not_eq_true', decide_eq_true_eq] at hchecks
      obtain ⟨⟨⟨⟨hl, hheld⟩, hflat⟩, hvalue⟩, hroomy⟩ := hchecks
      refine ⟨by simp [hl], hheld, ⟨hvalue, fun hchunked => ?_⟩, h.roomy hroomy⟩
      rw [hflat] at hchunked
      cases hchunked

theorem joins_well {a : Act} (hchecks : c.checks a = true) : c.JoinsWell cfg a := by
  cases a with
  | store n comm cas r =>
      simp only [checks, Bool.and_eq_true, Bool.not_eq_true', decide_eq_true_eq] at hchecks
      obtain ⟨⟨⟨-, hflat⟩, -⟩, -⟩ := hchecks
      intro _ _ _ hchunked
      rw [hflat] at hchunked
      cases hchunked
  | _ => trivial

theorem Ready.attempt_step {a : Act} (h : c.Ready cfg) (ha : c.attempt cfg a = some (c', o)) : Step cfg c o c' := by
  rw [attempt] at ha
  split at ha
  · next hchecks => exact ⟨a, ⟨h.allowed hchecks, joins_well hchecks⟩, ha⟩
  · cases ha

theorem Ready.attempts_run {as : List Act} {os : List Seen} (h : c.Ready cfg) (hcfg : cfg.tail_repair_time = 0)
    (has : c.attempts cfg as = some (c', os)) : Run (Step cfg) c os c' := by
  induction as generalizing c os with
  | nil =>
      cases has
      exact .nil _
  | cons a as ih =>
      obtain ⟨⟨c₁, o⟩, ha, htry⟩ := Option.bind_eq_some_iff.mp has
      obtain ⟨⟨c₂, os⟩, hrest, heq⟩ := Option.bind_eq_some_iff.mp htry
      cases heq
      have hstep := h.attempt_step ha
      exact .cons hstep (ih (step_refines h hcfg hstep).1 hrest)

/-- From the empty cache on, clients see nothing that they might not see of a map that loses entries. -/
theorem cache_refines_map {os : List Seen} (hcfg : cfg.tail_repair_time = 0) (h : c.store = .empty)
    (hrun : Run (Step cfg) c os c') : Run (RecordMap.Step cfg) ⟨fun _ => none, 0⟩ os (c'.map cfg) := by
  have hempty : c.map cfg = ⟨fun _ => none, 0⟩ := by
    simp only [ChunkCache.map, RecordMap.mk.injEq, h]
    exact ⟨funext fun key => by simp [entries, h, Store.empty], rfl⟩
  rw [← hempty]
  exact (run_refines hcfg (ready_empty h) hrun).2

def no_items : ChunkCache where
  store := .empty
  data := fun _ _ => 0
  suffix := fun _ => []
  beyond := fun _ => []
  chain := fun _ => []
  item_lock_of := fun key => key.length

/-- A value without chunks is written to a new item. -/
def writes (n : Nat) (key : MemoryLru.Key) (cas : UInt64) (value : List UInt8) : List Act :=
  [.alloc ⟨key, 0, 0, value.length⟩ [⟨some (.item n), 0, [], [], []⟩], .upload n cas (value.getD · 0) []]

/-- A value is stored and joined with another one. -/
def joins : List Act :=
  writes 0 [97] 0 [120, 13, 10] ++ [.store 0 .NREAD_SET 0 ⟨[], []⟩, .items (.remove 0)] ++
  writes 1 [97] 0 [121, 13, 10] ++ [.store 1 .NREAD_PREPEND 0 ⟨[⟨some (.item 2), 0, [], [], []⟩], []⟩, .get [97] true true]

theorem cache_refines_map_small : ∃ os m, Run (RecordMap.Step Store.settings) ⟨fun _ => none, 0⟩ os m ∧
    .get [97] (some ⟨[121, 120, 13, 10], 0, 0, 2⟩) ∈ os := by
  have hsome : ((no_items.attempts Store.settings joins).any fun t =>
      decide (.get [97] (some ⟨[121, 120, 13, 10], 0, 0, 2⟩) ∈ t.2)) = true := by decide +kernel
  obtain ⟨t, ht, hmem⟩ := (Option.any_eq_true _ _).mp hsome
  have hrun : Run (Step Store.settings) no_items t.2 t.1 := (ready_empty rfl).attempts_run rfl ht
  exact ⟨t.2, _, cache_refines_map rfl rfl hrun, of_decide_eq_true hmem⟩

end ChunkCache

/-! ## Versions -/

/-- The same value with the same flags and the same CAS. -/
def Record.Same (r r' : Record) : Prop := r' = { r with exptime := r'.exptime }

theorem Record.refused {comm : Comm} {old : Option Record} {new : Record} {reply : StoreItemType}
    (h : Record.answer comm old new = (reply, none)) : reply ≠ .STORED := by
  rintro rfl
  cases comm <;> cases old <;> dsimp only [Record.answer] at h <;> first | cases h | (split at h <;> cases h)

/-- The key under which a value was stored. -/
def Seen.stored_key : Seen → Option MemoryLru.Key
  | .store _ key _ .STORED _ => some key
  | _ => none

namespace RecordMap

variable {cfg : Settings} {m m' : RecordMap} {o : Seen} {os : List Seen}

/-- The CAS as a version. -/
abbrev Changes : (MemoryLru.Key → Option Record) × Nat → List (Option MemoryLru.Key) → (MemoryLru.Key → Option Record) × Nat → Prop :=
  Run (Change (fun r : Record => r.cas.toNat) Record.Same)

theorem does_changes (huse : cfg.use_cas = true) (hwrap : m.cas_id.toNat + 1 < 2 ^ 64) (h : Does cfg m o m') :
    ∃ ks, Changes (m.entries, m.cas_id.toNat) ks (m'.entries, m'.cas_id.toNat) ∧ (∀ k, o.stored_key = some k → some k ∈ ks) ∧
      m'.cas_id.toNat ≤ m.cas_id.toNat + 1 := by
  have hquiet (hnone : o.stored_key = none) : ∃ ks, Changes (m.entries, m.cas_id.toNat) ks (m.entries, m.cas_id.toNat) ∧
      (∀ k, o.stored_key = some k → some k ∈ ks) ∧ m.cas_id.toNat ≤ m.cas_id.toNat + 1 :=
    ⟨[], .nil _, fun k hk => (by rw [hnone] at hk; cases hk), Nat.le_succ _⟩
  cases h with
  | nothing => exact hquiet rfl
  | get => exact hquiet rfl
  | untouched => exact hquiet rfl
  | touch hentry => exact ⟨[none], .cons (.become hentry (by rw [Record.Same])) (.nil _), fun k hk => (by cases hk), Nat.le_succ _⟩
  | @store comm key new reply cas m' hstores =>
      cases hstores with
      | @stored r cas hanswer hcas =>
          rw [if_pos huse] at hcas
          have hnext : (m.next_cas cfg).toNat = m.cas_id.toNat + 1 := by
            rw [next_cas, if_pos huse, UInt64.toNat_add]
            exact Nat.mod_eq_of_lt hwrap
          refine ⟨[some key], ?_, fun k hk => ?_, hnext.le⟩
          · dsimp only
            rw [hnext]
            refine .cons (.put ?_) (.nil _)
            dsimp only
            rw [hcas, ← hnext, next_cas, if_pos huse]
          · obtain rfl : key = k := Option.some.inj hk
            exact List.mem_singleton.mpr rfl
      | refused hanswer =>
          have hreply := Record.refused hanswer
          refine hquiet ?_
          cases reply with
          | STORED => exact absurd rfl hreply
          | NOT_STORED | EXISTS | NOT_FOUND => rfl
      | no_memory => exact hquiet rfl

theorem Does.of_get {key : MemoryLru.Key} {reply : Option Record} (h : Does cfg m (.get key reply) m') :
    m' = m ∧ m.entries key = reply := by
  cases h with
  | get => exact ⟨rfl, rfl⟩

theorem Does.of_stored {comm : Comm} {key : MemoryLru.Key} {new : Record} {cas : UInt64}
    (h : Does cfg m (.store comm key new .STORED cas) m') :
    ∃ r, Record.answer comm (m.entries key) new = (.STORED, some r) := by
  cases h with
  | store hstores =>
      cases hstores with
      | stored hanswer => exact ⟨_, hanswer⟩
      | refused hanswer => exact absurd rfl (Record.refused hanswer)

theorem step_changes (huse : cfg.use_cas = true) (hwrap : m.cas_id.toNat + 1 < 2 ^ 64) (h : Step cfg m o m') :
    ∃ ks, Changes (m.entries, m.cas_id.toNat) ks (m'.entries, m'.cas_id.toNat) ∧ (∀ k, o.stored_key = some k → some k ∈ ks) ∧
      m'.cas_id.toNat ≤ m.cas_id.toNat + 1 := by
  obtain ⟨m₁, m₂, hbefore, hdoes, hafter, -⟩ := h
  obtain ⟨ks, hchanges, hstored, hclock⟩ := does_changes (m := ⟨m₁, m.cas_id⟩) huse hwrap hdoes
  refine ⟨none :: (ks ++ [none]), .cons (.lose hbefore) (hchanges.snoc (.lose hafter)), fun k hk => ?_, hclock⟩
  exact List.mem_cons_of_mem _ (List.mem_append_left _ (hstored k hk))

theorem run_changes (huse : cfg.use_cas = true) (h : Run (Step cfg) m os m') (hwrap : m.cas_id.toNat + os.length < 2 ^ 64) :
    ∃ ks, Changes (m.entries, m.cas_id.toNat) ks (m'.entries, m'.cas_id.toNat) ∧
      (∀ o ∈ os, ∀ k, o.stored_key = some k → some k ∈ ks) ∧ m'.cas_id.toNat ≤ m.cas_id.toNat + os.length := by
  induction h with
  | nil m => exact ⟨[], .nil _, fun o ho => (by cases ho), Nat.le_add_right _ _⟩
  | @cons m m₁ m' o os hstep _ ih =>
      rw [List.length_cons] at hwrap ⊢
      obtain ⟨ks, hchanges, hstored, hclock⟩ := step_changes huse (by omega) hstep
      obtain ⟨ks', hchanges', hstored', hclock'⟩ := ih (by omega)
      refine ⟨ks ++ ks', hchanges.append hchanges', fun o' ho k hk => List.mem_append.mpr ?_, by omega⟩
      rcases List.mem_cons.mp ho with rfl | ho
      · exact .inl (hstored k hk)
      · exact .inr (hstored' o' ho k hk)

end RecordMap

namespace ChunkCache

variable {cfg : Settings} {c₀ c c₁ c₂ c₃ : ChunkCache} {os₀ os : List Seen} {key : MemoryLru.Key} {r new : Record} {cas : UInt64}

/-- No value was stored under `key`, and the one that is there is the one that was read. -/
structure Unchanged (cfg : Settings) (key : MemoryLru.Key) (r : Record) (os : List Seen) (c : ChunkCache) : Prop where
  unstored : ∀ o ∈ os, o.stored_key ≠ some key
  entry : ∃ old, c.entries cfg key = some old ∧ old.value = r.value ∧ old.flags = r.flags

theorem cas_stored {m m' : RecordMap} (h : RecordMap.Step cfg m (.store .NREAD_CAS key new .STORED cas) m') :
    ∃ old, m.entries key = some old ∧ new.cas = old.cas := by
  obtain ⟨m₁, m₂, hbefore, hdoes, -, -⟩ := h
  obtain ⟨stored, hanswer⟩ := hdoes.of_stored
  dsimp only at hanswer
  cases hold : m₁ key with
  | none =>
      rw [hold] at hanswer
      cases hanswer
  | some old =>
      rw [hold] at hanswer
      dsimp only [Record.answer] at hanswer
      split at hanswer
      · next hcas => exact ⟨old, hbefore key old hold, hcas⟩
      · cases hanswer

/-- If a value was read with its CAS, and later a value is stored by that CAS, none was stored under the key meanwhile. -/
theorem cas_unchanged (hcfg : cfg.tail_repair_time = 0) (huse : cfg.use_cas = true) (h₀ : c₀.store = .empty)
    (hrun₀ : Run (Step cfg) c₀ os₀ c) (hget : Step cfg c (.get key (some r)) c₁) (hrun : Run (Step cfg) c₁ os c₂)
    (hcas : Step cfg c₂ (.store .NREAD_CAS key new .STORED cas) c₃) (hnew : new.cas = r.cas)
    (hwrap : os₀.length + os.length < 2 ^ 64) : Unchanged cfg key r os c₂ := by
  have hid : (c₀.map cfg).cas_id.toNat = 0 := by
    rw [ChunkCache.map, h₀]
    rfl
  have hsame : ∀ r r' : Record, r.Same r' → r'.cas.toNat = r.cas.toNat := fun r r' h => by rw [h]
  -- the map, up to the get
  obtain ⟨hready, hmap₀⟩ := run_refines hcfg (ready_empty h₀) hrun₀
  obtain ⟨ks₀, hchanges₀, -, hclock₀⟩ := RecordMap.run_changes huse hmap₀ (by omega)
  have hpast : Past (fun r : Record => r.cas.toNat) (c.entries cfg, (c.map cfg).cas_id.toNat) :=
    hchanges₀.invariant (fun hs hchange => hs.change hsame hchange) fun k v hv => by
      simp only [ChunkCache.map, entries, h₀] at hv
      cases hv
  -- the get, and what happens until the value is stored
  obtain ⟨hready₁, hmap⟩ := step_refines hready hcfg hget
  obtain ⟨m₁, m₂, hbefore, hdoes, hafter, -⟩ := hmap
  obtain ⟨hmap, hread⟩ := hdoes.of_get
  obtain ⟨rfl, hclock⟩ := RecordMap.mk.inj hmap
  obtain ⟨hready₂, hmap₁⟩ := run_refines hcfg hready₁ hrun
  obtain ⟨ks, hchanges, hstored, -⟩ := RecordMap.run_changes huse hmap₁ (by rw [hclock]; omega)
  obtain ⟨old, hold, hcas⟩ := cas_stored (step_refines hready₂ hcfg hcas).2
  rw [hclock] at hchanges
  have hversion : old.cas.toNat ≤ (c.map cfg).cas_id.toNat := by
    rw [← hcas, hnew]
    exact hpast key r (hbefore key r hread)
  obtain ⟨hnot, u, hu, huold⟩ := unchanged_since (fun _ => by rw [Record.Same]) (fun _ _ _ h h' => by rw [h', h]; rfl) hsame
    (.cons (.lose hafter) hchanges) le_rfl hold hversion
  obtain rfl : r = u := Option.some.inj (hread.symm.trans hu)
  exact ⟨fun o ho hkey => hnot (List.mem_cons_of_mem _ (hstored o ho key hkey)), old, hold, by rw [huold], by rw [huold]⟩

/-- A value is read, a value is stored under another key, and then one by the CAS that was read. -/
def meanwhile : List Act := .items (.remove 0) ::
  (writes 1 [98] 0 [13, 10] ++ [.store 1 .NREAD_ADD 0 ⟨[], []⟩] ++ writes 2 [97] 1 [121, 13, 10])

theorem cas_unchanged_small : ∃ os c, Unchanged Store.settings [97] ⟨[120, 13, 10], 0, 0, 1⟩ os c ∧
    .store .NREAD_ADD [98] ⟨[13, 10], 0, 0, 0⟩ .STORED 2 ∈ os := by
  have hsome : (do
      let (c, os₀) ← no_items.attempts Store.settings
        (writes 0 [97] 0 [120, 13, 10] ++ [.store 0 .NREAD_SET 0 ⟨[], []⟩, .items (.remove 0)])
      let (c, got) ← c.attempt Store.settings (.get [97] true false)
      let (c, os) ← c.attempts Store.settings meanwhile
      let (_, stored) ← c.attempt Store.settings (.store 2 .NREAD_CAS 0 ⟨[], []⟩)
      some (os₀.length, got, os, stored)) = some (4, .get [97] (some ⟨[120, 13, 10], 0, 0, 1⟩),
        [.nothing, .nothing, .nothing, .store .NREAD_ADD [98] ⟨[13, 10], 0, 0, 0⟩ .STORED 2, .nothing, .nothing],
        .store .NREAD_CAS [97] ⟨[121, 13, 10], 0, 0, 1⟩ .STORED 3) := by decide +kernel
  obtain ⟨⟨c, os₀⟩, hbefore, hsome⟩ := Option.bind_eq_some_iff.mp hsome
  obtain ⟨⟨c₁, got⟩, hget, hsome⟩ := Option.bind_eq_some_iff.mp hsome
  obtain ⟨⟨c₂, os⟩, hafter, hsome⟩ := Option.bind_eq_some_iff.mp hsome
  obtain ⟨⟨c₃, stored⟩, hstore, hsome⟩ := Option.bind_eq_some_iff.mp hsome
  simp only [Option.some.injEq, Prod.mk.injEq] at hsome
  obtain ⟨hlength, rfl, rfl, rfl⟩ := hsome
  have hready : no_items.Ready Store.settings := ready_empty rfl
  have hrun₀ := hready.attempts_run rfl hbefore
  obtain ⟨hready₀, -⟩ := run_refines rfl hready hrun₀
  have hread := hready₀.attempt_step hget
  obtain ⟨hready₁, -⟩ := step_refines hready₀ rfl hread
  have hrun := hready₁.attempts_run rfl hafter
  obtain ⟨hready₂, -⟩ := run_refines rfl hready₁ hrun
  exact ⟨_, c₂, cas_unchanged rfl rfl rfl hrun₀ hread hrun (hready₂.attempt_step hstore) rfl (by rw [hlength]; decide),
    by decide⟩

end ChunkCache

end Memcached.SlabsCurd

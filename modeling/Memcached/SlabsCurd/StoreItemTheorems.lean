import Memcached.SlabsCurd.RecordTheorems

/-!
# The storage commands

Copies into chunks append what they copy. Each way through `do_store_item` gives back every reference that it takes, and no
other, but where a copy fails: there it does not return, for it waits for a lock that its caller holds.
-/

namespace Memcached.SlabsCurd

open MemoryLru Transition

/-! ## Copies -/

namespace Filling

/-- Copies into a chain whose chunks but the last are full append what they copy, and end after a bounded number of rounds. They
copy all of it if every allocation gives a chunk, and only then. -/
theorem copies_append {σ : Type} {alloc : σ → Nat → Option (σ × Option Nat)} {s : σ} {d : Filling} {sch : List ItemChunk}
    {len : Nat} (left : List UInt8) (halloc : Answers alloc) (h : d.Packed) (hlen : len ≤ (SlabsCurd.content sch).length) :
    (∃ s' d' ok, d.copy_chunks alloc (2 * len + sch.length + 2) s sch 0 len = some (s', d', ok) ∧
      Copied d (SlabsCurd.content sch) len d' ok ∧ Allocated alloc s s' ok) ∧
    ∃ s' d' ok, d.copy_data alloc (2 * left.length + 2) s left = some (s', d', ok) ∧ Copied d left left.length d' ok ∧
      Allocated alloc s s' ok :=
  ⟨copy_chunks_appends halloc h hlen, copy_data_appends halloc h⟩

/-- Three chunks of five bytes are given, and then no more. -/
def three_chunks (n : Nat) (_ : Nat) : Option (Nat × Option Nat) := if n < 3 then some (n + 1, some 5) else some (n, none)

theorem three_chunks_answers : Answers three_chunks where
  answered n remain := by
    rw [three_chunks]
    split <;> rfl
  room {n remain n' size} h _ := by
    rw [three_chunks] at h
    split at h <;> cases h
    decide

/-- A chain of twelve bytes, whose second chunk is not full. -/
def twelve : List ItemChunk := [⟨4, [1, 2, 3, 4]⟩, ⟨8, [5, 6, 7]⟩, ⟨8, [8, 9, 10, 11, 12]⟩]

theorem copies_append_small : ∃ n d ok, copy_chunks three_chunks 27 0 ⟨[], ⟨0, []⟩, []⟩ twelve 0 11 = some (n, d, ok) ∧
    Copied ⟨[], ⟨0, []⟩, []⟩ [1, 2, 3, 4, 5, 6, 7, 8, 9, 10, 11, 12] 11 d ok ∧ Allocated three_chunks 0 n ok := by
  have hpacked : (⟨[], ⟨0, []⟩, []⟩ : Filling).Packed := ⟨by simp, by decide, rfl⟩
  have hlen : 11 ≤ (SlabsCurd.content twelve).length := by decide
  exact (copies_append (s := 0) [] three_chunks_answers hpacked hlen).1

end Filling

/-! ## References -/

namespace ChunkCache

variable {cfg : Settings} {c c₀ c' : ChunkCache} {s s' : Store} {n : Nat} {p : Ptr} {it old_it new_it : Option Ptr}
  {comm : Comm} {cas : UInt64} {reply : StoreReply} {stored : StoreItemType}

/-- The references, after the one to `it` is given back. -/
def given_back (held : Ptr → Nat) : Option Ptr → Ptr → Nat
  | some it => Function.update held it (held it - 1)
  | none => held

theorem given_back_taken {held : Ptr → Nat} : given_back (Function.update held p (held p + 1)) (some p) = held := by
  simp [given_back]

theorem do_item_remove_held (h : c.do_item_remove p = some c') : c'.store.held = given_back c.store.held (some p) := by
  obtain ⟨s, hrelease, rfl⟩ := do_item_remove_release h
  exact (Store.do_item_remove_steady (Store.release_cases hrelease).2).held

theorem do_item_remove?_held (h : c.do_item_remove? it = some c') : c'.store.held = given_back c.store.held it := by
  cases it with
  | none => cases h; rfl
  | some p => exact do_item_remove_held h

theorem end_store_held (h : c.end_store old_it new_it p stored cas = some reply) :
    reply.cache.store.held = given_back (given_back c.store.held old_it) new_it := by
  obtain ⟨c₁, hfirst, h⟩ := Option.bind_eq_some_iff.mp h
  obtain ⟨c₂, hsecond, h⟩ := Option.bind_eq_some_iff.mp h
  cases h
  rw [← do_item_remove?_held hfirst]
  exact do_item_remove?_held hsecond

theorem do_item_link_held (h : s.do_item_link cfg p = some s') : s'.held = s.held := by
  obtain ⟨-, -, cas, cas_id, s₁, hlink, rfl⟩ := Store.do_item_link_cases h
  rw [Store.refcount_incr, Store.modify_held, (Store.do_item_link_q_core hlink).rest]
  rfl

theorem link_item_held (h : c.link_item cfg old_it p = some c') : c'.store.held = c.store.held := by
  cases old_it with
  | none =>
      obtain ⟨s, hlink, rfl⟩ := Option.map_eq_some_iff.mp h
      exact do_item_link_held hlink
  | some old_it =>
      obtain ⟨s, hreplace, rfl⟩ := Option.map_eq_some_iff.mp h
      simp only [Store.do_item_replace] at hreplace
      split at hreplace
      · cases hreplace
      obtain ⟨s₁, hunlink, hlink⟩ := Option.bind_eq_some_iff.mp hreplace
      exact (do_item_link_held hlink).trans (Store.do_item_unlink_steady hunlink).held

theorem do_item_update_held (h : s.do_item_update cfg p = some s') : s'.held = s.held := by
  rw [(Store.do_item_update_kept h).1.rest]

/-- A get takes a reference to the item that it finds. -/
theorem do_item_get_held {key : MemoryLru.Key} (h : s.do_item_get cfg key false false = some (s', it)) :
    given_back s'.held it = s.held := by
  obtain ⟨-, rfl, rfl⟩ | ⟨p, -, ⟨-, rfl, s₁, hunlink, hremove⟩ | ⟨-, rfl, s₁, rfl, ⟨-, rfl⟩ | ⟨hfalse, -⟩⟩⟩ :=
    Store.do_item_get_cases h
  · rfl
  · exact (Store.do_item_remove_steady hremove).held.trans (Store.do_item_unlink_steady hunlink).held
  · exact given_back_taken
  · cases hfalse

theorem append_item_held {old it : Nat} {r : StoreRounds} (h : Live cfg c.store) (hcfg : cfg.tail_repair_time = 0)
    (hroom : ∀ m, c.store.refs m + 1 < 2 ^ 16) (hheld : 0 < c.store.held (.item old))
    (happend : c.append_item cfg (.item old) (.item it) comm cas r = some reply) :
    reply.cache.store.held = given_back c.store.held (some (.item old)) := by
  simp only [append_item] at happend
  split at happend
  · exact end_store_held happend
  obtain ⟨⟨c₁, new_it⟩, halloc, happend⟩ := Option.bind_eq_some_iff.mp happend
  cases new_it with
  | none =>
      obtain ⟨s, hthin, rfl⟩ := do_item_alloc_none h hcfg hroom halloc
      exact (end_store_held happend).trans (congrArg (given_back · (some (.item old))) hthin.held)
  | some new_it =>
  obtain ⟨k, rfl, hmakes⟩ := do_item_alloc_some h hcfg hroom halloc
  obtain ⟨⟨c₂, ok⟩, hcopy, happend⟩ := Option.bind_eq_some_iff.mp happend
  have hthin := hmakes.copy_thinned hcfg hroom hcopy
  have hheld₂ : c₂.store.held = Function.update c.store.held (.item k) 1 := hthin.held.trans hmakes.held
  have hne : Ptr.item k ≠ .item old := by simpa using (hmakes.ne hheld).symm
  cases ok with
  | true =>
      obtain ⟨c₃, hlink, hend⟩ := Option.bind_eq_some_iff.mp happend
      rw [end_store_held hend, link_item_held hlink, hheld₂]
      -- the new item has no reference but the one that it was allocated with
      funext p
      rcases eq_or_ne p (.item k) with rfl | hp
      · simp [given_back, hne, hmakes.free]
      · simp [given_back, hp, Function.update_apply, hne.symm]
  | false =>
      obtain ⟨c₃, hremove, -⟩ := Option.bind_eq_some_iff.mp happend
      exact absurd (hremove.symm.trans (hmakes.stuck hcfg hroom hcopy).2) (Option.some_ne_none c₃)

theorem do_store_item_held {r : StoreRounds} (h : c.Ready cfg) (hcfg : cfg.tail_repair_time = 0)
    (hl : ¬ (c.store.heap (.item n)).it_flags.linked) (hheld : 0 < c.store.held (.item n))
    (hroom : ∀ m, c.store.refs m + 2 < 2 ^ 16) (hstore : do_store_item cfg c (.item n) comm cas r = some reply) :
    reply.cache.store.held = c.store.held := by
  simp only [do_store_item] at hstore
  obtain ⟨⟨s, old_it⟩, hget, hstore⟩ := Option.bind_eq_some_iff.mp hstore
  have hf := do_item_get_fetched h hroom hl hheld hget
  rw [← do_item_get_held hget]
  have hput (hlinks : (do
        let c' ← ({ c with store := s } : ChunkCache).link_item cfg old_it (.item n)
        c'.end_store old_it none (.item n) .STORED cas) = some reply) :
      reply.cache.store.held = given_back s.held old_it := by
    obtain ⟨c', hlink, hend⟩ := Option.bind_eq_some_iff.mp hlinks
    exact (end_store_held hend).trans (congrArg (given_back · old_it) (link_item_held hlink))
  cases old_it with
  | none =>
      cases comm with
      | NREAD_ADD | NREAD_SET => exact hput hstore
      | NREAD_REPLACE | NREAD_APPEND | NREAD_PREPEND | NREAD_CAS => exact end_store_held hstore
  | some old_it =>
      obtain ⟨m, rfl⟩ := hf.item_of_old _ rfl
      cases comm with
      | NREAD_SET | NREAD_REPLACE => exact hput hstore
      | NREAD_ADD =>
          obtain ⟨s', hupdate, hend⟩ := Option.bind_eq_some_iff.mp hstore
          exact (end_store_held hend).trans (congrArg (given_back · (some (.item m))) (do_item_update_held hupdate))
      | NREAD_CAS =>
          dsimp only at hstore
          split at hstore
          · exact hput hstore
          · exact end_store_held hstore
      | NREAD_APPEND | NREAD_PREPEND =>
          obtain ⟨hnone, -⟩ | ⟨m', -, hsome, -, hheld_old, -⟩ := hf.old
          · cases hnone
          obtain rfl : m = m' := by simpa using hsome
          exact append_item_held hf.ready.toLive hcfg hf.room hheld_old hstore

/-- Whatever was done before, a storage command holds after its end what was held before it, and no more. -/
theorem store_gives_back {os : List Seen} {r : StoreRounds} (hcfg : cfg.tail_repair_time = 0) (h₀ : c₀.store = .empty)
    (hrun : Run (Step cfg) c₀ os c) (hl : ¬ (c.store.heap (.item n)).it_flags.linked) (hheld : 0 < c.store.held (.item n))
    (hroom : ∀ m, c.store.refs m + 2 < 2 ^ 16) (hstore : do_store_item cfg c (.item n) comm cas r = some reply) :
    reply.cache.store.held = c.store.held :=
  do_store_item_held (run_refines hcfg (ready_empty h₀) hrun).1 hcfg hl hheld hroom hstore

theorem store_gives_back_small : ∃ (c : ChunkCache) (reply : StoreReply),
    do_store_item Store.settings c (.item 1) .NREAD_PREPEND 0 ⟨[⟨some (.item 2), 0, [], [], []⟩], []⟩ = some reply ∧
      reply.stored = .STORED ∧ c.store.held (.item 1) = 1 ∧ reply.cache.store.held = c.store.held := by
  have hsome : ((no_items.attempts Store.settings (joins.take 6)).any fun t =>
      t.1.checks (.store 1 .NREAD_PREPEND 0 ⟨[⟨some (.item 2), 0, [], [], []⟩], []⟩) && t.1.store.held (.item 1) = 1 &&
        (do_store_item Store.settings t.1 (.item 1) .NREAD_PREPEND 0 ⟨[⟨some (.item 2), 0, [], [], []⟩], []⟩).any
          fun reply => reply.stored = .STORED) = true := by decide +kernel
  obtain ⟨t, ht, hsome⟩ := (Option.any_eq_true _ _).mp hsome
  simp only [Bool.and_eq_true, decide_eq_true_eq] at hsome
  obtain ⟨⟨hchecks, hheld⟩, hsome⟩ := hsome
  obtain ⟨reply, hreply, hstored⟩ := (Option.any_eq_true _ _).mp hsome
  have hready : no_items.Ready Store.settings := ready_empty rfl
  have hrun := hready.attempts_run rfl ht
  obtain ⟨hl, hheld₀, -, hroom⟩ := (run_refines rfl hready hrun).1.allowed hchecks
  exact ⟨t.1, reply, hreply, of_decide_eq_true hstored, hheld, store_gives_back rfl rfl hrun hl hheld₀ hroom hreply⟩

/-! ## Copies that fail -/

/-- Where memory runs out in the middle of a copy, `item_remove` is to free the new item. Its item lock is that of the key, which
`store_item` holds: the thread waits for itself, and the command does not return. -/
theorem failed_copy_never_returns {os : List Seen} {r : StoreRounds} {old : Nat} {new_it : Ptr} {c₁ c₂ c₃ : ChunkCache}
    (hcfg : cfg.tail_repair_time = 0) (h₀ : c₀.store = .empty) (hrun : Run (Step cfg) c₀ os c)
    (hl : ¬ (c.store.heap (.item n)).it_flags.linked) (hheld : 0 < c.store.held (.item n))
    (hroom : ∀ m, c.store.refs m + 2 < 2 ^ 16) (hcomm : comm = .NREAD_APPEND ∨ comm = .NREAD_PREPEND)
    (hget : c.store.do_item_get cfg (c.store.heap (.item n)).key false false = some (s, some (.item old)))
    (hc₁ : c₁ = { c with store := s })
    (hcas : (c₁.store.heap (.item n)).get_cas = 0 ∨
      (c₁.store.heap (.item n)).get_cas = (c₁.store.heap (.item old)).get_cas)
    (halloc : c₁.do_item_alloc cfg (c₁.append_args cfg old n) r.item = some (c₂, some new_it))
    (hcopy : c₂.store_item_copy_data cfg comm (.item old) new_it (.item n) r.chunks = some (c₃, false)) :
    do_store_item cfg c (.item n) comm cas r = none ∧
      c₃.item_lock_of (c₃.store.heap new_it).key = c.item_lock_of (c.store.heap (.item n)).key ∧
      (c₃.do_item_remove new_it).isSome := by
  have hf := do_item_get_fetched (run_refines hcfg (ready_empty h₀) hrun).1 hroom hl hheld hget
  rw [← hc₁] at hf
  obtain ⟨hnone, -⟩ | ⟨m, -, hsome, -, hheld_old, -⟩ := hf.old
  · cases hnone
  obtain rfl : old = m := by simpa using hsome
  obtain ⟨k, rfl, hmakes⟩ := do_item_alloc_some hf.ready.toLive hcfg hf.room halloc
  obtain ⟨hlock, hstuck⟩ := hmakes.stuck hcfg hf.room hcopy
  have happend : c₁.append_item cfg (.item old) (.item n) comm cas r = none := by
    have hequal : ¬ ((c₁.store.heap (.item n)).get_cas ≠ 0 ∧
        (c₁.store.heap (.item n)).get_cas ≠ (c₁.store.heap (.item old)).get_cas) := by
      rintro ⟨hzero, hother⟩
      exact hcas.elim hzero hother
    rw [append_args] at halloc hstuck
    simp only [append_item, if_neg hequal, halloc, hcopy, hstuck, Option.bind_eq_bind, Option.bind_some, Option.bind_none,
      Bool.false_eq_true, if_false]
  refine ⟨?_, hlock.trans ?_, ?_⟩
  · rcases hcomm with rfl | rfl <;> simp only [do_store_item, hget, Option.bind_eq_bind, Option.bind_some, ← hc₁, happend]
  · rw [append_args, hf.ages.key, hc₁]
  · have hthin := hmakes.copy_thinned hcfg hf.room hcopy
    have hheld₃ : 0 < c₃.store.held (.item k) := by
      rw [hthin.held, hmakes.held, Function.update_self]
      exact Nat.one_pos
    obtain ⟨s', hrelease⟩ :=
      Option.isSome_iff_exists.mp ((hthin.referenced.of_zero (m := k)).released hthin.sound (by omega))
    simp [ChunkCache.do_item_remove, Cache.do_item_remove, hrelease]

/-- Items of more than 100 bytes are in chunks. -/
def tight : Settings :=
  { Store.settings with slab_chunk_size_max := 100, slabs_clsid := fun size => if size ≤ 80 then 1 else 2 }

/-- There is an item for both values, and no chunk. -/
def no_chunk : StoreRounds := ⟨[⟨some (.item 2), 0, [], [], []⟩], [List.replicate 10 ⟨none, 0, [], [], []⟩]⟩

/-- A value of 28 bytes is stored, and another one is written to a new item. -/
def two_lines : List Act :=
  writes 0 [97] 0 (List.replicate 28 120 ++ [13, 10]) ++ [.store 0 .NREAD_SET 0 ⟨[], []⟩, .items (.remove 0)] ++
    writes 1 [97] 0 (List.replicate 28 121 ++ [13, 10])

theorem failed_copy_never_returns_small : ∃ os c, Run (Step tight) no_items os c ∧
    do_store_item tight c (.item 1) .NREAD_APPEND 0 no_chunk = none ∧
      ∃ c₃ : ChunkCache, c₃.item_lock_of (c₃.store.heap (.item 2)).key = c.item_lock_of (c.store.heap (.item 1)).key ∧
        (c₃.do_item_remove (.item 2)).isSome := by
  have hsome : (do
      let r ← no_items.attempts tight two_lines
      let got ← r.1.store.do_item_get tight (r.1.store.heap (.item 1)).key false false
      let c₁ : ChunkCache := { r.1 with store := got.1 }
      let made ← c₁.do_item_alloc tight (c₁.append_args tight 0 1) no_chunk.item
      let copied ← made.1.store_item_copy_data tight .NREAD_APPEND (.item 0) (.item 2) (.item 1) no_chunk.chunks
      some (r.2.length, got.2, made.2, copied.2, r.1.checks (.store 1 .NREAD_APPEND 0 no_chunk),
        (c₁.store.heap (.item 1)).get_cas)) = some (6, some (.item 0), some (.item 2), false, true, 0) := by decide +kernel
  obtain ⟨⟨c, os⟩, hacts, hsome⟩ := Option.bind_eq_some_iff.mp hsome
  obtain ⟨⟨s, old_it⟩, hget, hsome⟩ := Option.bind_eq_some_iff.mp hsome
  obtain ⟨⟨c₂, new_it⟩, halloc, hsome⟩ := Option.bind_eq_some_iff.mp hsome
  obtain ⟨⟨c₃, ok⟩, hcopy, hsome⟩ := Option.bind_eq_some_iff.mp hsome
  simp only [Option.some.injEq, Prod.mk.injEq] at hsome
  obtain ⟨-, rfl, rfl, rfl, hchecks, hcas⟩ := hsome
  have hready : no_items.Ready tight := ready_empty rfl
  have hrun := hready.attempts_run rfl hacts
  obtain ⟨hl, hheld, -, hroom⟩ := (run_refines rfl hready hrun).1.allowed hchecks
  obtain ⟨hnone, hlock, hremove⟩ := failed_copy_never_returns rfl rfl hrun hl hheld hroom (.inl rfl) hget rfl (.inl hcas) halloc hcopy
  exact ⟨os, c, hrun, hnone, c₃, hlock, hremove⟩

/-! ## Joins that are no joins -/

/-- The client's flags of the new value take room in its item, which is in chunks for that; the item for both values is not. -/
def not_joinable : List Act := writes 0 [97] 0 [13, 10] ++ [.store 0 .NREAD_SET 0 ⟨[], []⟩, .items (.remove 0),
  .alloc ⟨[97], 1, 0, 42⟩ [⟨some (.item 1), 0, [], [], []⟩],
  .upload 1 0 (fun _ => 7) [⟨0, []⟩, ⟨100, List.replicate 40 121 ++ [13, 10]⟩]]

/-- Without `JoinsWell` the command answers STORED, and the value is what is in memory from the header of the first chunk on. -/
theorem join_stores_header : ∃ os c e c' new r, Run (Step tight) no_items os c ∧ c.Allowed e ∧
    c.step tight e = some (c', .store .NREAD_APPEND [97] new .STORED 2) ∧ c.entries tight [97] = some ⟨[13, 10], 0, 0, 1⟩ ∧
    new.value = List.replicate 40 121 ++ [13, 10] ∧ c'.entries tight [97] = some r ∧ r.value = List.replicate 42 7 := by
  let append : Act := .store 1 .NREAD_APPEND 0 ⟨[⟨some (.item 2), 0, [], [], []⟩], []⟩
  have hsome : (do
      let before ← no_items.attempts tight not_joinable
      let stored ← before.1.step tight append
      some (before.1.roomy && !(before.1.store.heap (.item 1)).it_flags.linked && 0 < before.1.store.held (.item 1) &&
          (before.1.value (.item 1)).length = (before.1.store.heap (.item 1)).nbytes,
        before.1.chain (.item 1), before.1.entries tight [97], stored.2, stored.1.entries tight [97])) =
      some (true, [⟨0, []⟩, ⟨100, List.replicate 40 121 ++ [13, 10]⟩], some ⟨[13, 10], 0, 0, 1⟩,
        .store .NREAD_APPEND [97] ⟨List.replicate 40 121 ++ [13, 10], 1, 0, 0⟩ .STORED 2,
        some ⟨List.replicate 42 7, 0, 0, 2⟩) := by decide +kernel
  obtain ⟨⟨c, os⟩, hacts, hsome⟩ := Option.bind_eq_some_iff.mp hsome
  obtain ⟨⟨c', stored⟩, hstore, hsome⟩ := Option.bind_eq_some_iff.mp hsome
  simp only [Option.some.injEq, Prod.mk.injEq, Bool.and_eq_true, Bool.not_eq_true', decide_eq_true_eq] at hsome
  obtain ⟨⟨⟨⟨hroomy, hl⟩, hheld⟩, hvalue⟩, hchain, hbefore, rfl, hafter⟩ := hsome
  have hready : no_items.Ready tight := ready_empty rfl
  have hrun := hready.attempts_run rfl hacts
  have hfilled : c.Filled (.item 1) := ⟨hvalue, fun _ => ⟨[⟨0, []⟩], _, hchain, by decide, by decide⟩⟩
  have hroom := (run_refines rfl hready hrun).1.roomy hroomy
  exact ⟨os, c, append, c', _, _, hrun, ⟨by simp [hl], hheld, hfilled, hroom⟩, hstore, hbefore, rfl, hafter, rfl⟩

end ChunkCache

end Memcached.SlabsCurd

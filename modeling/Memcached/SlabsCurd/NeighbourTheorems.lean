import Mathlib.Data.Option.Basic
import Memcached.SlabsCurd.DeltaTheorems
import Memcached.SlabsCurd.Lemmas.Neighbours

/-!
# Arithmetic and the memory of others

What `do_add_delta` does to an item, in two caches that differ in what no header and no byte of the item says.
-/

namespace Memcached.SlabsCurd

open MemoryLru Decimal Transition

/-- The item under `key` has the same bytes and flags, and all headers are the same; all other bytes may differ. -/
structure Agree (key : MemoryLru.Key) (c c' : Cache) : Prop where
  store : c'.store = c.store
  bytes : ∀ it, c.store.table key = some it → c'.bytes it = c.bytes it
  suffix : ∀ it, c.store.table key = some it → c'.suffix it = c.suffix it

/-- The same result, text and CAS, and the same headers. -/
structure Echo (r r' : Reply) : Prop where
  result : r'.result = r.result
  buf : r'.buf = r.buf
  cas : r'.cas = r.cas
  store : r'.cache.store = r.cache.store

/-- And the same value under `key`. -/
structure Same (key : MemoryLru.Key) (r r' : Reply) : Prop extends Echo r r' where
  value : ∀ p, r.cache.store.table key = some p → r'.cache.bytes p = r.cache.bytes p

/-- `do_add_delta` parses the value of `key`, and what lies behind it decides. -/
def ReadsOn (c : Cache) (key : MemoryLru.Key) (cas : Option UInt64) : Prop :=
  ∃ it, c.store.table key = some it ∧ ¬ c.store.dead it ∧ c.not_a_number it = false ∧ c.cas_mismatch it cas = false ∧
    (c.store.heap it).refcount ≠ 0 ∧ Open (c.bytes it)

section
variable {cfg : Settings} {c₀ c c' c₁ c₁' : Cache} {es : List CacheEvent} {key : MemoryLru.Key} {incr : Bool} {delta : Int64}
  {buf : List UInt8} {cas : Option UInt64} {rounds : List Round} {reply : Reply} {it p : Ptr}

/-! ## Twins -/

theorem Agree.symm (h : Agree key c c') : Agree key c' c where
  store := h.store.symm
  bytes := fun it ht => (h.bytes it (h.store ▸ ht)).symm
  suffix := fun it ht => (h.suffix it (h.store ▸ ht)).symm

/-- The two have the same headers. -/
structure Twins (c c' : Cache) (it : Ptr) : Prop where
  store : c'.store = c.store
  bytes : c'.bytes it = c.bytes it
  suffix : c'.suffix it = c.suffix it

theorem Agree.twins (h : Agree key c c') (ht : c.store.table key = some it) : Twins c c' it :=
  ⟨h.store, h.bytes it ht, h.suffix it ht⟩

namespace Twins

theorem taken (h : Twins c c' it) : Twins (c.taken it) (c'.taken it) it where
  store := by simp only [Cache.taken, h.store]
  bytes := by
    have hbytes := h.bytes
    simp only [Cache.bytes, h.store] at hbytes
    simp only [Cache.bytes, taken_heap, h.store]
    exact hbytes
  suffix := h.suffix

theorem flags (h : Twins c c' it) : c'.flags cfg it = c.flags cfg it := by
  simp only [Cache.flags, h.store, h.suffix]

theorem do_item_remove (h : c'.store = c.store) (hr : c.do_item_remove it = some c₁) :
    c'.do_item_remove it = some { c' with store := c₁.store } ∧ c₁ = { c with store := c₁.store } := by
  obtain ⟨s, hs, hr⟩ := Option.bind_eq_some_iff.mp hr
  cases hr
  exact ⟨by rw [Cache.do_item_remove, h, hs]; rfl, rfl⟩

theorem do_item_alloc {new : NewItem} {r : Option Ptr} (h : c'.store = c.store)
    (hr : c.do_item_alloc cfg new rounds = some (c₁, r)) :
    ∃ c₁', c'.do_item_alloc cfg new rounds = some (c₁', r) ∧ c₁'.store = c₁.store := by
  obtain ⟨⟨s, r'⟩, hs, hr⟩ := Option.bind_eq_some_iff.mp hr
  rw [Cache.do_item_alloc, h, hs]
  cases r' with
  | none => cases hr; exact ⟨_, rfl, rfl⟩
  | some p => cases hr; exact ⟨_, rfl, rfl⟩

theorem replace_in_place_eq (cfg : Settings) (c : Cache) (it : Ptr) (buf : List UInt8) : ∃ data, c.replace_in_place cfg it buf =
    (Store.do_item_update cfg
      ((if cfg.use_cas then { c.store with cas_id := c.store.cas_id + 1 } else c.store).modify it fun i =>
        i.set_cas (if cfg.use_cas then
          (if cfg.use_cas then { c.store with cas_id := c.store.cas_id + 1 } else c.store).cas_id else 0)) it).bind
      fun s => some { c with store := s, data := data } :=
  ⟨_, rfl⟩

theorem replace_in_place (h : c'.store = c.store) (hr : c.replace_in_place cfg it buf = some c₁) :
    ∃ c₁', c'.replace_in_place cfg it buf = some c₁' ∧ c₁'.store = c₁.store := by
  obtain ⟨data, heq⟩ := replace_in_place_eq cfg c it buf
  obtain ⟨data', heq'⟩ := replace_in_place_eq cfg c' it buf
  rw [heq] at hr
  obtain ⟨s, hs, hr⟩ := Option.bind_eq_some_iff.mp hr
  cases hr
  exact ⟨{ c' with store := s, data := data' }, by rw [heq', h, hs]; rfl, rfl⟩

theorem replace_item {replaced : Bool} (h : Twins c c' it) (hr : c.replace_item cfg it buf rounds = some (c₁, replaced)) :
    ∃ c₁', c'.replace_item cfg it buf rounds = some (c₁', replaced) ∧ c₁'.store = c₁.store := by
  obtain ⟨⟨c₂, r⟩, ha, hr⟩ := Option.bind_eq_some_iff.mp hr
  obtain ⟨c₂', ha', hstore⟩ := do_item_alloc h.store ha
  rw [Cache.replace_item]
  simp only [h.store, h.flags]
  rw [ha']
  cases r with
  | none => cases hr; exact ⟨_, rfl, hstore⟩
  | some p =>
      obtain ⟨s, hs, hr⟩ := Option.bind_eq_some_iff.mp hr
      obtain ⟨c₃, hremove, hr⟩ := Option.bind_eq_some_iff.mp hr
      cases hr
      have hs' : ((c₂'.write p 0 buf).write p buf.length [13, 10]).store.do_item_replace cfg it p = some s := by
        simp only [Cache.write, hstore] at hs ⊢
        exact hs
      have hremove' : Cache.do_item_remove { (c₂'.write p 0 buf).write p buf.length [13, 10] with
          store := s.modify it fun i => i.set_cas (if cfg.use_cas then (s.heap p).get_cas else 0) } p = some _ :=
        (do_item_remove (by rfl) hremove).1
      refine ⟨{ (c₂'.write p 0 buf).write p buf.length [13, 10] with store := c₁.store }, ?_, rfl⟩
      simp only [Option.bind_eq_bind, Option.bind_some, hs']
      rw [hremove']
      rfl

theorem finish_delta (h : c'.store = c.store) (hr : c.finish_delta it buf cas = some reply) :
    ∃ reply', c'.finish_delta it buf cas = some reply' ∧ Echo reply reply' := by
  obtain ⟨c₁, hremove, rfl⟩ := finish_delta_cases hr
  refine ⟨⟨{ c' with store := c₁.store }, .OK, buf, cas.map fun _ => (c.store.heap it).get_cas⟩, ?_, rfl, rfl, rfl, rfl⟩
  rw [Cache.finish_delta, (do_item_remove h hremove).1, h]
  rfl

theorem store_delta {value : UInt64} (h : Twins c c' it) (hr : c.store_delta cfg it value cas rounds = some reply) :
    ∃ reply', c'.store_delta cfg it value cas rounds = some reply' ∧ Echo reply reply' := by
  simp only [Cache.store_delta, h.store] at hr ⊢
  split at hr
  · next hfits =>
    rw [if_pos hfits]
    obtain ⟨c₁, hwrite, hr⟩ := Option.bind_eq_some_iff.mp hr
    obtain ⟨c₁', hwrite', hstore⟩ := replace_in_place h.store hwrite
    obtain ⟨reply', hfinish, hsame⟩ := finish_delta hstore hr
    exact ⟨reply', by rw [hwrite']; exact hfinish, hsame⟩
  next hfits =>
  rw [if_neg hfits]
  split at hr
  · next hrefs =>
    rw [if_pos hrefs]
    obtain ⟨⟨c₁, replaced⟩, hreplace, hr⟩ := Option.bind_eq_some_iff.mp hr
    obtain ⟨c₁', hreplace', hstore⟩ := replace_item h hreplace
    rw [hreplace']
    cases replaced with
    | true => exact finish_delta hstore hr
    | false =>
        obtain ⟨c₂, hremove, hr⟩ := Option.bind_eq_some_iff.mp hr
        cases hr
        refine ⟨⟨{ c₁' with store := c₂.store }, .EOM, _, _⟩, ?_, rfl, rfl, rfl, rfl⟩
        exact Option.bind_eq_some_iff.mpr ⟨_, rfl, Option.bind_eq_some_iff.mpr ⟨_, (do_item_remove hstore hremove).1, rfl⟩⟩
  · next hrefs =>
    rw [if_neg hrefs]
    split at hr
    · next hone =>
      rw [if_pos hone]
      obtain ⟨c₂, hremove, hr⟩ := Option.bind_eq_some_iff.mp hr
      cases hr
      exact ⟨_, Option.bind_eq_some_iff.mpr ⟨_, (do_item_remove h.store hremove).1, rfl⟩, rfl, rfl, rfl, rfl⟩
    · next hone =>
      rw [if_neg hone]
      cases hr
      exact ⟨_, rfl, rfl, rfl, rfl, h.store⟩

theorem delta_item (h : Twins c c' it)
    (hread : c.not_a_number it = false → c.cas_mismatch it cas = false →
      safe_strtoull (c'.memory it) = safe_strtoull (c.memory it))
    (hr : c.delta_item cfg it incr delta buf cas rounds = some reply) :
    ∃ reply', c'.delta_item cfg it incr delta buf cas rounds = some reply' ∧ Echo reply reply' := by
  have hnumber : c'.not_a_number it = c.not_a_number it := by simp only [Cache.not_a_number, h.store]
  have hmatch : c'.cas_mismatch it cas = c.cas_mismatch it cas := by simp only [Cache.cas_mismatch, h.store]
  simp only [Cache.delta_item, hnumber, hmatch] at hr ⊢
  split at hr
  · next hnot =>
    rw [if_pos hnot]
    cases hr
    exact ⟨_, rfl, rfl, rfl, rfl, h.store⟩
  next hnot =>
  rw [if_neg hnot]
  split at hr
  · next hmis =>
    rw [if_pos hmis]
    obtain ⟨c₂, hremove, hr⟩ := Option.bind_eq_some_iff.mp hr
    cases hr
    exact ⟨_, Option.bind_eq_some_iff.mpr ⟨_, (do_item_remove h.store hremove).1, rfl⟩, rfl, rfl, rfl, rfl⟩
  next hmis =>
  rw [if_neg hmis, hread (by simpa using hnot) (by simpa using hmis)]
  split at hr
  · obtain ⟨c₂, hremove, hr⟩ := Option.bind_eq_some_iff.mp hr
    cases hr
    exact ⟨_, Option.bind_eq_some_iff.mpr ⟨_, (do_item_remove h.store hremove).1, rfl⟩, rfl, rfl, rfl, rfl⟩
  · exact store_delta h hr

end Twins

theorem Echo.symm {reply' : Reply} (h : Echo reply reply') : Echo reply' reply :=
  ⟨h.result.symm, h.buf.symm, h.cas.symm, h.store.symm⟩

/-! ## The value afterwards -/

/-- What is under `key` afterwards was there before, as long as it is now. -/
theorem kept_value {d d' : Cache} (h : Agree key c c') (hdata : d.data = c.data) (hdata' : d'.data = c'.data)
    (hstore : d'.store = d.store) (hkept : ∀ p, d.store.table key = some p →
      c.store.table key = some p ∧ (d.store.heap p).nbytes = (c.store.heap p).nbytes) (hp : d.store.table key = some p) :
    d'.bytes p = d.bytes p := by
  obtain ⟨ht, hlen⟩ := hkept p hp
  have hbytes := h.bytes p ht
  simp only [Cache.bytes, h.store] at hbytes
  simp only [Cache.bytes, hstore, hlen, hdata, hdata']
  exact hbytes

theorem framed_kept {s s' : Store} (hs : s.Sound) (hs' : s'.Sound) (hf : Store.Framed s s') (hp : s'.table key = some p) :
    s.table key = some p ∧ (s'.heap p).nbytes = (s.heap p).nbytes := by
  obtain htable | ⟨-, -, -, hnone⟩ := Store.Framed.table hs hs' hf key
  · refine ⟨htable ▸ hp, ?_⟩
    obtain ⟨l, hc'⟩ := hs'
    have hl := (((hc'.placed p).table key).mp hp).2.1
    obtain hstays | hr := hf.items p
    · exact Item.shape_congr Item.nbytes (fun _ => rfl) hstays.shape
    · exact absurd hl hr.unlinked
  · rw [hnone] at hp
    cases hp

theorem framed_of_dead {s₁ s : Store} (ht : c.store.table key = some it) (hs : c.store.Sound)
    (hunlink : (c.store.refcount_incr it).do_item_unlink it = some s₁) (hremove : s₁.do_item_remove it = some s) :
    Store.Framed c.store s := by
  obtain ⟨hstays, hremoved⟩ := dead_framed (entry_linked hs ht).2.1 hunlink hremove
  refine ⟨fun p => ?_, ?_⟩
  · by_cases hp : p = it
    · subst hp; exact .inr hremoved
    · exact .inl (hstays p hp)
  · rw [Store.do_item_remove_cas_id hremove, Store.do_item_unlink_cas_id hunlink]
    rfl

theorem taken_kept (hp : (c.taken it).store.table key = some p) :
    c.store.table key = some p ∧ ((c.taken it).store.heap p).nbytes = (c.store.heap p).nbytes := by
  refine ⟨hp, ?_⟩
  by_cases hit : p = it
  · subst hit
    rw [taken_heap]
  · simp [Cache.taken, Store.hold, Store.refcount_incr, Store.modify, hit]

/-- What is under `key` after a failure was there before. -/
theorem failed_kept (hs : c.store.Sound) (ht : c.store.table key = some it)
    (hd : (c.taken it).delta_item cfg it incr delta buf cas rounds = some reply) (hs' : reply.cache.store.Sound)
    (hfail : reply.result ≠ .OK) : reply.cache.data = c.data ∧ ∀ p, reply.cache.store.table key = some p →
      c.store.table key = some p ∧ (reply.cache.store.heap p).nbytes = (c.store.heap p).nbytes := by
  have hl := (entry_linked hs ht).2.1
  obtain ⟨⟨n, rfl⟩, -, -⟩ := entry_linked hs ht
  cases delta_item_cases hd with
  | not_a_number _ => exact ⟨rfl, fun _ => taken_kept⟩
  | cas_mismatch _ hremove => rw [remove_taken hl hremove]; exact ⟨rfl, fun _ hp => ⟨hp, rfl⟩⟩
  | non_numeric _ hremove => rw [remove_taken hl hremove]; exact ⟨rfl, fun _ hp => ⟨hp, rfl⟩⟩
  | in_place _ _ _ _ => exact absurd rfl hfail
  | replaced _ _ _ => exact absurd rfl hfail
  | no_memory hreplace hremove =>
      have hadv : Advances cfg c.store (c.taken (.item n)).store := taken_advances
      obtain ⟨s, -, hf, rfl⟩ := replace_item_none (hadv hs).1 hreplace
      obtain ⟨s', hrelease, hremove⟩ := Option.bind_eq_some_iff.mp hremove
      cases hremove
      exact ⟨rfl, fun _ => framed_kept hs hs' (release_framed hl hf hrelease)⟩
  | last _ hremove => rw [remove_taken hl hremove]; exact ⟨rfl, fun _ hp => ⟨hp, rfl⟩⟩
  | wrapped _ _ _ _ => exact ⟨rfl, fun _ => taken_kept⟩

/-- What both caches hold afterwards, if the two deltas succeed with the same text. -/
theorem stored_value {reply' : Reply} (h : Agree key c c') (hs : c.store.Sound)
    (htag : ∀ n, Store.Tagged cfg (c.store.heap (.item n))) (ht : c.store.table key = some it)
    (hline : ∃ pre, c.bytes it = pre ++ [13, 10])
    (hd : do_add_delta cfg c key incr delta buf cas rounds = some reply)
    (hd' : do_add_delta cfg c' key incr delta buf cas rounds = some reply') (hecho : Echo reply reply')
    (hok : reply.result = .OK) (hp : reply.cache.store.table key = some p) :
    reply'.cache.bytes p = reply.cache.bytes p := by
  have hkey : ((c.taken it).store.heap it).key = key := by
    rw [taken_heap]
    exact (entry_linked hs ht).2.2
  obtain ⟨c₁, c₂, q, value, -, hstored, hremove, rfl⟩ := delta_ok_stored hs htag ht hline hd hok
  have ht' : c'.store.table key = some it := by rw [h.store]; exact ht
  have hline' : ∃ pre, c'.bytes it = pre ++ [13, 10] := by rw [h.bytes it ht]; exact hline
  obtain ⟨c₁', c₂', q', value', -, hstored', hremove', rfl⟩ :=
    delta_ok_stored (h.store.symm ▸ hs) (by rw [h.store]; exact htag) ht' hline' hd' (hecho.result.trans hok)
  obtain ⟨hq, k, hbytes⟩ := hstored.removed hremove
  obtain ⟨hq', k', hbytes'⟩ := hstored'.removed hremove'
  have hkey' : ((c'.taken it).store.heap it).key = key := by
    rw [taken_heap, h.store]
    exact (entry_linked hs ht).2.2
  have hstore : c₂'.store = c₂.store := hecho.store
  have htext : delta_text incr delta value' = delta_text incr delta value := hecho.buf
  rw [hkey] at hq
  rw [hkey', hstore] at hq'
  dsimp only at hp ⊢
  obtain rfl := Option.some.inj (hq.symm.trans hp)
  obtain rfl := Option.some.inj (hq'.symm.trans hp)
  have hlen : (c₂'.bytes q').length = (c₂.bytes q').length := by simp [Cache.bytes, hstore]
  rw [hbytes, hbytes', htext] at hlen
  simp only [List.length_append, List.length_replicate, Nat.add_left_cancel_iff, Nat.add_right_cancel_iff] at hlen
  rw [hbytes, hbytes', htext, hlen]

/-! ## Two runs -/

/-- If both parse the same number, the second cache does what the first does. -/
theorem do_add_delta_same (h : Agree key c c') (hs : c.store.Sound)
    (htag : ∀ n, Store.Tagged cfg (c.store.heap (.item n)))
    (hline : ∀ it, c.store.table key = some it → c.not_a_number it = false → ∃ pre, c.bytes it = pre ++ [13, 10])
    (hread : ∀ it, c.store.table key = some it → ¬ c.store.dead it → c.not_a_number it = false →
      c.cas_mismatch it cas = false → safe_strtoull (c'.memory it) = safe_strtoull (c.memory it))
    (hd : do_add_delta cfg c key incr delta buf cas rounds = some reply) :
    ∃ reply', do_add_delta cfg c' key incr delta buf cas rounds = some reply' ∧ Same key reply reply' := by
  have hs' := (do_add_delta_advances hd hs).1
  have hdelta := hd
  obtain ⟨⟨s, r⟩, hget, hd⟩ := Option.bind_eq_some_iff.mp hd
  have hget' : c'.store.do_item_get cfg key false false = some (s, r) := by rw [h.store]; exact hget
  obtain ⟨hnone, rfl, rfl⟩ | ⟨it, ht, ⟨-, rfl, s₁, hunlink, hremove⟩ | ⟨hlive, rfl, -⟩⟩ := Store.do_item_get_cases hget
  · cases hd
    refine ⟨⟨{ c' with store := c.store }, .DELTA_ITEM_NOT_FOUND, buf, cas⟩, by rw [do_add_delta, hget']; rfl,
      ⟨rfl, rfl, rfl, rfl⟩, fun p hp => ?_⟩
    rw [hnone] at hp
    cases hp
  · cases hd
    refine ⟨⟨{ c' with store := s }, .DELTA_ITEM_NOT_FOUND, buf, cas⟩, by rw [do_add_delta, hget']; rfl,
      ⟨rfl, rfl, rfl, rfl⟩, fun p hp => ?_⟩
    exact kept_value h rfl rfl rfl (fun p => framed_kept hs hs' (framed_of_dead ht hs hunlink hremove)) hp
  · have ht' : c'.store.table key = some it := by rw [h.store]; exact ht
    have hlive' : ¬ c'.store.dead it := by rw [h.store]; exact hlive
    have hitem := hdelta
    rw [do_add_delta_live ht hlive] at hitem
    have hparse : (c.taken it).not_a_number it = false → (c.taken it).cas_mismatch it cas = false →
        safe_strtoull ((c'.taken it).memory it) = safe_strtoull ((c.taken it).memory it) := by
      rw [taken_not_a_number, taken_cas_mismatch, taken_memory, taken_memory]
      exact hread it ht hlive
    obtain ⟨reply', hitem', hecho⟩ := (h.twins ht).taken.delta_item hparse hitem
    have hdelta' := hitem'
    rw [← do_add_delta_live ht' hlive'] at hdelta'
    refine ⟨reply', hdelta', hecho, fun p hp => ?_⟩
    by_cases hok : reply.result = .OK
    · have hnumber : c.not_a_number it = false := by
        cases hnot : c.not_a_number it with
        | false => rfl
        | true =>
            rw [Cache.delta_item, if_pos (taken_not_a_number.trans hnot)] at hitem
            cases hitem
            cases hok
      exact stored_value h hs htag ht (hline it ht hnumber) hdelta hdelta' hecho hok hp
    · obtain ⟨hdata, hkept⟩ := failed_kept hs ht hitem hs' hok
      obtain ⟨hdata', -⟩ := failed_kept (h.store.symm ▸ hs) ht' hitem' (hecho.store.symm ▸ hs')
        fun hok' => hok (hecho.result.symm.trans hok')
      exact kept_value h hdata hdata' hecho.store hkept hp

/-- A delta of an item whose references have wrapped fails, if it comes to read the number. -/
theorem delta_item_wrapped (hs : c.store.Sound) (ht : c.store.table key = some it) (hnumber : c.not_a_number it = false)
    (hmatch : c.cas_mismatch it cas = false) (hrefs : (c.store.heap it).refcount = 0) :
    (c.taken it).delta_item cfg it incr delta buf cas rounds = none := by
  have hl := (entry_linked hs ht).2.1
  have hone : ((c.taken it).store.heap it).refcount = 1 := by
    rw [taken_heap, hrefs]
    rfl
  have hremove : (c.taken it).do_item_remove it = none := by
    cases hremove : (c.taken it).do_item_remove it with
    | none => rfl
    | some c' =>
        obtain ⟨s', hrelease, -⟩ := Option.bind_eq_some_iff.mp hremove
        obtain ⟨-, ⟨-, hnot, -⟩ | ⟨-, hnot, -⟩⟩ := Store.do_item_remove_cases (Store.release_cases hrelease).2
        · exact absurd hone hnot
        · rw [taken_heap] at hnot
          exact absurd hl hnot
  rw [Cache.delta_item, if_neg (by simp [taken_not_a_number, hnumber]), if_neg (by simp [taken_cas_mismatch, hmatch])]
  split
  · rw [hremove]
    rfl
  · rw [Cache.store_delta, hone]
    rw [if_neg fun hfits => absurd hfits.2 (by decide), if_neg (by decide), if_pos rfl, hremove]
    rfl

/-- A number that is read counts: the result is another than without one. -/
theorem delta_item_number {value : UInt64} (hnumber : c.not_a_number it = false)
    (hread : safe_strtoull (c.memory it) = some value)
    (hd : c.delta_item cfg it incr delta buf cas rounds = some reply) : reply.result ≠ .NON_NUMERIC := by
  cases delta_item_cases hd with
  | not_a_number hnot => rw [hnumber] at hnot; cases hnot
  | non_numeric hnone _ => rw [hread] at hnone; cases hnone
  | _ => simp

theorem remove_taken_some (hs : c.store.Sound) (ht : c.store.table key = some it)
    (hrefs : ((c.taken it).store.heap it).refcount ≠ 0) (hone : ((c.taken it).store.heap it).refcount ≠ 1) :
    ((c.taken it).do_item_remove it).isSome := by
  obtain ⟨⟨n, rfl⟩, hl, -⟩ := entry_linked hs ht
  obtain ⟨l, hc⟩ := hs
  have hused : ((c.taken (.item n)).store.heap (.item n)).it_flags.slabbed = false := by
    rw [taken_heap]
    simpa using (hc.placed (.item n)).kind.2 hl
  have hheld : (c.taken (.item n)).store.held (.item n) ≠ 0 := by simp [Cache.taken, Store.hold]
  have hzero : ((c.taken (.item n)).store.heap (.item n)).refcount - 1 ≠ 0 := fun h => hone (sub_eq_zero.mp h)
  simp [Cache.do_item_remove, Store.release, hheld, Store.do_item_remove, hused, hrefs, Store.refcount_decr, hzero]

/-- One cache finds a number, the other does not: the two deltas end differently. -/
theorem reads_differ {value : UInt64} (h : Agree key c c') (hs : c.store.Sound) (ht : c.store.table key = some it)
    (hlive : ¬ c.store.dead it) (hnumber : c.not_a_number it = false) (hmatch : c.cas_mismatch it cas = false)
    (hrefs : (c.store.heap it).refcount ≠ 0) (hnone : safe_strtoull (c.memory it) = none)
    (hread : safe_strtoull (c'.memory it) = some value) :
    ¬ Option.Rel (Same key) (do_add_delta cfg c key incr delta buf cas rounds)
      (do_add_delta cfg c' key incr delta buf cas rounds) := by
  have ht' : c'.store.table key = some it := by rw [h.store]; exact ht
  have hlive' : ¬ c'.store.dead it := by rw [h.store]; exact hlive
  have hnumber' : (c'.taken it).not_a_number it = false := by
    rw [taken_not_a_number, Cache.not_a_number, h.store]
    exact hnumber
  have hmatch' : (c'.taken it).cas_mismatch it cas = false := by
    rw [taken_cas_mismatch, Cache.cas_mismatch, h.store]
    exact hmatch
  have hread' : safe_strtoull ((c'.taken it).memory it) = some value := by rw [taken_memory]; exact hread
  have hitem : (c.taken it).delta_item cfg it incr delta buf cas rounds =
      ((c.taken it).do_item_remove it).bind fun c₁ => some ⟨c₁, .NON_NUMERIC, buf, cas⟩ := by
    rw [Cache.delta_item, if_neg (by simp [taken_not_a_number, hnumber]), if_neg (by simp [taken_cas_mismatch, hmatch]),
      taken_memory, hnone]
    rfl
  rw [do_add_delta_live ht hlive, do_add_delta_live ht' hlive', hitem]
  cases hremove : (c.taken it).do_item_remove it with
  | some c₁ =>
      rw [Option.bind_some]
      intro hrel
      generalize hd : (c'.taken it).delta_item cfg it incr delta buf cas rounds = r at hrel
      cases hrel with
      | some hsame => exact delta_item_number hnumber' hread' hd hsame.result
  | none =>
      -- the references have wrapped: the other cache does not even try to remove one
      have hwrapped : ((c'.taken it).store.heap it).refcount = 0 := by
        by_contra hne
        rw [taken_heap, h.store] at hne
        have hsome := remove_taken_some hs ht (by rw [taken_heap]; exact hne) (by
          rw [taken_heap]
          exact fun hone => hrefs (add_eq_right.mp hone))
        rw [hremove] at hsome
        cases hsome
      rw [Cache.delta_item, if_neg (by simp [hnumber']), if_neg (by simp [hmatch']), hread']
      simp only [Cache.store_delta, hwrapped]
      rw [if_neg fun hfits => absurd hfits.2 (by decide), if_neg (by decide), if_neg (by decide)]
      intro hrel
      cases hrel

theorem Same.symm {reply' : Reply} (h : Same key reply reply') : Same key reply' reply where
  toEcho := h.toEcho.symm
  value := fun p hp => (h.value p (h.store ▸ hp)).symm

theorem rel_symm {r r' : Option Reply} (h : Option.Rel (Same key) r r') : Option.Rel (Same key) r' r := by
  cases h with
  | some hsame => exact .some hsame.symm
  | none => exact .none

/-- What memory holds behind `it` is replaced. -/
def Cache.behind (c : Cache) (it : Ptr) (more : List UInt8) : Cache := { c with beyond := Function.update c.beyond it more }

theorem behind_agree {more : List UInt8} : Agree key c (c.behind it more) := ⟨rfl, fun _ _ => rfl, fun _ _ => rfl⟩

theorem behind_memory {more : List UInt8} : (c.behind it more).memory it = c.bytes it ++ more := by
  simp only [Cache.memory, Cache.behind, Function.update_self]
  rfl

/-- A delta depends on no byte of others, exactly when it does not read on behind its own. -/
theorem delta_own_value_iff (h₀ : c₀.store = .empty) (h : Run (Cache.Step cfg) c₀ es c)
    (hline : ∀ it, c.store.table key = some it → c.not_a_number it = false → ∃ pre, c.bytes it = pre ++ [13, 10]) :
    (∀ buf rounds c', Agree key c c' → Option.Rel (Same key) (do_add_delta cfg c key incr delta buf cas rounds)
      (do_add_delta cfg c' key incr delta buf cas rounds)) ↔ ¬ ReadsOn c key cas := by
  have hs := reachable_sound h₀ h
  have htag := reachable_tagged h₀ h
  constructor
  · rintro hsame ⟨it, ht, hlive, hnumber, hmatch, hrefs, hopen⟩
    obtain ⟨pre, hpre⟩ := hline it ht hnumber
    obtain ⟨⟨more, hnone⟩, more', value, hread⟩ := safe_strtoull_open hpre hopen
    cases hc : safe_strtoull (c.memory it) with
    | none =>
        have hmore' : safe_strtoull ((c.behind it more').memory it) = some value := by rw [behind_memory, hread]
        exact reads_differ behind_agree hs ht hlive hnumber hmatch hrefs hc hmore' (hsame [] [] _ behind_agree)
    | some w =>
        have hmore : safe_strtoull ((c.behind it more).memory it) = none := by rw [behind_memory, hnone]
        exact reads_differ (c := c.behind it more) behind_agree.symm hs ht hlive hnumber hmatch hrefs hmore hc
          (rel_symm (hsame [] [] _ behind_agree))
  · intro hclosed buf rounds c' hagree
    by_cases hwrapped : ∃ it, c.store.table key = some it ∧ ¬ c.store.dead it ∧ c.not_a_number it = false ∧
        c.cas_mismatch it cas = false ∧ (c.store.heap it).refcount = 0
    · obtain ⟨it, ht, hlive, hnumber, hmatch, hrefs⟩ := hwrapped
      rw [do_add_delta_live ht hlive, delta_item_wrapped hs ht hnumber hmatch hrefs,
        do_add_delta_live (hagree.store.symm ▸ ht) (hagree.store.symm ▸ hlive), delta_item_wrapped]
      · exact .none
      · exact hagree.store.symm ▸ hs
      · exact hagree.store.symm ▸ ht
      · rw [Cache.not_a_number, hagree.store]; exact hnumber
      · rw [Cache.cas_mismatch, hagree.store]; exact hmatch
      · rw [hagree.store]; exact hrefs
    have hread : ∀ it, c.store.table key = some it → ¬ c.store.dead it → c.not_a_number it = false →
        c.cas_mismatch it cas = false → safe_strtoull (c'.memory it) = safe_strtoull (c.memory it) := by
      intro it ht hlive hnumber hmatch
      obtain ⟨pre, hpre⟩ := hline it ht hnumber
      have hopen : ¬ Open (c.bytes it) := fun hopen => hclosed ⟨it, ht, hlive, hnumber, hmatch,
        fun hrefs => hwrapped ⟨it, ht, hlive, hnumber, hmatch, hrefs⟩, hopen⟩
      rw [Cache.memory, Cache.memory, hagree.bytes it ht, safe_strtoull_closed hpre hopen, safe_strtoull_closed hpre hopen]
    cases hd : do_add_delta cfg c key incr delta buf cas rounds with
    | some reply =>
        obtain ⟨reply', hd', hsame⟩ := do_add_delta_same hagree hs htag hline hread hd
        rw [hd']
        exact .some hsame
    | none =>
        cases hd' : do_add_delta cfg c' key incr delta buf cas rounds with
        | none => exact .none
        | some reply' =>
            have hline' : ∀ it, c'.store.table key = some it → c'.not_a_number it = false →
                ∃ pre, c'.bytes it = pre ++ [13, 10] := by
              intro it ht hnumber
              rw [hagree.store] at ht
              rw [Cache.not_a_number, hagree.store] at hnumber
              rw [hagree.bytes it ht]
              exact hline it ht hnumber
            have hread' : ∀ it, c'.store.table key = some it → ¬ c'.store.dead it → c'.not_a_number it = false →
                c'.cas_mismatch it cas = false → safe_strtoull (c.memory it) = safe_strtoull (c'.memory it) := by
              intro it ht hlive hnumber hmatch
              rw [hagree.store] at ht hlive
              rw [Cache.not_a_number, hagree.store] at hnumber
              rw [Cache.cas_mismatch, hagree.store] at hmatch
              exact (hread it ht hlive hnumber hmatch).symm
            obtain ⟨reply, hsome, -⟩ := do_add_delta_same hagree.symm (hagree.store.symm ▸ hs)
              (by rw [hagree.store]; exact htag) hline' hread' hd'
            rw [hd] at hsome
            cases hsome

end

/-! ## Two blanks -/

/-- A value of two blanks. -/
def blanks : Cache := holding [32, 32, 13, 10] (Option.get _ store_one_runs)

theorem blanks_runs :
    Run (Cache.Step Store.settings) (holding [32, 32, 13, 10] .empty) ((store_one 4).map .items) blanks :=
  holding_run (Option.some_get store_one_runs).symm

theorem blanks_line (it : Ptr) (ht : blanks.store.table [97] = some it) : blanks.bytes it = [32, 32] ++ [13, 10] := by
  have hit : blanks.store.table [97] = some (.item 0) := by decide +kernel
  obtain rfl := Option.some.inj (hit.symm.trans ht)
  decide +kernel

theorem delta_own_value_iff_witness :
    (∀ buf rounds c', Agree [97] blanks c' →
      Option.Rel (Same [97]) (do_add_delta Store.settings blanks [97] true 1 buf none rounds)
        (do_add_delta Store.settings c' [97] true 1 buf none rounds)) ↔ ¬ ReadsOn blanks [97] none :=
  delta_own_value_iff rfl blanks_runs fun it ht _ => ⟨_, blanks_line it ht⟩

theorem blanks_incrs : (do_add_delta Store.settings blanks [97] true 1 [] none []).isSome ∧
    (do_add_delta Store.settings (blanks.behind (.item 0) [55, 0]) [97] true 1 [] none []).isSome := by decide +kernel

theorem blanks_incr : (do_add_delta Store.settings blanks [97] true 1 [] none []).isSome := blanks_incrs.1

theorem seven_incr :
    (do_add_delta Store.settings (blanks.behind (.item 0) [55, 0]) [97] true 1 [] none []).isSome := blanks_incrs.2

/-- `incr` by 1 takes a 7 that lies behind two blanks for the value. -/
theorem neighbour_incremented : ∃ es c c' reply reply',
    Run (Cache.Step Store.settings) (holding [32, 32, 13, 10] .empty) es c ∧ Agree [97] c c' ∧
    (∃ it, c.store.table [97] = some it ∧ c.bytes it = [32, 32] ++ [13, 10]) ∧
    do_add_delta Store.settings c [97] true 1 [] none [] = some reply ∧ reply.result = .NON_NUMERIC ∧
    do_add_delta Store.settings c' [97] true 1 [] none [] = some reply' ∧ reply'.result = .OK ∧ reply'.buf = [56] :=
  ⟨_, _, _, _, _, blanks_runs, behind_agree, ⟨.item 0, by decide +kernel, by decide +kernel⟩,
    (Option.some_get blanks_incr).symm, by decide +kernel, (Option.some_get seven_incr).symm, by decide +kernel,
    by decide +kernel⟩

end Memcached.SlabsCurd

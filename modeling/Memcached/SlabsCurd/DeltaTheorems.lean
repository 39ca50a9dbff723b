import Mathlib.Algebra.Group.Basic
import Memcached.MemoryLru.ItemTheorems
import Memcached.SlabsCurd.Lemmas.Replacements

/-!
# What incr and decr do

In every state of every run, from the empty cache on.
-/

namespace Memcached.SlabsCurd

open MemoryLru Decimal Transition

inductive CacheEvent
  | items (e : Event)
  | delta (key : MemoryLru.Key) (incr : Bool) (delta : Int64) (buf : List UInt8) (cas : Option UInt64) (rounds : List Round)

/-- One event. The bytes of the items may be anything after a call of items.c, for clients upload them. -/
def Cache.Step (cfg : Settings) (c : Cache) (e : CacheEvent) (c' : Cache) : Prop :=
  match e with
  | .items e => MemoryLru.Step cfg c.store e c'.store
  | .delta key incr delta buf cas rounds =>
      ∃ reply, do_add_delta cfg c key incr delta buf cas rounds = some reply ∧ c' = reply.cache

section
variable {cfg : Settings} {c₀ c c' : Cache} {es : List CacheEvent} {key : MemoryLru.Key} {incr : Bool} {delta : Int64}
  {buf : List UInt8} {cas : Option UInt64} {rounds : List Round} {reply : Reply} {it : Ptr}

theorem step_advances {e : CacheEvent} (h : Cache.Step cfg c e c') : Advances cfg c.store c'.store := by
  cases e with
  | items e => exact fun hs => ⟨hs.step h, fun _ hI => hI.step hs h⟩
  | delta key incr delta buf cas rounds =>
      obtain ⟨reply, hdelta, rfl⟩ := h
      exact do_add_delta_advances hdelta

theorem run_advances (h : Run (Cache.Step cfg) c₀ es c) : Advances cfg c₀.store c.store := by
  induction h with
  | nil c => exact fun hs => ⟨hs, fun _ _ => .refl⟩
  | cons hstep _ ih => exact (step_advances hstep).trans ih

theorem reachable_sound (h₀ : c₀.store = .empty) (h : Run (Cache.Step cfg) c₀ es c) : c.store.Sound :=
  (run_advances h (h₀ ▸ Store.sound_empty)).1

theorem reachable_tagged (h₀ : c₀.store = .empty) (h : Run (Cache.Step cfg) c₀ es c) (n : Nat) :
    Store.Tagged cfg (c.store.heap (.item n)) :=
  (run_advances h (h₀ ▸ Store.sound_empty)).2 _ (Store.tagged_rule cfg) (fun n => by rw [h₀]; exact Store.tagged_empty) n

/-! ## The reference of do_item_get -/

theorem taken_heap : (c.taken it).store.heap it = { c.store.heap it with refcount := (c.store.heap it).refcount + 1 } := by
  simp [Cache.taken, Store.hold, Store.refcount_incr]

theorem taken_memory : (c.taken it).memory it = c.memory it := by
  simp only [Cache.memory, Cache.bytes, taken_heap]
  rfl

theorem taken_not_a_number : (c.taken it).not_a_number it = c.not_a_number it := by
  simp only [Cache.not_a_number, taken_heap]

theorem taken_cas_mismatch : (c.taken it).cas_mismatch it cas = c.cas_mismatch it cas := by
  simp only [Cache.cas_mismatch, taken_heap]
  rfl

/-! ## Successes -/

/-- The new number: modulo `2 ^ 64` upwards, and no less than 0 downwards. -/
def delta_value (incr : Bool) (delta : Int64) (old : UInt64) : Nat :=
  if incr then (old.toNat + delta.toUInt64.toNat) % 2 ^ 64 else old.toNat - delta.toUInt64.toNat

theorem apply_delta_toNat {old : UInt64} : (apply_delta incr delta old).toNat = delta_value incr delta old := by
  cases incr with
  | true => simp [apply_delta, delta_value, UInt64.toNat_add]
  | false =>
      simp only [apply_delta, delta_value, Bool.false_eq_true, if_false]
      split
      · next hgt =>
        rw [gt_iff_lt, UInt64.lt_iff_toNat_lt] at hgt
        simp only [UInt64.reduceToNat]
        omega
      · next hle =>
        rw [gt_iff_lt, UInt64.lt_iff_toNat_lt, Nat.not_lt] at hle
        exact UInt64.toNat_sub_of_le _ _ (UInt64.le_iff_toNat_le.mpr hle)

/-- The number `value` is stored under `key`, with a fresh CAS, in place of what `it` is in the cache `c`. -/
structure Updated (cfg : Settings) (c : Cache) (key : MemoryLru.Key) (it : Ptr) (value : Nat) (cas : Option UInt64) (reply : Reply) :
    Prop where
  buf : reply.buf = digits value
  stored : ∃ p, reply.cache.store.table key = some p ∧
    safe_strtoull (reply.cache.bytes p) = some (.ofNat value) ∧
    (∃ pre, reply.cache.bytes p = pre ++ [13, 10]) ∧
    (reply.cache.store.heap p).key = (c.store.heap it).key ∧
    reply.cache.flags cfg p = c.flags cfg it ∧
    (reply.cache.store.heap p).exptime = (c.store.heap it).exptime ∧
    (reply.cache.store.heap p).get_cas = fresh_cas cfg c.store.cas_id
  cas : reply.cas = cas.map fun _ => fresh_cas cfg c.store.cas_id

theorem Stored.removed {c₁ : Cache} {p : Ptr} (h : Stored cfg c it buf c₁ p) (hremove : c₁.do_item_remove it = some c') :
    c'.store.table (c.store.heap it).key = some p ∧ ∃ k, c'.bytes p = buf ++ (List.replicate k 32 ++ [13, 10]) := by
  obtain ⟨s', hrelease, hremove⟩ := Option.bind_eq_some_iff.mp hremove
  cases hremove
  obtain ⟨htable, -, halike⟩ := release_alike h.linked hrelease
  obtain ⟨k, hbytes⟩ := h.bytes
  refine ⟨?_, k, ?_⟩
  · rw [htable]
    exact h.table
  · rw [← hbytes]
    simp only [Cache.bytes, halike.nbytes]

theorem Stored.updated {c₁ : Cache} {p : Ptr} {value : Nat} (hvalue : value < 2 ^ 64) (hkey : (c.store.heap it).key = key)
    (h : Stored cfg c it (digits value) c₁ p) (hremove : c₁.do_item_remove it = some c') :
    Updated cfg c key it value cas ⟨c', .OK, digits value, cas.map fun _ => (c₁.store.heap it).get_cas⟩ := by
  obtain ⟨htable, k, hbytes⟩ := h.removed hremove
  rw [hkey] at htable
  obtain ⟨s', hrelease, hremove⟩ := Option.bind_eq_some_iff.mp hremove
  cases hremove
  obtain ⟨-, -, halike⟩ := release_alike h.linked hrelease
  refine ⟨rfl, ⟨p, htable, ?_, ⟨_, hbytes.trans (List.append_assoc ..).symm⟩, halike.key.trans h.key, ?_,
    halike.exptime.trans h.exptime, halike.get_cas.trans h.cas⟩, ?_⟩
  · have hread := @safe_strtoull_line value [] k hvalue (.inr (by simp [c_str]))
    rw [List.append_nil, number_line] at hread
    rw [hbytes, hread]
  · rw [← h.flags]
    simp only [Cache.flags, halike.nsuffix]
  · rw [h.returned (release_in_use hrelease)]

theorem Updated.of_taken {value : Nat} (h : Updated cfg (c.taken it) key it value cas reply) :
    Updated cfg c key it value cas reply := by
  obtain ⟨hbuf, ⟨p, htable, hread, hline, hkey, hflags, hexptime, hcas⟩, hreturned⟩ := h
  rw [taken_heap] at hkey hexptime
  refine ⟨hbuf, ⟨p, htable, hread, hline, hkey, hflags.trans ?_, hexptime, hcas⟩, hreturned⟩
  simp only [Cache.flags, taken_heap]
  rfl

/-- A delta that succeeds has stored the new text, and then given back its reference. -/
theorem delta_ok_stored (hs : c.store.Sound) (htag : ∀ n, Store.Tagged cfg (c.store.heap (.item n)))
    (ht : c.store.table key = some it) (hline : ∃ pre, c.bytes it = pre ++ [13, 10])
    (hdelta : do_add_delta cfg c key incr delta buf cas rounds = some reply) (hok : reply.result = .OK) :
    ∃ c₁ c' p value, safe_strtoull (c.memory it) = some value ∧
      Stored cfg (c.taken it) it (delta_text incr delta value) c₁ p ∧ c₁.do_item_remove it = some c' ∧
      reply = ⟨c', .OK, delta_text incr delta value, cas.map fun _ => (c₁.store.heap it).get_cas⟩ := by
  obtain ⟨hnone, -⟩ | ⟨it', ht', hends⟩ := do_add_delta_cases hdelta
  · rw [ht] at hnone; cases hnone
  rw [ht] at ht'
  obtain rfl := Option.some.inj ht'
  obtain ⟨-, s₁, s', -, -, rfl⟩ | ⟨-, hends⟩ := hends
  · cases hok
  obtain ⟨⟨k, rfl⟩, hl, hkey⟩ := entry_linked hs ht
  have hadv : Advances cfg c.store (c.taken (.item k)).store := taken_advances
  obtain ⟨hs', hkeeps⟩ := hadv hs
  have htag' := hkeeps _ (Store.tagged_rule cfg) htag
  cases hends with
  | not_a_number _ => cases hok
  | cas_mismatch _ _ => cases hok
  | non_numeric _ _ => cases hok
  | in_place hr hfits hwrite hremove =>
      have hused : ((c.taken (.item k)).store.heap (.item k)).it_flags.slabbed = false := by
        obtain ⟨l, hc⟩ := hs
        rw [taken_heap]
        simpa using (hc.placed (.item k)).kind.2 hl
      obtain ⟨pre, hline⟩ := hline
      have hline' : (c.taken (.item k)).bytes (.item k) = pre ++ [13, 10] := by
        rw [← hline]
        simp only [Cache.bytes, taken_heap]
        rfl
      refine ⟨_, _, _, _, taken_memory ▸ hr, replace_in_place_stored (htag' k) hused ?_ ?_ hline' hfits hwrite, hremove,
        rfl⟩
      · rw [taken_heap]
        exact hl
      · rw [taken_heap, hkey]
        exact ht
  | replaced hr hreplace hremove =>
      obtain ⟨n, hstored⟩ := replace_item_stored hs' htag' hreplace
      exact ⟨_, _, _, _, taken_memory ▸ hr, hstored, hremove, rfl⟩
  | no_memory _ _ => cases hok
  | last _ _ => cases hok
  | wrapped _ _ _ _ => cases hok

/-- A delta that succeeds stores the new number in place of a number on a line. -/
theorem delta_stores_number {old : UInt64} {pre : List UInt8} (h₀ : c₀.store = .empty)
    (h : Run (Cache.Step cfg) c₀ es c) (ht : c.store.table key = some it) (hline : c.bytes it = pre ++ [13, 10])
    (hold : safe_strtoull (c.bytes it) = some old)
    (hdelta : do_add_delta cfg c key incr delta buf cas rounds = some reply) (hok : reply.result = .OK) :
    Updated cfg c key it (delta_value incr delta old) cas reply := by
  obtain ⟨c₁, c', p, value, hread, hstored, hremove, rfl⟩ :=
    delta_ok_stored (reachable_sound h₀ h) (reachable_tagged h₀ h) ht ⟨_, hline⟩ hdelta hok
  -- what was read, up to the end of its line, is the number of the item
  obtain rfl := safe_strtoull_append hline hold hread
  have htext : delta_text incr delta value = digits (delta_value incr delta value) := by
    rw [delta_text, apply_delta_toNat]
  have hvalue : delta_value incr delta value < 2 ^ 64 := by
    rw [← apply_delta_toNat]
    exact (apply_delta incr delta value).toNat_lt
  have hkey : ((c.taken it).store.heap it).key = key := by
    rw [taken_heap]
    exact (entry_linked (reachable_sound h₀ h) ht).2.2
  rw [htext] at hstored ⊢
  exact (hstored.updated hvalue hkey hremove).of_taken

/-! ## Failures -/

/-- Nothing changed, but for items that were removed: for want of memory, or because the item of `key` is dead. -/
structure Restored (c c' : Cache) (key : MemoryLru.Key) (result : DeltaResult) : Prop where
  data : c'.data = c.data
  suffix : c'.suffix = c.suffix
  items : ∀ p, Store.Stays c.store c'.store p ∨
    Store.Removed c.store c'.store p ∧ (result = .EOM ∨ c.store.table key = some p ∧ c.store.dead p)
  table : ∀ k, c'.store.table k = c.store.table k ∨
    ∃ p, c.store.table k = some p ∧ Store.Removed c.store c'.store p ∧ c'.store.table k = none

theorem Restored.same {result : DeltaResult} : Restored c c key result :=
  ⟨rfl, rfl, fun _ => .inl .refl, fun _ => .inl rfl⟩

/-- A live item is long enough for a number and in one piece, and its references can be counted. -/
def Restores (c : Cache) (key : MemoryLru.Key) (cas : Option UInt64) : Prop :=
  ∀ it, c.store.table key = some it → ¬ c.store.dead it → c.not_a_number it = false ∧
    ((c.store.heap it).refcount = 65535 → c.cas_mismatch it cas = true ∨ safe_strtoull (c.memory it) = none)

theorem not_restored_taken {result : DeltaResult} (hl : (c.store.heap it).it_flags.linked) :
    ¬ Restored c (c.taken it) key result := by
  intro h
  rcases h.items it with hstays | ⟨hremoved, -⟩
  · have hrefs := hstays.refcount
    rw [taken_heap] at hrefs
    exact absurd (add_eq_left.mp hrefs) (by decide)
  · have hunlinked := hremoved.unlinked
    rw [taken_heap] at hunlinked
    exact hunlinked hl

theorem do_add_delta_live (ht : c.store.table key = some it) (hlive : ¬ c.store.dead it) :
    do_add_delta cfg c key incr delta buf cas rounds = (c.taken it).delta_item cfg it incr delta buf cas rounds := by
  have hget : c.store.do_item_get cfg key false false = some ((c.taken it).store, some it) := by
    simp only [Store.do_item_get, ht]
    rw [if_neg]
    · rfl
    · simpa [Store.dead, Store.item_is_flushed, Store.refcount_incr, Store.modify, Item.get_cas] using hlive
  rw [do_add_delta, hget]
  rfl

/-- A failure leaves no trace, exactly when the item is no shorter than a number and its references do not wrap. -/
theorem failure_restores_iff (h₀ : c₀.store = .empty) (h : Run (Cache.Step cfg) c₀ es c) :
    (∀ buf rounds reply, do_add_delta cfg c key incr delta buf cas rounds = some reply → reply.result ≠ .OK →
      Restored c reply.cache key reply.result) ↔ Restores c key cas := by
  have hs := reachable_sound h₀ h
  constructor
  · intro hrestored it ht hlive
    have hl := (entry_linked hs ht).2.1
    have hnumber : c.not_a_number it = false := by
      cases hnot : c.not_a_number it with
      | false => rfl
      | true =>
          have hends : do_add_delta cfg c key incr delta [] cas [] = some ⟨c.taken it, .NON_NUMERIC, [], cas⟩ := by
            rw [do_add_delta_live ht hlive, Cache.delta_item, if_pos (taken_not_a_number.trans hnot)]
          exact absurd (hrestored _ _ _ hends (by simp)) (not_restored_taken hl)
    refine ⟨hnumber, fun hmax => ?_⟩
    cases hmatch : c.cas_mismatch it cas with
    | true => exact .inl rfl
    | false =>
        cases hread : safe_strtoull (c.memory it) with
        | none => exact .inr rfl
        | some value =>
            have hrefs : ((c.taken it).store.heap it).refcount = 0 := by
              rw [taken_heap, hmax]
              rfl
            have hends : do_add_delta cfg c key incr delta [] cas [] =
                some ⟨c.taken it, .DELTA_ITEM_NOT_FOUND, delta_text incr delta value, cas⟩ := by
              rw [do_add_delta_live ht hlive, Cache.delta_item, if_neg (by simp [taken_not_a_number, hnumber]),
                if_neg (by simp [taken_cas_mismatch, hmatch]), taken_memory, hread]
              simp only [Cache.store_delta, hrefs, take_digits]
              rw [if_neg fun hfits => absurd hfits.2 (by decide), if_neg (by decide), if_neg (by decide)]
              rfl
            exact absurd (hrestored _ _ _ hends (by simp)) (not_restored_taken hl)
  · intro hrestores buf rounds reply hdelta hfail
    obtain ⟨-, rfl⟩ | ⟨it, ht, hends⟩ := do_add_delta_cases hdelta
    · exact .same
    obtain ⟨⟨n, rfl⟩, hl, -⟩ := entry_linked hs ht
    obtain ⟨hdead, s₁, s', hunlink, hremove, rfl⟩ | ⟨hlive, hends⟩ := hends
    · obtain ⟨hstays, hremoved⟩ := dead_framed hl hunlink hremove
      have hframed : ∀ p, Store.Stays c.store s' p ∨ Store.Removed c.store s' p := by
        intro p
        by_cases hp : p = .item n
        · subst hp; exact .inr hremoved
        · exact .inl (hstays p hp)
      have hs' := (do_add_delta_advances hdelta hs).1
      refine ⟨rfl, rfl, fun p => ?_, Store.Framed.table hs hs' ⟨hframed, ?_⟩⟩
      · by_cases hp : p = .item n
        · subst hp; exact .inr ⟨hremoved, .inr ⟨ht, hdead⟩⟩
        · exact .inl (hstays p hp)
      · rw [Store.do_item_remove_cas_id hremove, Store.do_item_unlink_cas_id hunlink]
        rfl
    obtain ⟨hnumber, hcounted⟩ := hrestores _ ht hlive
    have hs' := (do_add_delta_advances hdelta hs).1
    cases hends with
    | not_a_number hnot => rw [taken_not_a_number, hnumber] at hnot; cases hnot
    | cas_mismatch _ hremove => rw [remove_taken hl hremove]; exact .same
    | non_numeric _ hremove => rw [remove_taken hl hremove]; exact .same
    | in_place _ _ _ _ => exact absurd rfl hfail
    | replaced _ _ _ => exact absurd rfl hfail
    | no_memory hreplace hremove =>
        have hadv : Advances cfg c.store (c.taken (.item n)).store := taken_advances
        obtain ⟨s, -, hf, rfl⟩ := replace_item_none (hadv hs).1 hreplace
        obtain ⟨s', hrelease, hremove⟩ := Option.bind_eq_some_iff.mp hremove
        cases hremove
        have hframed := release_framed hl hf hrelease
        refine ⟨rfl, rfl, fun p => ?_, Store.Framed.table hs hs' hframed⟩
        rcases hframed.items p with hstays | hremoved
        · exact .inl hstays
        · exact .inr ⟨hremoved, .inl rfl⟩
    | last _ hremove => rw [remove_taken hl hremove]; exact .same
    | wrapped _ hmatch hread hrefs =>
        rw [taken_heap] at hrefs
        have hmax : (c.store.heap (.item n)).refcount = 65535 := eq_neg_of_add_eq_zero_left hrefs
        rw [taken_cas_mismatch] at hmatch
        rw [taken_memory] at hread
        rcases hcounted hmax with hmis | hnone
        · rw [hmatch] at hmis; cases hmis
        · rw [hread] at hnone; cases hnone

end

/-! ## One item -/

/-- An item of `nbytes` bytes is stored under the key `a`. -/
def store_one (nbytes : Nat) : List Event :=
  [.alloc ⟨[97], 0, 0, nbytes⟩ [⟨some (.item 0), 0, [], [], []⟩], .link 0, .remove 0]

/-- The cache that holds `text` wherever there is an item. -/
def holding (text : List UInt8) (s : Store) : Cache where
  store := s
  data := fun _ i => text.getD i 0
  suffix := fun _ => []
  beyond := fun _ => []

theorem holding_run {cfg : Settings} {text : List UInt8} {s t : Store} {es : List Event}
    (h : es.foldlM (Store.step cfg) s = some t) :
    Run (Cache.Step cfg) (holding text s) (es.map .items) (holding text t) := by
  induction es generalizing s with
  | nil =>
      obtain rfl := Option.some.inj h
      exact .nil _
  | cons e es ih =>
      rw [List.foldlM_cons] at h
      obtain ⟨s', hs, ht⟩ := Option.bind_eq_some_iff.mp h
      have hstep : Cache.Step cfg (holding text s) (.items e) (holding text s') := hs
      exact .cons hstep (ih ht)

/-- The settings of a server that was started with `-C`. -/
def without_cas : Settings := { Store.settings with use_cas := false }

/-- A line of two bytes and an empty one, and the first without CAS. -/
theorem stores_run : ((store_one 4).foldlM (Store.step Store.settings) .empty).isSome ∧
    ((store_one 2).foldlM (Store.step Store.settings) .empty).isSome ∧
    ((store_one 4).foldlM (Store.step without_cas) .empty).isSome := by decide +kernel

theorem store_one_runs : ((store_one 4).foldlM (Store.step Store.settings) .empty).isSome := stores_run.1

theorem store_line_runs : ((store_one 2).foldlM (Store.step Store.settings) .empty).isSome := stores_run.2.1

theorem without_cas_runs : ((store_one 4).foldlM (Store.step without_cas) .empty).isSome := stores_run.2.2

/-- The number 41, on a line. -/
def forty_one : Cache := holding [52, 49, 13, 10] (Option.get _ store_one_runs)

theorem forty_one_runs :
    Run (Cache.Step Store.settings) (holding [52, 49, 13, 10] .empty) ((store_one 4).map .items) forty_one :=
  holding_run (Option.some_get store_one_runs).symm

theorem incrs_run : (do_add_delta Store.settings forty_one [97] true 1 [] (some 0) []).isSome ∧
    (do_add_delta without_cas (holding [52, 49, 13, 10] (Option.get _ without_cas_runs)) [97] true 1 [] (some 0) []).isSome := by
  decide +kernel

theorem forty_one_incr : (do_add_delta Store.settings forty_one [97] true 1 [] (some 0) []).isSome := incrs_run.1

theorem without_cas_incr : (do_add_delta without_cas (holding [52, 49, 13, 10] (Option.get _ without_cas_runs)) [97] true 1
    [] (some 0) []).isSome := incrs_run.2

theorem delta_stores_number_witness : Updated Store.settings forty_one [97] (.item 0) 42 (some 0)
    (Option.get _ forty_one_incr) :=
  delta_stores_number rfl forty_one_runs (by decide +kernel)
    (by decide +kernel : forty_one.bytes (.item 0) = [52, 49] ++ [13, 10])
    (by decide +kernel : safe_strtoull (forty_one.bytes (.item 0)) = some 41)
    (Option.some_get forty_one_incr).symm (by decide +kernel)

/-- Without CAS, a delta succeeds and there is none to return. -/
theorem no_fresh_cas : ∃ es c reply,
    Run (Cache.Step without_cas) (holding [52, 49, 13, 10] .empty) es c ∧
    do_add_delta without_cas c [97] true 1 [] (some 0) [] = some reply ∧ reply.result = .OK ∧
    c.store.table [97] = some (.item 0) ∧ reply.cache.store.table [97] = some (.item 0) ∧
    (c.store.heap (.item 0)).get_cas = 0 ∧ (reply.cache.store.heap (.item 0)).get_cas = 0 ∧ reply.cas = some 0 :=
  ⟨_, _, _, holding_run (Option.some_get without_cas_runs).symm, (Option.some_get without_cas_incr).symm,
    by decide +kernel, by decide +kernel, by decide +kernel, by decide +kernel, by decide +kernel, by decide +kernel⟩

theorem failure_restores_iff_witness :
    (∀ buf rounds reply, do_add_delta Store.settings forty_one [97] true 1 buf none rounds = some reply →
      reply.result ≠ .OK → Restored forty_one reply.cache [97] reply.result) ↔ Restores forty_one [97] none :=
  failure_restores_iff rfl forty_one_runs

/-- An empty value: `incr` fails, and the item is referenced for good. -/
theorem empty_value_leaks : ∃ es c reply,
    Run (Cache.Step Store.settings) (holding [13, 10] .empty) es c ∧
    do_add_delta Store.settings c [97] true 1 [] none [] = some reply ∧
    reply.result = .NON_NUMERIC ∧ c.store.table [97] = some (.item 0) ∧
    (c.store.heap (.item 0)).refcount = 1 ∧ (reply.cache.store.heap (.item 0)).refcount = 2 ∧
    ¬ Restored c reply.cache [97] reply.result := by
  have hrun : Run (Cache.Step Store.settings) (holding [13, 10] .empty) ((store_one 2).map .items)
      (holding [13, 10] (Option.get _ store_line_runs)) := holding_run (Option.some_get store_line_runs).symm
  have ht : (holding [13, 10] (Option.get _ store_line_runs)).store.table [97] = some (.item 0) := by decide +kernel
  have hrefs : ((holding [13, 10] (Option.get _ store_line_runs)).store.heap (.item 0)).refcount = 1 := by decide +kernel
  have hlinked : ((holding [13, 10] (Option.get _ store_line_runs)).store.heap (.item 0)).it_flags.linked = true := by
    decide +kernel
  have hlive : ¬ (holding [13, 10] (Option.get _ store_line_runs)).store.dead (.item 0) := by
    rw [Store.dead]
    decide +kernel
  have hshort : ((holding [13, 10] (Option.get _ store_line_runs)).taken (.item 0)).not_a_number (.item 0) = true := by
    decide +kernel
  generalize holding [13, 10] (Option.get _ store_line_runs) = c at *
  refine ⟨_, c, ⟨c.taken (.item 0), .NON_NUMERIC, [], none⟩, hrun, ?_, rfl, ht, hrefs, ?_, not_restored_taken hlinked⟩
  · rw [do_add_delta_live ht hlive, Cache.delta_item, if_pos hshort]
  · rw [taken_heap, hrefs]
    rfl

end Memcached.SlabsCurd

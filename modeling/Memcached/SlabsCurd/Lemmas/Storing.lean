import Memcached.SlabsCurd.Lemmas.Joins

/-!
# The ways through do_store_item

The old item is fetched; the new one, or one with both values, is linked, or the command is refused.
-/

namespace Memcached.SlabsCurd

open MemoryLru Lossy

namespace ChunkCache

variable {cfg : Settings} {c c₁ c' c'' : ChunkCache} {s s' : Store} {n m : Nat} {p q : Ptr} {old_it new_it : Option Ptr}
  {comm : Comm} {cas : UInt64} {reply : StoreReply} {stored : StoreItemType}

/-! ## A link -/

/-- The item `n` is linked, with a new CAS; the others are as they were, or gone. -/
structure Puts (cfg : Settings) (c c' : ChunkCache) (n : Nat) : Prop where
  live : Live cfg c'.store
  passes : Passes (.item n) c c'
  unwritten : Unwritten c c' (.item n)
  table : c'.store.table (c.store.heap (.item n)).key = some (.item n)
  cas_id : c'.store.cas_id = if cfg.use_cas then c.store.cas_id + 1 else c.store.cas_id
  item : Alike { c.store.heap (.item n) with
    it_flags := { (c.store.heap (.item n)).it_flags with linked := true }
    cas := if (c.store.heap (.item n)).it_flags.cas then if cfg.use_cas then c.store.cas_id + 1 else 0
      else (c.store.heap (.item n)).cas } (c'.store.heap (.item n))

/-- The new item has no rival: its key is absent, or is that of the old item. -/
def Rivals (c : ChunkCache) (n : Nat) (old_it : Option Ptr) : Prop :=
  old_it = none ∧ c.store.table (c.store.heap (.item n)).key = none ∨
    ∃ m, old_it = some (.item m) ∧
      (c.store.table (c.store.heap (.item n)).key = none ∨ c.store.table (c.store.heap (.item n)).key = some (.item m))

theorem link_item_puts (h : Live cfg c.store) (hroom : ∀ m, c.store.refs m + 1 < 2 ^ 16)
    (hl : ¬ (c.store.heap (.item n)).it_flags.linked) (hold : c.Rivals n old_it)
    (hitem : c.link_item cfg old_it (.item n) = some c') : Puts cfg c c' n := by
  rcases hold with ⟨rfl, hnone⟩ | ⟨m, rfl, hkey⟩
  · obtain ⟨s, hlink, rfl⟩ := Option.map_eq_some_iff.mp hitem
    obtain ⟨htable, hcas_id, halike⟩ := do_item_link_alike hlink
    refine ⟨h.do_item_link (hroom n) hnone hlink, .of_store (.do_item_link hlink), ⟨rfl, rfl, rfl⟩, ?_, hcas_id, halike⟩
    simp only [htable, Function.update_self]
  · obtain ⟨s, hreplace, rfl⟩ := Option.map_eq_some_iff.mp hitem
    obtain ⟨htable, hcas_id, halike⟩ := do_item_replace_alike hl hreplace
    exact ⟨h.do_item_replace hroom hkey hreplace, .of_store (.do_item_replace hreplace), ⟨rfl, rfl, rfl⟩, htable, hcas_id,
      halike⟩

theorem do_item_remove_release (h : c.do_item_remove p = some c') :
    ∃ s, c.store.release p = some s ∧ c' = { c with store := s } := by
  obtain ⟨b, hremove, h⟩ := Option.bind_eq_some_iff.mp h
  obtain ⟨s, hrelease, hb⟩ := Option.bind_eq_some_iff.mp hremove
  cases hb
  exact ⟨s, hrelease, (Option.some.inj h).symm⟩

theorem Puts.remove (h : Puts cfg c c' n) (hremove : c'.do_item_remove (.item m) = some c'') : Puts cfg c c'' n := by
  obtain ⟨s, hrelease, rfl⟩ := do_item_remove_release hremove
  obtain ⟨htable, hcas_id, halike⟩ := release_alike (q := .item n) h.item.linked hrelease
  refine ⟨h.live.release hrelease, h.passes.trans (.of_store (Store.Fades.release hrelease).but),
    h.unwritten.trans ⟨rfl, rfl, rfl⟩, ?_, hcas_id.trans h.cas_id, h.item.trans halike⟩
  simp only [htable]
  exact h.table

theorem Puts.chunked (h : Puts cfg c c' n) :
    (c'.store.heap (.item n)).it_flags.chunked = (c.store.heap (.item n)).it_flags.chunked :=
  (Item.shape_congr (·.it_flags.chunked) (fun _ => rfl) h.item.shape).trans rfl

theorem Puts.ready (h : Puts cfg c c' n) (hready : c.Ready cfg) (hfilled : c.Filled (.item n))
    (hsized : c.Sized cfg (.item n)) : c'.Ready cfg :=
  h.passes.ready hready h.live (fun _ _ _ => h.unwritten.filled h.item.nbytes h.chunked hfilled)
    fun _ _ _ => hsized.congr h.item.key (h.unwritten.flags h.item.nsuffix) h.item.nbytes h.chunked

theorem Puts.get_cas (h : Puts cfg c c' n) (htag : Store.Tagged cfg (c.store.heap (.item n)))
    (hused : ¬ (c.store.heap (.item n)).it_flags.slabbed) :
    (c'.store.heap (.item n)).get_cas = if cfg.use_cas then c.store.cas_id + 1 else 0 := by
  rw [h.item.get_cas]
  simp only [Item.get_cas, in_use_tagged htag (Bool.not_eq_true _ ▸ hused)]
  cases cfg.use_cas <;> rfl

theorem Puts.record (h : Puts cfg c c' n) (htag : Store.Tagged cfg (c.store.heap (.item n)))
    (hused : ¬ (c.store.heap (.item n)).it_flags.slabbed) :
    c'.record cfg (.item n) =
      { c.record cfg (.item n) with cas := if cfg.use_cas then c.store.cas_id + 1 else 0 } := by
  simp only [ChunkCache.record, h.get_cas htag hused, h.unwritten.value h.item.nbytes h.chunked,
    h.unwritten.flags h.item.nsuffix, h.item.exptime]

/-! ## The end -/

theorem end_store_puts (h : Puts cfg c c' n) (hold : ∀ p, old_it = some p → ∃ m, p = .item m)
    (hnew : ∀ p, new_it = some p → ∃ m, p = .item m)
    (hend : c'.end_store old_it new_it (.item n) .STORED cas = some reply) :
    ∃ c'', Puts cfg c c'' n ∧ reply = ⟨c'', .STORED, (c''.store.heap (.item n)).get_cas⟩ := by
  obtain ⟨c₁, hfirst, hend⟩ := Option.bind_eq_some_iff.mp hend
  have hputs₁ : Puts cfg c c₁ n := by
    cases old_it with
    | none => cases hfirst; exact h
    | some p =>
        obtain ⟨m, rfl⟩ := hold p rfl
        exact h.remove hfirst
  obtain ⟨c₂, hsecond, hend⟩ := Option.bind_eq_some_iff.mp hend
  have hputs₂ : Puts cfg c c₂ n := by
    cases new_it with
    | none => cases hsecond; exact hputs₁
    | some p =>
        obtain ⟨m, rfl⟩ := hnew p rfl
        exact hputs₁.remove hsecond
  cases hend
  exact ⟨c₂, hputs₂, rfl⟩

/-- Where nothing is stored, the reference to the old item is given back. -/
theorem end_store_refuses (h : Live cfg c.store) (hold : ∀ p, old_it = some p → ∃ m, p = .item m) (hstored : stored ≠ .STORED)
    (hend : c.end_store old_it none p stored cas = some reply) :
    ∃ s, reply = ⟨{ c with store := s }, stored, cas⟩ ∧ Live cfg s ∧ Store.Fades c.store s := by
  obtain ⟨c₁, hfirst, hend⟩ := Option.bind_eq_some_iff.mp hend
  obtain ⟨c₂, hsecond, hend⟩ := Option.bind_eq_some_iff.mp hend
  cases hsecond
  cases hend
  rw [if_neg hstored]
  cases old_it with
  | none => cases hfirst; exact ⟨c.store, rfl, h, .refl⟩
  | some p =>
      obtain ⟨m, rfl⟩ := hold p rfl
      obtain ⟨s, hrelease, rfl⟩ := do_item_remove_release hfirst
      exact ⟨s, rfl, h.release hrelease, .release hrelease⟩

/-! ## The old item -/

theorem Live.ages (h : Live cfg s') (hfades : Store.Fades s s') (hheld : 0 < s'.held (.item n)) :
    ¬ (s'.heap (.item n)).it_flags.slabbed ∧ (s.heap (.item n)).Ages (s'.heap (.item n)) := by
  have hused : ¬ (s'.heap (.item n)).it_flags.slabbed := by
    rw [(h.referenced.of_zero (m := n)).slabbed_self]
    simp only [Store.refs]
    omega
  exact ⟨hused, (hfades.items n hused).2⟩

/-- The cache after `do_item_get`: the new item is still there, and the old one, if there is one, has a reference more. -/
structure Fetched (cfg : Settings) (c : ChunkCache) (n : Nat) (c₁ : ChunkCache) (old_it : Option Ptr) : Prop where
  ready : c₁.Ready cfg
  room : ∀ m, c₁.store.refs m + 1 < 2 ^ 16
  loses : Loses (c.entries cfg) (c₁.entries cfg)
  cas_id : c₁.store.cas_id = c.store.cas_id
  ages : (c.store.heap (.item n)).Ages (c₁.store.heap (.item n))
  unwritten : ∀ q, Unwritten c c₁ q
  used : ¬ (c₁.store.heap (.item n)).it_flags.slabbed
  held : 0 < c₁.store.held (.item n)
  old : old_it = none ∧ c₁.store.table (c.store.heap (.item n)).key = none ∨
    ∃ m, m ≠ n ∧ old_it = some (.item m) ∧ c₁.store.table (c.store.heap (.item n)).key = some (.item m) ∧
      0 < c₁.store.held (.item m) ∧ c₁ = { c with toCache := c.taken (.item m) }

theorem do_item_get_dead {key : MemoryLru.Key} {it : Ptr} {s₁ : Store} (hs : s.Sound) (ht : s.table key = some it)
    (hunlink : (s.refcount_incr it).do_item_unlink it = some s₁) (hremove : s₁.do_item_remove it = some s') :
    s'.table key = none := by
  obtain ⟨-, -, hlinked, hkey, -⟩ := hs.entry ht
  have htable' : s'.table = s₁.table := by
    obtain ⟨-, ⟨-, -, rfl⟩ | ⟨-, -, rfl⟩⟩ := Store.do_item_remove_cases hremove <;> rfl
  obtain ⟨-, htable⟩ := Store.do_item_unlink_table hunlink
  rw [htable', htable, if_pos (by simpa [Store.refcount_incr] using hlinked)]
  simp [Store.refcount_incr, hkey]

theorem do_item_get_fetched (h : c.Ready cfg) (hroom : ∀ m, c.store.refs m + 2 < 2 ^ 16)
    (hl : ¬ (c.store.heap (.item n)).it_flags.linked) (hheld : 0 < c.store.held (.item n))
    (hget : c.store.do_item_get cfg (c.store.heap (.item n)).key false false = some (s, old_it)) :
    Fetched cfg c n { c with store := s } old_it := by
  have hlive : Live cfg s := h.toLive.do_item_get hroom hget
  have hfades := Store.Fades.do_item_get hget
  obtain ⟨hready, hloses⟩ := h.fades hlive hfades
  have hfetched (hroom' : ∀ m, s.refs m + 1 < 2 ^ 16) (hheld' : 0 < s.held (.item n))
      (hold : old_it = none ∧ s.table (c.store.heap (.item n)).key = none ∨
        ∃ m, m ≠ n ∧ old_it = some (.item m) ∧ s.table (c.store.heap (.item n)).key = some (.item m) ∧
          0 < s.held (.item m) ∧ ({ c with store := s } : ChunkCache) = { c with toCache := c.taken (.item m) }) :
      Fetched cfg c n { c with store := s } old_it := by
    obtain ⟨hused, hages⟩ := hlive.ages hfades hheld'
    exact ⟨hready, hroom', hloses, hfades.cas_id, hages, fun _ => ⟨rfl, rfl, rfl⟩, hused, hheld', hold⟩
  have hlow (m) : c.store.refs m + 1 < 2 ^ 16 := Nat.lt_of_succ_lt (hroom m)
  obtain ⟨htable, rfl, rfl⟩ | ⟨it, htable, hcases⟩ := Store.do_item_get_cases hget
  · exact hfetched hlow hheld (.inl ⟨rfl, htable⟩)
  obtain ⟨k, rfl, hlinked, hkey, -⟩ := h.sound.entry htable
  have hne : k ≠ n := by
    rintro rfl
    exact hl hlinked
  obtain ⟨-, rfl, s₁, hunlink, hremove⟩ | ⟨-, rfl, s₁, rfl, hs₁⟩ := hcases
  · have hincr : Store.Referenced (c.store.refcount_incr (.item k)) k 1 :=
      (h.referenced.of_zero (m := k)).refcount_incr (by have := Store.refs_of_linked hlinked; omega) (hlow k)
    obtain ⟨hunlinked, hfewer₁⟩ := hincr.do_item_unlink hunlink
    obtain ⟨-, hfewer₂⟩ := hunlinked.do_item_remove hremove
    refine hfetched (fun m => ?_) ?_ (.inl ⟨rfl, ?_⟩)
    · have hm := (Store.Fewer.refcount_incr (n := k)).trans (hfewer₁.trans hfewer₂) m
      exact (Nat.add_le_add_right hm 1).trans_lt (hlow m)
    · rw [(Store.do_item_remove_steady hremove).held, (Store.do_item_unlink_steady hunlink).held]
      exact hheld
    · exact do_item_get_dead h.sound htable hunlink hremove
  · obtain ⟨-, rfl⟩ | ⟨hfalse, -⟩ := hs₁
    · refine hfetched (fun m => ?_) ?_ (.inr ⟨k, hne, rfl, htable, ?_, rfl⟩)
      · have hm := hroom m
        have hrefs : ((c.store.refcount_incr (.item k)).hold (.item k)).refs m ≤ c.store.refs m + 1 := by
          have hincr := @Store.refcount_incr_refs c.store k m
          simp only [Store.refs, Store.hold] at hincr ⊢
          by_cases hmk : Ptr.item m = .item k
          · rw [hmk] at hincr ⊢
            simp only [Function.update_self, Store.refcount_incr, Store.modify_held] at hincr ⊢
            omega
          · rw [Function.update_of_ne hmk]
            simp only [Store.refcount_incr, Store.modify_held] at hincr ⊢
            omega
        omega
      · have hnk : Ptr.item n ≠ .item k := by simpa using hne.symm
        simpa [Store.hold, Store.refcount_incr, hnk] using hheld
      · simp [Store.hold]
    · cases hfalse

/-! ## Steps of the map -/

theorem Live.thinned (h : Live cfg s) (hthin : Store.Thinned cfg s s') : Live cfg s' :=
  ⟨hthin.sound, hthin.referenced, hthin.keeps _ (Store.tagged_rule cfg) h.tagged, hthin.keeps _ (plain_rule cfg) h.plain⟩

/-- The command leaves the cache in order, and did what it does to a map that may lose entries. -/
structure Stepped (cfg : Settings) (c : ChunkCache) (comm : Comm) (n : Nat) (reply : StoreReply) : Prop where
  ready : reply.cache.Ready cfg
  step : RecordMap.Step cfg (c.map cfg)
    (.store comm (c.store.heap (.item n)).key (c.record cfg (.item n)) reply.stored reply.cas) (reply.cache.map cfg)

theorem Fetched.entry (h : Fetched cfg c n c₁ old_it) :
    c₁.entries cfg (c.store.heap (.item n)).key = old_it.map (c₁.record cfg) := by
  rcases h.old with ⟨rfl, hnone⟩ | ⟨m, -, rfl, htable, -⟩
  · rw [entries, hnone, Option.map_none]
  · rw [entries, htable]

/-- A value was stored in the item `m`. -/
theorem Fetched.stored_step {r : Record} (h : Fetched cfg c n c₁ old_it) (hpasses : Passes (.item m) c₁ c')
    (hready : c'.Ready cfg) (ht : c'.store.table (c.store.heap (.item n)).key = some (.item m))
    (hanswer : Record.answer comm (old_it.map (c₁.record cfg)) (c.record cfg (.item n)) = (.STORED, some r))
    (hrecord : c'.record cfg (.item m) = { r with cas := if cfg.use_cas then c.store.cas_id + 1 else 0 })
    (hcas_id : c'.store.cas_id = if cfg.use_cas then c.store.cas_id + 1 else c.store.cas_id) :
    Stepped cfg c comm n ⟨c', .STORED, (c'.store.heap (.item m)).get_cas⟩ := by
  obtain ⟨m₁, hloses, hkey, heq⟩ := hpasses.put cfg h.ready.sound hready.sound ht
  have hcas : (c'.store.heap (.item m)).get_cas = if cfg.use_cas then c.store.cas_id + 1 else 0 :=
    congrArg Record.cas hrecord
  refine ⟨hready, m₁, c'.entries cfg, h.loses.trans hloses, ?_, .refl, fun _ _ _ _ _ => rfl⟩
  rw [← h.entry, ← hkey] at hanswer
  refine .store ?_
  have hstores := @RecordMap.Stores.stored cfg ⟨m₁, c.store.cas_id⟩ comm _ _ r _ hanswer hcas
  rw [RecordMap.next_cas, ← hcas_id, hcas, ← hrecord, ← heq] at hstores
  rw [hcas]
  exact hstores

/-- Nothing was stored. -/
theorem Fetched.refused_step (h : Fetched cfg c n c₁ old_it) (hlive : Live cfg s) (hfades : Store.Fades c₁.store s)
    (hstored : stored ≠ .STORED)
    (hrefuses : Record.answer comm (old_it.map (c₁.record cfg)) (c.record cfg (.item n)) = (stored, none) ∨
      (comm = .NREAD_APPEND ∨ comm = .NREAD_PREPEND) ∧ old_it.isSome ∧ stored = .NOT_STORED) :
    Stepped cfg c comm n ⟨{ c₁ with store := s }, stored, cas⟩ := by
  obtain ⟨hready, hloses⟩ := h.ready.fades hlive hfades
  refine ⟨hready, c₁.entries cfg, c₁.entries cfg, h.loses, ?_, hloses, fun _ _ _ _ he => ?_⟩
  · rw [← h.entry] at hrefuses
    refine .store ?_
    have hid : ({ c₁ with store := s }.map cfg).cas_id = c.store.cas_id := hfades.cas_id.trans h.cas_id
    rw [hid]
    rcases hrefuses with hanswer | ⟨hcomm, hold, rfl⟩
    · exact .refused hanswer
    · refine .no_memory hcomm ?_
      simp only [h.entry, Option.isSome_map, hold]
  · cases he
    exact absurd rfl hstored

theorem Fetched.item_of_old (h : Fetched cfg c n c₁ old_it) (p : Ptr) (hp : old_it = some p) : ∃ m, p = .item m := by
  rcases h.old with ⟨rfl, -⟩ | ⟨m, -, rfl, -⟩
  · cases hp
  · exact ⟨m, (Option.some.inj hp).symm⟩

/-- The new item itself is linked. -/
theorem Fetched.links (h : Fetched cfg c n c₁ old_it) (hl : ¬ (c.store.heap (.item n)).it_flags.linked)
    (hfilled : c.Filled (.item n)) (hlink : c₁.link_item cfg old_it (.item n) = some c')
    (hend : c'.end_store old_it none (.item n) .STORED cas = some reply)
    (hanswer : Record.answer comm (old_it.map (c₁.record cfg)) (c.record cfg (.item n)) =
      (.STORED, some (c.record cfg (.item n)))) : Stepped cfg c comm n reply := by
  have hages := h.ages
  have hl₁ : ¬ (c₁.store.heap (.item n)).it_flags.linked := fun hlinked => hl (hages.linked hlinked)
  have hrivals : c₁.Rivals n old_it := by
    simp only [Rivals, hages.key]
    rcases h.old with ⟨hnone, ht⟩ | ⟨m, -, hsome, ht, -⟩
    · exact .inl ⟨hnone, ht⟩
    · exact .inr ⟨m, hsome, .inr ht⟩
  obtain ⟨c₂, hputs, rfl⟩ := end_store_puts (link_item_puts h.ready.toLive h.room hl₁ hrivals hlink) h.item_of_old
    (fun _ hn => by cases hn) hend
  have hfilled₁ : c₁.Filled (.item n) := (h.unwritten _).filled hages.nbytes hages.chunked hfilled
  have hready := hputs.ready h.ready hfilled₁ (h.ready.sized n h.used)
  have ht := hputs.table
  have hrecord := hputs.record (h.ready.tagged n) h.used
  have hcas_id := hputs.cas_id
  rw [hages.key] at ht
  rw [(h.unwritten _).record hages, h.cas_id] at hrecord
  rw [h.cas_id] at hcas_id
  exact h.stored_step hputs.passes hready ht hanswer hrecord hcas_id

/-! ## The item with both values -/

theorem Makes.copy_thinned {a : NewItem} {k : Nat} {old_it new_it add_it : Ptr} {more : List (List Round)} {ok : Bool}
    (h : Makes cfg c a c₁ k) (hcfg : cfg.tail_repair_time = 0) (hroom : ∀ m, c.store.refs m + 1 < 2 ^ 16)
    (hcopy : c₁.store_item_copy_data cfg comm old_it new_it add_it more = some (c', ok)) :
    Store.Thinned cfg c₁.store c'.store := by
  refine store_item_copy_data_thinned h.live.sound h.live.referenced hcfg (fun m => ?_) hcopy
  have hm := h.refs m
  have hlow := hroom m
  omega

/-- Where `append_item` fails to copy, `item_remove` waits for the lock of the key, which is held. -/
theorem Makes.stuck {a : NewItem} {k : Nat} {old_it add_it : Ptr} {more : List (List Round)} {ok : Bool}
    (h : Makes cfg c a c₁ k) (hcfg : cfg.tail_repair_time = 0) (hroom : ∀ m, c.store.refs m + 1 < 2 ^ 16)
    (hcopy : c₁.store_item_copy_data cfg comm old_it (.item k) add_it more = some (c', ok)) :
    c'.item_lock_of (c'.store.heap (.item k)).key = c.item_lock_of a.key ∧
      c'.item_remove [c.item_lock_of a.key] (.item k) = none := by
  have hheld : 0 < c₁.store.held (.item k) := by
    rw [h.held, Function.update_self]
    exact Nat.one_pos
  obtain ⟨-, hages⟩ := (h.copy_thinned hcfg hroom hcopy).holds hheld
  have hlock : c'.item_lock_of (c'.store.heap (.item k)).key = c.item_lock_of a.key := by
    rw [store_item_copy_data_locks hcopy, h.locks, hages.key, h.item.key]
  exact ⟨hlock, if_pos (List.mem_singleton.mpr hlock)⟩

/-- What `append_item` allocates. -/
def append_args (cfg : Settings) (c : ChunkCache) (old it : Nat) : NewItem :=
  ⟨(c.store.heap (.item it)).key, c.flags cfg (.item old), (c.store.heap (.item old)).exptime,
    (c.store.heap (.item it)).nbytes + (c.store.heap (.item old)).nbytes - 2⟩

/-- Where one value is in chunks, both together need chunks. -/
def Large (cfg : Settings) (c : ChunkCache) (old it : Nat) : Prop :=
  (c.store.heap (.item it)).it_flags.chunked ∨ (c.store.heap (.item old)).it_flags.chunked →
    cfg.slab_chunk_size_max < (c.append_args cfg old it).ntotal cfg

/-- A copy from `first` and `second`, one of them the old item, into the new item `k`. -/
theorem Makes.copyable {k old : Nat} {c₂ : ChunkCache} (first second : Nat) (h : Makes cfg c (c.append_args cfg old n) c₂ k)
    (hc : Live cfg c.store) (hpair : first = old ∧ second = n ∨ first = n ∧ second = old)
    (hheld : 0 < c.store.held (.item n)) (hheld_old : 0 < c.store.held (.item old)) (hfilled : c.Filled (.item n))
    (hfilled_old : c.Filled (.item old)) (hlarge : c.Large cfg old n) :
    c₂.Copyable k first second := by
  have hline {m : Nat} (hm : 0 < c.store.held (.item m)) : 2 ≤ (c.store.heap (.item m)).nbytes := by
    obtain ⟨l, hcons⟩ := hc.sound
    refine (hcons.placed (.item m)).kind.1 ?_
    rw [(hc.referenced.of_zero (m := m)).slabbed_self]
    simp only [Store.refs]
    omega
  have hother {m : Nat} (hm : 0 < c.store.held (.item m)) : m ≠ k ∧ 0 < c₂.store.held (.item m) := by
    have hne := h.ne hm
    refine ⟨hne, ?_⟩
    rw [h.held, Function.update_of_ne (by simpa using hne)]
    exact hm
  have hkept {m : Nat} (hm : 0 < c.store.held (.item m)) (hf : c.Filled (.item m)) :
      c₂.Filled (.item m) ∧ (c₂.store.heap (.item m)).nbytes = (c.store.heap (.item m)).nbytes ∧
        (c₂.store.heap (.item m)).it_flags.chunked = (c.store.heap (.item m)).it_flags.chunked := by
    have hages := h.holds m hm
    exact ⟨(h.passes.unwritten _ (by simpa using h.ne hm)).filled hages.nbytes hages.chunked hf, hages.nbytes, hages.chunked⟩
  have hflat (hflat : ¬ (c₂.store.heap (.item k)).it_flags.chunked) :
      ¬ (c.store.heap (.item n)).it_flags.chunked ∧ ¬ (c.store.heap (.item old)).it_flags.chunked :=
    not_or.mp fun hchunked => hflat (h.large.trans (decide_eq_true (hlarge hchunked)))
  obtain ⟨hfilled₂, hnbytes, hchunked⟩ := hkept hheld hfilled
  obtain ⟨hfilled_old₂, hnbytes_old, hchunked_old⟩ := hkept hheld_old hfilled_old
  have hheld_k : 0 < c₂.store.held (.item k) := by
    rw [h.held, Function.update_self]
    exact Nat.one_pos
  have hsum := h.item.nbytes
  simp only [append_args] at hsum
  rcases hpair with ⟨rfl, rfl⟩ | ⟨rfl, rfl⟩
  · refine ⟨h.live.sound, h.live.referenced, hheld_k, (hother hheld_old).2, (hother hheld).2, (hother hheld_old).1,
      (hother hheld).1, hfilled_old₂, hfilled₂, ?_, hnbytes_old ▸ hline hheld_old, h.internal, fun hk => ?_⟩
    · rw [hsum, hnbytes, hnbytes_old, Nat.add_comm]
    · rw [hchunked, hchunked_old]
      exact (hflat hk).symm
  · refine ⟨h.live.sound, h.live.referenced, hheld_k, (hother hheld).2, (hother hheld_old).2, (hother hheld).1,
      (hother hheld_old).1, hfilled₂, hfilled_old₂, ?_, hnbytes ▸ hline hheld, h.internal, fun hk => ?_⟩
    · rw [hsum, hnbytes, hnbytes_old]
    · rw [hchunked, hchunked_old]
      exact hflat hk

/-- The value of the item for both. -/
def joined_value (c : ChunkCache) (comm : Comm) (old it : Ptr) : List UInt8 :=
  if comm = .NREAD_APPEND then Record.join (c.value old) (c.value it) else Record.join (c.value it) (c.value old)

/-- The item `k` holds both values, and is not yet linked. -/
structure Both (cfg : Settings) (c : ChunkCache) (comm : Comm) (old it : Nat) (c' : ChunkCache) (k : Nat) : Prop where
  live : Live cfg c'.store
  passes : Passes (.item k) c c'
  used : ¬ (c'.store.heap (.item k)).it_flags.slabbed
  unlinked : ¬ (c'.store.heap (.item k)).it_flags.linked
  key : (c'.store.heap (.item k)).key = (c.store.heap (.item it)).key
  refs : ∀ m, c'.store.refs m ≤ max (c.store.refs m) 1
  cas_id : c'.store.cas_id = c.store.cas_id
  filled : c'.Filled (.item k)
  sized : c'.Sized cfg (.item k)
  value : c'.value (.item k) = c.joined_value comm (.item old) (.item it)
  flags : c'.flags cfg (.item k) = c.flags cfg (.item old)
  exptime : (c'.store.heap (.item k)).exptime = (c.store.heap (.item old)).exptime

theorem Makes.both {k old : Nat} {c₂ : ChunkCache} {more : List (List Round)}
    (h : Makes cfg c (c.append_args cfg old n) c₂ k) (hc : Live cfg c.store) (hcfg : cfg.tail_repair_time = 0)
    (hroom : ∀ m, c.store.refs m + 1 < 2 ^ 16)
    (hheld : 0 < c.store.held (.item n)) (hheld_old : 0 < c.store.held (.item old)) (hfilled : c.Filled (.item n))
    (hfilled_old : c.Filled (.item old)) (hlarge : c.Large cfg old n)
    (hcopy : c₂.store_item_copy_data cfg comm (.item old) (.item k) (.item n) more = some (c', true)) :
    Both cfg c comm old n c' k := by
  have hroom₂ (m) : c₂.store.refs m + 1 < 2 ^ 16 := by
    have hm := h.refs m
    have hlow := hroom m
    omega
  have hold := h.copyable old n hc (.inl ⟨rfl, rfl⟩) hheld hheld_old hfilled hfilled_old hlarge
  have hit := h.copyable n old hc (.inr ⟨rfl, rfl⟩) hheld hheld_old hfilled hfilled_old hlarge
  have hjoined := store_item_copy_data_joined hcfg hroom₂ hold hit hcopy
  have hvalue {m : Nat} (hm : 0 < c.store.held (.item m)) : c₂.value (.item m) = c.value (.item m) :=
    (h.passes.unwritten _ (by simpa using h.ne hm)).value (h.holds m hm).nbytes (h.holds m hm).chunked
  obtain ⟨first, second, hj, hlength, hvalue'⟩ : ∃ first second, Joined cfg c₂ k first second true c' ∧
      (c₂.store.heap (.item k)).nbytes = (Record.join (c₂.value (.item first)) (c₂.value (.item second))).length ∧
      Record.join (c₂.value (.item first)) (c₂.value (.item second)) = c.joined_value comm (.item old) (.item n) := by
    split at hjoined
    · next happend =>
      refine ⟨old, n, hjoined, ?_, ?_⟩
      · have hline := hold.line
        rw [Record.join, List.length_append, List.length_take, hold.filled_first.value, hold.filled_second.value, hold.nbytes]
        omega
      · rw [joined_value, if_pos happend, hvalue hheld, hvalue hheld_old]
    · next hprepend =>
      refine ⟨n, old, hjoined, ?_, ?_⟩
      · have hline := hit.line
        rw [Record.join, List.length_append, List.length_take, hit.filled_first.value, hit.filled_second.value, hit.nbytes]
        omega
      · rw [joined_value, if_neg hprepend, hvalue hheld, hvalue hheld_old]
  obtain ⟨hused, hages⟩ := hj.thinned.holds hold.held
  have hflags : c'.flags cfg (.item k) = c₂.flags cfg (.item k) := by simp only [Cache.flags, hages.nsuffix, hj.suffix]
  refine ⟨h.live.thinned hj.thinned, h.passes.trans ⟨hj.thinned.fades.but, fun q hq => ⟨(hj.others q hq).1, ?_, (hj.others q hq).2⟩⟩,
    hused, fun hlinked => ?_, hages.key.trans h.item.key, fun m => ?_, hj.thinned.fades.cas_id.trans h.cas_id, ⟨?_, hj.packed⟩,
    h.sized.congr hages.key hflags hages.nbytes hages.chunked, (hj.value rfl).trans hvalue', hflags.trans h.flags,
    hages.exptime.trans h.item.exptime⟩
  · rw [hj.suffix]
  · exact absurd (hages.linked hlinked) (by simp [h.item.linked])
  · have hfewer := hj.thinned.fewer m
    exact hfewer.trans (h.refs m)
  · rw [hj.value rfl, ← hlength, hages.nbytes]

/-! ## The command -/

/-- The answer where a value is joined. -/
theorem answer_join {old new : Record} (hcomm : comm = .NREAD_APPEND ∨ comm = .NREAD_PREPEND)
    (hcas : ¬ (new.cas ≠ 0 ∧ new.cas ≠ old.cas)) : Record.answer comm (some old) new = (.STORED, some { old with
      value := if comm = .NREAD_APPEND then Record.join old.value new.value else Record.join new.value old.value }) := by
  rcases hcomm with rfl | rfl <;> simp [Record.answer, hcas]

theorem Fetched.append_stepped {r : StoreRounds} (h : Fetched cfg c n c₁ (some (.item m))) (hcfg : cfg.tail_repair_time = 0)
    (hfilled : c.Filled (.item n)) (hjoinable : c.Joinable cfg (.item n) (.item m))
    (hcomm : comm = .NREAD_APPEND ∨ comm = .NREAD_PREPEND)
    (happend : c₁.append_item cfg (.item m) (.item n) comm cas r = some reply) : Stepped cfg c comm n reply := by
  obtain ⟨hnone, -⟩ | ⟨m', hne, hsome, htable, hheld_old, heq⟩ := h.old
  · cases hnone
  obtain rfl : m = m' := by simpa using hsome
  have hages := h.ages
  have hrecord : c₁.record cfg (.item n) = c.record cfg (.item n) := (h.unwritten _).record hages
  have hcas_old : (c₁.store.heap (.item m)).get_cas = (c₁.record cfg (.item m)).cas := rfl
  have hcas_new : (c₁.store.heap (.item n)).get_cas = (c.record cfg (.item n)).cas := hages.get_cas
  simp only [append_item, hcas_old, hcas_new] at happend
  split at happend
  · next hcas =>
    obtain ⟨s, rfl, hlive, hfades⟩ := end_store_refuses h.ready.toLive h.item_of_old (by decide) happend
    refine h.refused_step hlive hfades (by decide) (.inl ?_)
    rcases hcomm with rfl | rfl <;> simp [Record.answer, hcas]
  next hcas =>
  obtain ⟨⟨c₂, new_it⟩, halloc, happend⟩ := Option.bind_eq_some_iff.mp happend
  cases new_it with
  | none =>
      obtain ⟨s, hthin, rfl⟩ := do_item_alloc_none h.ready.toLive hcfg h.room halloc
      obtain ⟨s', rfl, hlive, hfades⟩ :=
        end_store_refuses (h.ready.toLive.thinned hthin) h.item_of_old (by decide) happend
      exact h.refused_step hlive (hthin.fades.trans hfades) (by decide) (.inr ⟨hcomm, rfl, rfl⟩)
  | some new_it =>
  obtain ⟨k, rfl, hmakes⟩ := do_item_alloc_some h.ready.toLive hcfg h.room halloc
  obtain ⟨⟨c₃, ok⟩, hcopy, happend⟩ := Option.bind_eq_some_iff.mp happend
  have hfilled₁ : c₁.Filled (.item n) := (h.unwritten _).filled hages.nbytes hages.chunked hfilled
  have hlinked : (c₁.store.heap (.item m)).it_flags.linked := by
    obtain ⟨-, -, hl, -⟩ := h.ready.sound.entry htable
    exact hl
  have hold₁ : c₁.store.heap (.item m) = { c.store.heap (.item m) with refcount := (c.store.heap (.item m)).refcount + 1 } := by
    rw [heq]
    simp [Cache.taken, Store.hold, Store.refcount_incr]
  have hlarge : c₁.Large cfg m n := by
    have hflags : c₁.flags cfg (.item m) = c.flags cfg (.item m) := (h.unwritten _).flags (by rw [hold₁])
    rintro (hchunked | hchunked)
    · rw [hages.chunked] at hchunked
      simp only [append_args, hages.key, hages.nbytes, hflags, hold₁]
      exact hjoinable hchunked
    · obtain ⟨-, -, -, hkey, hused⟩ := h.ready.sound.entry htable
      have hline : 2 ≤ (c₁.store.heap (.item n)).nbytes := by
        obtain ⟨l, hcons⟩ := h.ready.sound
        exact (hcons.placed (.item n)).kind.1 h.used
      refine (h.ready.sized m hused hchunked).trans_le (ntotal_mono ?_ rfl ?_)
      · simp only [append_args, hages.key, hkey]
      · simp only [append_args]
        omega
  cases ok with
  | false =>
      obtain ⟨c₄, hremove, -⟩ := Option.bind_eq_some_iff.mp happend
      exact absurd (hremove.symm.trans (hmakes.stuck hcfg h.room hcopy).2) (Option.some_ne_none c₄)
  | true =>
      have hboth := hmakes.both h.ready.toLive hcfg h.room h.held hheld_old hfilled₁ (h.ready.filled m hlinked) hlarge hcopy
      obtain ⟨c₄, hlink, hend⟩ := Option.bind_eq_some_iff.mp happend
      have hroom₃ (i) : c₃.store.refs i + 1 < 2 ^ 16 := by
        have hi := hboth.refs i
        have hlow := h.room i
        omega
      have hrivals : c₃.Rivals k (some (.item m)) := by
        refine .inr ⟨m, rfl, ?_⟩
        rw [hboth.key, hages.key]
        cases ht : c₃.store.table (c.store.heap (.item n)).key with
        | none => exact .inl rfl
        | some q =>
            obtain ⟨-, -, hl, -⟩ := hboth.live.sound.entry ht
            have hq : q ≠ .item k := by
              rintro rfl
              exact hboth.unlinked hl
            obtain ⟨ht₁, -⟩ := hboth.passes.store.table h.ready.sound hboth.live.sound hq ht
            exact .inr (ht₁.symm.trans htable)
      obtain ⟨c₅, hputs, rfl⟩ := end_store_puts (link_item_puts hboth.live hroom₃ hboth.unlinked hrivals hlink) h.item_of_old
        (fun p hp => ⟨k, (Option.some.inj hp).symm⟩) hend
      have hready₃ : c₃.Ready cfg := hboth.passes.ready h.ready hboth.live
        (fun _ _ hl => absurd hl hboth.unlinked) fun _ _ _ => hboth.sized
      have ht := hputs.table
      rw [hboth.key, hages.key] at ht
      have hcas_id := hputs.cas_id
      rw [hboth.cas_id, h.cas_id] at hcas_id
      refine h.stored_step (hboth.passes.trans hputs.passes) (hputs.ready hready₃ hboth.filled hboth.sized) ht
        (answer_join hcomm hcas) ?_ hcas_id
      rw [hputs.record (hboth.live.tagged k) hboth.used, hboth.cas_id, h.cas_id, ← hrecord]
      simp only [ChunkCache.record, hboth.value, hboth.flags, hboth.exptime, joined_value]

theorem do_store_item_stepped {r : StoreRounds} (h : c.Ready cfg) (hcfg : cfg.tail_repair_time = 0)
    (hallowed : c.Allowed (.store n comm cas r)) (hjoins : c.JoinsWell cfg (.store n comm cas r))
    (hstore : do_store_item cfg c (.item n) comm cas r = some reply) : Stepped cfg c comm n reply := by
  obtain ⟨hl, hheld, hfilled, hroom⟩ := hallowed
  simp only [do_store_item] at hstore
  obtain ⟨⟨s, old_it⟩, hget, hstore⟩ := Option.bind_eq_some_iff.mp hstore
  have hf := do_item_get_fetched h hroom hl hheld hget
  have hrefuse {stored : StoreItemType} (hend : ({ c with store := s } : ChunkCache).end_store old_it none (.item n) stored cas =
        some reply) (hstored : stored ≠ .STORED)
      (hanswer : Record.answer comm (old_it.map (({ c with store := s } : ChunkCache).record cfg)) (c.record cfg (.item n)) =
        (stored, none)) : Stepped cfg c comm n reply := by
    obtain ⟨s', rfl, hlive, hfades⟩ := end_store_refuses hf.ready.toLive hf.item_of_old hstored hend
    exact hf.refused_step hlive hfades hstored (.inl hanswer)
  have hput (hlinks : (do
        let c' ← ({ c with store := s } : ChunkCache).link_item cfg old_it (.item n)
        c'.end_store old_it none (.item n) .STORED cas) = some reply)
      (hanswer : Record.answer comm (old_it.map (({ c with store := s } : ChunkCache).record cfg)) (c.record cfg (.item n)) =
        (.STORED, some (c.record cfg (.item n)))) : Stepped cfg c comm n reply := by
    obtain ⟨c', hlink, hend⟩ := Option.bind_eq_some_iff.mp hlinks
    exact hf.links hl hfilled hlink hend hanswer
  cases old_it with
  | none =>
      cases comm with
      | NREAD_ADD | NREAD_SET => exact hput hstore rfl
      | NREAD_REPLACE | NREAD_APPEND | NREAD_PREPEND => exact hrefuse hstore (by decide) rfl
      | NREAD_CAS => exact hrefuse hstore (by decide) rfl
  | some old_it =>
      obtain ⟨m, rfl⟩ := hf.item_of_old _ rfl
      cases comm with
      | NREAD_SET | NREAD_REPLACE => exact hput hstore rfl
      | NREAD_ADD =>
          obtain ⟨s', hupdate, hend⟩ := Option.bind_eq_some_iff.mp hstore
          obtain ⟨s'', rfl, hlive, hfades⟩ := end_store_refuses (c := { c with store := s' })
            (hf.ready.toLive.do_item_update hupdate) hf.item_of_old (by decide) hend
          exact hf.refused_step hlive ((Store.Fades.do_item_update hupdate).trans hfades) (by decide) (.inl rfl)
      | NREAD_CAS =>
          have hcas : (s.heap (.item n)).get_cas = (c.record cfg (.item n)).cas := hf.ages.get_cas
          dsimp only at hstore
          rw [hcas] at hstore
          split at hstore
          · next heq => exact hput hstore (if_pos heq)
          · next hne => exact hrefuse hstore (by decide) (if_neg hne)
      | NREAD_APPEND | NREAD_PREPEND =>
          refine hf.append_stepped hcfg hfilled ?_ (by simp) hstore
          obtain ⟨hnone, -⟩ | ⟨m', -, hsome, htable, -⟩ := hf.old
          · cases hnone
          obtain rfl : m = m' := by simpa using hsome
          obtain ⟨ht₀, -⟩ := (Store.Fades.do_item_get hget).but.table (p := .crawler 0) h.sound hf.ready.sound (by simp) htable
          exact hjoins (by simp) _ ht₀

end ChunkCache

end Memcached.SlabsCurd

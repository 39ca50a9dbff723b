import Memcached.SlabsCurd.Lemmas.Records

/-!
# The item with both values

`do_store_item` allocates an item for both values and copies them into it. Pulls may unlink items meanwhile, but those that
are held stay as they are.
-/

namespace Memcached.SlabsCurd

open MemoryLru

namespace ChunkCache

variable {cfg : Settings} {c c' : ChunkCache} {s s' : Store} {a : NewItem} {rounds : List Round} {n : Nat} {p : Ptr}

/-! ## The new item -/

theorem ntotal_mono {a b : NewItem} (hkey : a.key = b.key) (hflags : a.flags = b.flags) (hnbytes : a.nbytes ≤ b.nbytes) :
    a.ntotal cfg ≤ b.ntotal cfg := by
  have hdigits : (toString (a.nbytes - 2)).length ≤ (toString (b.nbytes - 2)).length := by
    have hpos : 0 < (toString (b.nbytes - 2)).length := Nat.length_repr_pos
    have hlt : b.nbytes - 2 < 10 ^ (toString (b.nbytes - 2)).length := (Nat.length_repr_le_iff hpos).mp le_rfl
    exact (Nat.length_repr_le_iff hpos).mpr (by omega)
  simp only [NewItem.ntotal, NewItem.nsuffix, hkey, hflags]
  split <;> omega

/-- An item is chunked where it is too large for one chunk. -/
theorem do_item_alloc_large (h : Live cfg s) (halloc : s.do_item_alloc cfg a rounds = some (s', some p)) :
    (s'.heap p).it_flags.chunked = decide (cfg.slab_chunk_size_max < a.ntotal cfg) := by
  simp only [Store.do_item_alloc] at halloc
  split at halloc
  · cases halloc
  obtain ⟨⟨s₁, it⟩, hpull, halloc⟩ := Option.bind_eq_some_iff.mp halloc
  obtain ⟨rfl, -⟩ | ⟨s₀, n, hs₀, rfl, hgrant⟩ :=
    Store.do_item_alloc_pull_cases (I := fun t => t.Sound ∧ ∀ n, Plain (t.heap (.item n)))
      (fun ht _ hp => ⟨ht.1.lru_pull_tail hp, (plain_rule cfg).lru_pull_tail ht.1 hp ht.2⟩) ⟨h.sound, h.plain⟩ hpull
  · cases halloc
  simp only [Store.slabs_alloc] at hgrant
  split at hgrant
  · next hslabbed =>
    cases hgrant
    dsimp only at halloc
    split at halloc
    · cases halloc
    · cases halloc
      have hplain : (s₀.heap (.item n)).it_flags.chunked = false := by simpa using hs₀.2 n hslabbed
      simp [Store.hold, hplain]
  · cases hgrant

/-- The new item `n`, of the arguments `a`, and what is left of the others. -/
structure Makes (cfg : Settings) (c : ChunkCache) (a : NewItem) (c' : ChunkCache) (n : Nat) : Prop where
  live : Live cfg c'.store
  passes : Passes (.item n) c c'
  item : MadeItem cfg a (c'.store.heap (.item n))
  large : (c'.store.heap (.item n)).it_flags.chunked = decide (cfg.slab_chunk_size_max < a.ntotal cfg)
  internal : (c'.store.heap (.item n)).it_flags.chunked → c'.chain (.item n) = [⟨0, []⟩]
  flags : c'.flags cfg (.item n) = a.flags
  free : c.store.held (.item n) = 0
  held : c'.store.held = Function.update c.store.held (.item n) 1
  alone : c'.store.refs n = 1
  refs : ∀ m, c'.store.refs m ≤ max (c.store.refs m) 1
  cas_id : c'.store.cas_id = c.store.cas_id
  holds : ∀ m, 0 < c.store.held (.item m) → (c.store.heap (.item m)).Ages (c'.store.heap (.item m))
  locks : c'.item_lock_of = c.item_lock_of

theorem Makes.ne {m : Nat} (h : Makes cfg c a c' n) (hheld : 0 < c.store.held (.item m)) : m ≠ n := by
  rintro rfl
  exact absurd h.free hheld.ne'

theorem Makes.sized (h : Makes cfg c a c' n) : c'.Sized cfg (.item n) := by
  intro hchunked
  rw [h.large, decide_eq_true_eq] at hchunked
  rw [h.item.key, h.item.nbytes, h.flags]
  exact hchunked

theorem do_item_alloc_none (h : Live cfg c.store) (hcfg : cfg.tail_repair_time = 0)
    (hroom : ∀ m, c.store.refs m + 1 < 2 ^ 16) (halloc : c.do_item_alloc cfg a rounds = some (c', none)) :
    ∃ s, Store.Thinned cfg c.store s ∧ c' = { c with store := s } := by
  obtain ⟨⟨b, it⟩, hcache, hit⟩ := Option.bind_eq_some_iff.mp halloc
  cases it with
  | some it => cases hit
  | none =>
      cases hit
      obtain ⟨⟨s, r⟩, hstore, h₁⟩ := Option.bind_eq_some_iff.mp hcache
      obtain ⟨rfl, hthin⟩ | ⟨s₀, n, large, clsid, -, rfl, -⟩ := Store.do_item_alloc_made (I := Store.Thinned cfg c.store)
        (fun ht hflag hp => ht.lru_pull_tail hcfg hroom hflag hp) (.refl h.sound h.referenced) hstore
      · cases h₁
        exact ⟨s, hthin, rfl⟩
      · cases h₁

theorem do_item_alloc_some (h : Live cfg c.store) (hcfg : cfg.tail_repair_time = 0)
    (hroom : ∀ m, c.store.refs m + 1 < 2 ^ 16) (halloc : c.do_item_alloc cfg a rounds = some (c', some p)) :
    ∃ n, p = .item n ∧ Makes cfg c a c' n := by
  obtain ⟨⟨b, it⟩, hcache, hit⟩ := Option.bind_eq_some_iff.mp halloc
  cases it with
  | none => cases hit
  | some it =>
  cases hit
  obtain ⟨⟨s, r⟩, hstore, h₁⟩ := Option.bind_eq_some_iff.mp hcache
  have hlive : Live cfg s := h.advance (fun hs => ⟨hs.do_item_alloc hstore, fun _ hI => hI.do_item_alloc hs hstore⟩)
    (h.referenced.do_item_alloc h.sound hcfg hroom hstore)
  obtain ⟨rfl, -⟩ | ⟨s₀, n, large, clsid, hthin, rfl, hslabbed, -, hs⟩ := Store.do_item_alloc_made (I := Store.Thinned cfg c.store)
    (fun ht hflag hp => ht.lru_pull_tail hcfg hroom hflag hp) (.refl h.sound h.referenced) hstore
  · cases h₁
  cases h₁
  have hlinked : ¬ (s₀.heap (.item n)).it_flags.linked := by
    obtain ⟨l, hc⟩ := hthin.sound
    exact fun hl => (hc.placed (.item n)).kind.2 hl hslabbed
  have hzero := (hthin.referenced.of_zero (m := n)).slabbed_self.mp hslabbed
  simp only [Store.refs, Bool.not_eq_true _ ▸ hlinked, Bool.toNat_false] at hzero
  have hother (m) (hm : m ≠ n) : s.heap (.item m) = s₀.heap (.item m) := by
    rw [hs]
    exact Function.update_of_ne (by simpa using hm) _ _
  have hself : s.heap (.item n) = Store.made cfg a large clsid (s₀.heap (.item n)) := by
    rw [hs]
    exact Function.update_self _ _ _
  have hcas := in_use_tagged (hlive.tagged n) (by rw [hself]; rfl)
  have halone : s.refs n = 1 := by
    have hcount := (hlive.referenced.of_zero (m := n)).refcount_self
    have hone : (s.heap (.item n)).refcount = 1 := by rw [hself]; rfl
    rw [hone] at hcount
    exact hcount.symm
  refine ⟨n, rfl, hlive, ⟨fun m hm hused => ?_, fun q hq => ⟨rfl, ?_, ?_⟩⟩, ?_, do_item_alloc_large h hstore,
    fun hchunked => ?_, ?_, ?_,
    ?_, halone, fun m => ?_, ?_, fun m hm => ?_, rfl⟩
  · have hsame := hother m (by simpa using hm)
    rw [hsame] at hused ⊢
    exact hthin.fades.items m hused
  · exact Function.update_of_ne hq _ _
  · dsimp only
    split
    · exact Function.update_of_ne hq _ _
    · rfl
  · rw [hself] at hcas ⊢
    exact ⟨rfl, rfl, rfl, rfl, by simpa [Store.made] using hlinked, hcas⟩
  · dsimp only at hchunked ⊢
    rw [if_pos hchunked]
    exact Function.update_self _ _ _
  · have hflags := item_suffix_flags cfg a (c.suffix (.item n))
    have hnsuffix : (s.heap (.item n)).nsuffix = a.nsuffix cfg := by rw [hself]; rfl
    simp only [Cache.flags, hnsuffix, Function.update_self]
    exact hflags
  · rw [← hthin.held]
    omega
  · rw [hs, ← hthin.held]
    simp only [hthin.held] at hzero ⊢
    congr 1
    omega
  · by_cases hm : m = n
    · rw [hm]
      exact halone.le.trans (Nat.le_max_right _ _)
    · have hne : Ptr.item m ≠ .item n := by simpa using hm
      have hsame : s.refs m = s₀.refs m := by
        simp only [Store.refs, hother m hm]
        rw [hs]
        simp [hne]
      have hfewer := hthin.fewer m
      simp only at hfewer ⊢
      omega
  · rw [← hthin.fades.cas_id]
    simp only [hs]
  · have hne : m ≠ n := by
      rintro rfl
      rw [← hthin.held] at hm
      omega
    simp only [hother m hne]
    exact (hthin.holds hm).2

end ChunkCache

/-! ## Copies -/

section
variable {cfg : Settings} {s s' : Store}

theorem chunk_alloc_pull_rule {I : Store → Prop} (hpull : ∀ {s s' a locks removed ret}, I s →
      a.flags.return_item = false → Store.lru_pull_tail cfg s a locks = some (s', removed, ret) → I s')
    {id : UInt8} {rounds : List Round} : ∀ {i s s' r}, I s → chunk_alloc_pull cfg id i rounds s = some (s', r) → I s' := by
  induction rounds with
  | nil =>
      intro i s s' r hs h
      cases i with
      | zero => cases h; exact hs
      | succ i => cases h
  | cons round rounds ih =>
      intro i s s' r hs h
      cases i with
      | zero => cases h; exact hs
      | succ i =>
          simp only [chunk_alloc_pull] at h
          obtain ⟨s₁, hfirst, h⟩ := Option.bind_eq_some_iff.mp h
          have hs₁ : I s₁ := by
            simp only [Store.try_reclaim] at hfirst
            split at hfirst
            · cases hfirst; exact hs
            · obtain ⟨⟨t, removed, ret⟩, hp, rfl⟩ := Option.map_eq_some_iff.mp hfirst
              exact hpull hs rfl hp
          split at h
          · split at h
            · cases h
            · cases h; exact hs₁
          generalize round.total_bytes - _ = total at h
          obtain ⟨⟨s₂, removed, ret⟩, hp, h⟩ := Option.bind_eq_some_iff.mp h
          have hs₂ := hpull hs₁ rfl hp
          dsimp only at h
          split_ifs at h
          · obtain ⟨⟨s₃, removed', ret'⟩, hp', h⟩ := Option.bind_eq_some_iff.mp h
            exact ih (hpull hs₂ rfl hp') h
          · cases h; exact hs₂
          · exact ih hs₂ h

theorem do_item_alloc_chunk_rule {I : Store → Prop} (hpull : ∀ {s s' a locks removed ret}, I s →
      a.flags.return_item = false → Store.lru_pull_tail cfg s a locks = some (s', removed, ret) → I s')
    {st st' : ChunkAlloc} {remain : Nat} {tch : Option Nat} (hs : I st.1)
    (h : do_item_alloc_chunk cfg st remain = some (st', tch)) : I st'.1 := by
  obtain ⟨s, more⟩ := st
  cases more with
  | nil => cases h
  | cons rounds more =>
      simp only [do_item_alloc_chunk] at h
      obtain ⟨⟨s₁, nch⟩, hp, h⟩ := Option.bind_eq_some_iff.mp h
      cases h
      exact chunk_alloc_pull_rule hpull hs hp

end

namespace ChunkCache

variable {cfg : Settings} {c c' : ChunkCache} {s s' : Store} {d_it s_it : Ptr} {len : Nat} {more more' : List (List Round)}
  {ok : Bool}

theorem item_data_eq (hflat : ¬ (c.store.heap s_it).it_flags.chunked) (hlen : len ≤ (c.store.heap s_it).nbytes) :
    c.item_data s_it len = (c.value s_it).take len := by
  simp only [item_data, ChunkCache.value, if_neg hflat, Cache.bytes]
  rw [← List.map_take, List.take_range, Nat.min_eq_left hlen]

/-- The pulls for chunks leave `s`; the chunks of `d_it` hold what they held and, if all goes well, `len` bytes of `s_it`. -/
structure Fills (cfg : Settings) (c : ChunkCache) (d_it s_it : Ptr) (len : Nat) (ok : Bool) (c' : ChunkCache) : Prop where
  thinned : Store.Thinned cfg c.store c'.store
  eq : ∃ chain, c' = { c with store := c'.store, chain := Function.update c.chain d_it chain }
  packed : Packed (c'.chain d_it)
  content : ok = true → content (c'.chain d_it) = content (c.chain d_it) ++ (c.value s_it).take len

theorem store_item_copy_chunks_thinned (hs : c.store.Sound) (href : Store.Referenced c.store 0 0)
    (hcfg : cfg.tail_repair_time = 0) (hroom : ∀ m, c.store.refs m + 1 < 2 ^ 16)
    (h : c.store_item_copy_chunks cfg d_it s_it len more = some (c', more', ok)) : Store.Thinned cfg c.store c'.store := by
  have hall {remain : Nat} {s₁ s₂ : ChunkAlloc} {tch : Option Nat} (ht : Store.Thinned cfg c.store s₁.1)
      (ha : do_item_alloc_chunk cfg s₁ remain = some (s₂, tch)) : Store.Thinned cfg c.store s₂.1 :=
    do_item_alloc_chunk_rule (fun ht hflag hp => ht.lru_pull_tail hcfg hroom hflag hp) ht ha
  have hstart : Store.Thinned cfg c.store (c.store, more).1 := .refl hs href
  simp only [store_item_copy_chunks] at h
  split at h
  · cases h
  split at h <;> obtain ⟨⟨st, d, ok⟩, hcopy, h⟩ := Option.bind_eq_some_iff.mp h <;> cases h
  · exact (Filling.copy_chunks_allocated hcopy).keeps (P := fun st : ChunkAlloc => Store.Thinned cfg c.store st.1) hall hstart
  · exact (Filling.copy_data_allocated hcopy).keeps (P := fun st : ChunkAlloc => Store.Thinned cfg c.store st.1) hall hstart

theorem store_item_copy_data_thinned {comm : Comm} {old_it new_it add_it : Ptr} (hs : c.store.Sound)
    (href : Store.Referenced c.store 0 0) (hcfg : cfg.tail_repair_time = 0) (hroom : ∀ m, c.store.refs m + 1 < 2 ^ 16)
    (h : c.store_item_copy_data cfg comm old_it new_it add_it more = some (c', ok)) : Store.Thinned cfg c.store c'.store := by
  have hparts {first second : Ptr} (h : c.copy_parts cfg new_it first second more = some (c', ok)) :
      Store.Thinned cfg c.store c'.store := by
    simp only [copy_parts] at h
    split at h
    · obtain ⟨⟨c₁, more₁, ok₁⟩, hfirst, h⟩ := Option.bind_eq_some_iff.mp h
      have hthin := store_item_copy_chunks_thinned hs href hcfg hroom hfirst
      dsimp only at h
      split at h
      · cases h
        exact hthin
      · obtain ⟨⟨c₂, more₂, ok₂⟩, hsecond, h⟩ := Option.bind_eq_some_iff.mp h
        cases h
        exact hthin.trans (store_item_copy_chunks_thinned hthin.sound hthin.referenced hcfg
          (fun m => (Nat.add_le_add_right (hthin.fewer m) 1).trans_lt (hroom m)) hsecond)
    · cases h
      exact .refl hs href
  rw [store_item_copy_data] at h
  split at h <;> exact hparts h

theorem store_item_copy_chunks_locks (h : c.store_item_copy_chunks cfg d_it s_it len more = some (c', more', ok)) :
    c'.item_lock_of = c.item_lock_of := by
  simp only [store_item_copy_chunks] at h
  split at h
  · cases h
  · split at h <;> obtain ⟨⟨st, d, ok⟩, -, h⟩ := Option.bind_eq_some_iff.mp h <;> cases h <;> rfl

theorem store_item_copy_data_locks {comm : Comm} {old_it new_it add_it : Ptr}
    (h : c.store_item_copy_data cfg comm old_it new_it add_it more = some (c', ok)) : c'.item_lock_of = c.item_lock_of := by
  have hparts {first second : Ptr} (h : c.copy_parts cfg new_it first second more = some (c', ok)) :
      c'.item_lock_of = c.item_lock_of := by
    simp only [copy_parts] at h
    split at h
    · obtain ⟨⟨c₁, more₁, ok₁⟩, hfirst, h⟩ := Option.bind_eq_some_iff.mp h
      have hlocks := store_item_copy_chunks_locks hfirst
      dsimp only at h
      split at h
      · cases h
        exact hlocks
      · obtain ⟨⟨c₂, more₂, ok₂⟩, hsecond, h⟩ := Option.bind_eq_some_iff.mp h
        cases h
        exact (store_item_copy_chunks_locks hsecond).trans hlocks
    · cases h
      rfl
  rw [store_item_copy_data] at h
  split at h <;> exact hparts h

theorem store_item_copy_chunks_fills (hs : c.store.Sound) (href : Store.Referenced c.store 0 0)
    (hcfg : cfg.tail_repair_time = 0) (hroom : ∀ m, c.store.refs m + 1 < 2 ^ 16) (hpacked : Packed (c.chain d_it))
    (hlen : len ≤ (c.store.heap s_it).nbytes)
    (h : c.store_item_copy_chunks cfg d_it s_it len more = some (c', more', ok)) : Fills cfg c d_it s_it len ok c' := by
  have hthin := store_item_copy_chunks_thinned hs href hcfg hroom h
  simp only [store_item_copy_chunks] at h
  cases hchain : c.chain d_it with
  | nil =>
      rw [hchain] at h
      cases h
  | cons dch rest =>
      rw [hchain] at h hpacked
      dsimp only at h
      have hd : (Filling.advance [] dch rest).Packed := Filling.advance_packed (fun _ hch => by cases hch) hpacked
      have hfirst : (Filling.advance [] dch rest).chain = c.chain d_it := by
        rw [Filling.advance_chain, hchain]
        rfl
      have hfills {st : ChunkAlloc} {d : Filling} {src : List UInt8} {ok : Bool} (hthin : Store.Thinned cfg c.store st.1)
          (hcopied : Filling.Copied (Filling.advance [] dch rest) src len d ok)
          (hsrc : src.take len = (c.value s_it).take len) :
          Fills cfg c d_it s_it len ok { c with store := st.1, chain := Function.update c.chain d_it d.chain } := by
        obtain ⟨k, -, hcontent, hok⟩ := hcopied.content
        have hself : Function.update c.chain d_it d.chain d_it = d.chain := Function.update_self _ _ _
        refine ⟨hthin, ⟨_, rfl⟩, (congrArg SlabsCurd.Packed hself).mpr hcopied.packed.chain, fun htrue => ?_⟩
        obtain ⟨rfl, -⟩ := hok htrue
        exact (congrArg SlabsCurd.content hself).trans (by rw [hcontent, hfirst, hsrc])
      split at h
      · next hchunked =>
        obtain ⟨⟨st, d, ok'⟩, hcopy, h⟩ := Option.bind_eq_some_iff.mp h
        cases h
        refine hfills hthin (Filling.copy_chunks_copied hd (fun _ _ => Nat.zero_le _) hcopy) ?_
        rw [List.drop_zero, ChunkCache.value, if_pos hchunked]
      · next hflat =>
        obtain ⟨⟨st, d, ok'⟩, hcopy, h⟩ := Option.bind_eq_some_iff.mp h
        cases h
        have hlength : (c.item_data s_it len).length = len := by simp [item_data]
        refine hfills hthin (hlength ▸ Filling.copy_data_copied hd hcopy) ?_
        rw [List.take_of_length_le hlength.le, item_data_eq hflat hlen]

/-- The second write begins before the end of the first. -/
theorem write_over {b : Cache} {it : Ptr} {first second : List UInt8} {k : Nat} (hk : k ≤ first.length) :
    (List.range (k + second.length)).map (((b.write it 0 first).write it k second).data it) = first.take k ++ second := by
  apply List.ext_getElem
  · simp [hk]
  intro i hi hi'
  simp only [List.length_map, List.length_range] at hi
  simp only [List.getElem_map, List.getElem_range, Cache.write, Function.update_self]
  by_cases hfirst : i < k
  · rw [if_neg (by omega), if_pos (by omega), List.getElem_append_left (by rw [List.length_take]; omega), List.getElem_take]
    simp [show i < first.length by omega]
  · rw [if_pos (by omega), List.getElem_append_right (by rw [List.length_take]; omega)]
    have hlength : (first.take k).length = k := by rw [List.length_take]; omega
    simp [hlength, show i - k < second.length by omega]

/-- What `copy_parts` is given: the new item and two items with their values, all of them held. -/
structure Copyable (c : ChunkCache) (n first second : Nat) : Prop where
  sound : c.store.Sound
  referenced : Store.Referenced c.store 0 0
  held : 0 < c.store.held (.item n)
  held_first : 0 < c.store.held (.item first)
  held_second : 0 < c.store.held (.item second)
  first_ne : first ≠ n
  second_ne : second ≠ n
  filled_first : c.Filled (.item first)
  filled_second : c.Filled (.item second)
  nbytes : (c.store.heap (.item n)).nbytes = (c.store.heap (.item first)).nbytes + (c.store.heap (.item second)).nbytes - 2
  line : 2 ≤ (c.store.heap (.item first)).nbytes
  internal : (c.store.heap (.item n)).it_flags.chunked → c.chain (.item n) = [⟨0, []⟩]
  flat : ¬ (c.store.heap (.item n)).it_flags.chunked →
    ¬ (c.store.heap (.item first)).it_flags.chunked ∧ ¬ (c.store.heap (.item second)).it_flags.chunked

/-- The new item has both values, if all went well; pulls have left the others. -/
structure Joined (cfg : Settings) (c : ChunkCache) (n first second : Nat) (ok : Bool) (c' : ChunkCache) : Prop where
  thinned : Store.Thinned cfg c.store c'.store
  suffix : c'.suffix = c.suffix
  others : ∀ q, q ≠ .item n → c'.data q = c.data q ∧ c'.chain q = c.chain q
  value : ok = true → c'.value (.item n) = Record.join (c.value (.item first)) (c.value (.item second))
  packed : (c'.store.heap (.item n)).it_flags.chunked → Packed (c'.chain (.item n))

variable {n first second : Nat}

theorem copy_parts_joined (hc : c.Copyable n first second) (hcfg : cfg.tail_repair_time = 0)
    (hroom : ∀ m, c.store.refs m + 1 < 2 ^ 16)
    (h : c.copy_parts cfg (.item n) (.item first) (.item second) more = some (c', ok)) : Joined cfg c n first second ok c' := by
  have hfirst := hc.filled_first.value
  have hsecond := hc.filled_second.value
  simp only [copy_parts] at h
  split at h
  · next hchunked =>
    have hinternal := hc.internal hchunked
    obtain ⟨⟨c₁, more₁, ok₁⟩, hcopy, h⟩ := Option.bind_eq_some_iff.mp h
    have hfill := store_item_copy_chunks_fills hc.sound hc.referenced hcfg hroom
      (by rw [hinternal]; exact ⟨[], _, rfl, by simp, by simp [ItemChunk.used]⟩) (Nat.sub_le _ _) hcopy
    obtain ⟨chain₁, heq₁⟩ := hfill.eq
    have hothers₁ (q : Ptr) (hq : q ≠ .item n) : c₁.data q = c.data q ∧ c₁.chain q = c.chain q := by
      rw [heq₁]
      exact ⟨rfl, Function.update_of_ne hq _ _⟩
    have hsuffix₁ : c₁.suffix = c.suffix := by rw [heq₁]
    dsimp only at h
    split at h
    · cases h
      exact ⟨hfill.thinned, hsuffix₁, hothers₁, fun hok => (by cases hok), fun _ => hfill.packed⟩
    next hok₁ =>
    obtain ⟨⟨c₂, more₂, ok₂⟩, hcopy₂, h⟩ := Option.bind_eq_some_iff.mp h
    cases h
    have hages := (hfill.thinned.holds hc.held_second).2
    have hne : Ptr.item second ≠ .item n := by simpa using hc.second_ne
    have hunwritten : Unwritten c c₁ (.item second) := ⟨(hothers₁ _ hne).1, by rw [hsuffix₁], (hothers₁ _ hne).2⟩
    have hvalue : c₁.value (.item second) = c.value (.item second) := hunwritten.value hages.nbytes hages.chunked
    have hfill₂ := store_item_copy_chunks_fills hfill.thinned.sound hfill.thinned.referenced hcfg
      (fun m => (Nat.add_le_add_right (hfill.thinned.fewer m) 1).trans_lt (hroom m)) hfill.packed hages.nbytes.ge hcopy₂
    obtain ⟨chain₂, heq₂⟩ := hfill₂.eq
    have hthinned := hfill.thinned.trans hfill₂.thinned
    have hchunked₂ : (c₂.store.heap (.item n)).it_flags.chunked :=
      (hthinned.holds hc.held).2.chunked ▸ hchunked
    refine ⟨hthinned, ?_, fun q hq => ?_, fun hok => ?_, fun _ => hfill₂.packed⟩
    · rw [heq₂]
      exact hsuffix₁
    · obtain ⟨hdata, hchain⟩ := hothers₁ q hq
      rw [← hdata, ← hchain, heq₂]
      exact ⟨rfl, Function.update_of_ne hq _ _⟩
    · rw [ChunkCache.value, if_pos hchunked₂, hfill₂.content hok, hfill.content (by simpa using hok₁), hinternal, hvalue,
        ← hsecond, List.take_length, Record.join, hfirst]
      simp
  · next hflat =>
    obtain ⟨hflat_first, hflat_second⟩ := hc.flat hflat
    have hdata_first : c.item_data (.item first) (c.store.heap (.item first)).nbytes = c.value (.item first) := by
      rw [item_data_eq hflat_first le_rfl, ← hfirst, List.take_length]
    have hdata_second : c.item_data (.item second) (c.store.heap (.item second)).nbytes = c.value (.item second) := by
      rw [item_data_eq hflat_second le_rfl, ← hsecond, List.take_length]
    rw [hdata_first, hdata_second] at h
    cases h
    refine ⟨.refl hc.sound hc.referenced, rfl, fun q hq => ⟨?_, rfl⟩, fun _ => ?_, fun hchunked => absurd hchunked hflat⟩
    · simp [Cache.write, hq]
    · have hwritten := @write_over c.toCache (.item n) (c.value (.item first)) (c.value (.item second))
        ((c.store.heap (.item first)).nbytes - 2) (by rw [hfirst]; exact Nat.sub_le _ _)
      have hline := hc.line
      have hsum : (c.store.heap (.item first)).nbytes - 2 + (c.value (.item second)).length =
          (c.store.heap (.item n)).nbytes := by
        rw [hsecond, hc.nbytes]
        omega
      rw [hsum, ← hfirst, ← Record.join] at hwritten
      rw [← hwritten, hfirst]
      exact if_neg hflat

theorem store_item_copy_data_joined {comm : Comm} {old it : Nat} (hcfg : cfg.tail_repair_time = 0)
    (hroom : ∀ m, c.store.refs m + 1 < 2 ^ 16) (hold : c.Copyable n old it) (hit : c.Copyable n it old)
    (h : c.store_item_copy_data cfg comm (.item old) (.item n) (.item it) more = some (c', ok)) :
    if comm = .NREAD_APPEND then Joined cfg c n old it ok c' else Joined cfg c n it old ok c' := by
  simp only [store_item_copy_data] at h
  split at h
  · next happend =>
    rw [if_pos happend]
    exact copy_parts_joined hold hcfg hroom h
  · next hprepend =>
    rw [if_neg hprepend]
    exact copy_parts_joined hit hcfg hroom h

end ChunkCache

end Memcached.SlabsCurd

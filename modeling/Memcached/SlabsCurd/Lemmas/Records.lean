import Memcached.SlabsCurd.Lemmas.Replacements
import Memcached.SlabsCurd.Records

/-!
# Records of items

What is stored in an item stays as it is while the item is in use; entries are lost, or put by a link.
-/

namespace Memcached.SlabsCurd

open MemoryLru Lossy

namespace ChunkCache

variable {cfg : Settings} {c c' c'' : ChunkCache} {p q : Ptr} {key : MemoryLru.Key} {s s' : Store} {n : Nat}

/-! ## One item -/

/-- What an item stores is as it was. -/
structure Unwritten (c c' : ChunkCache) (q : Ptr) : Prop where
  data : c'.data q = c.data q
  suffix : c'.suffix q = c.suffix q
  chain : c'.chain q = c.chain q

theorem Unwritten.trans (h : Unwritten c c' q) (h' : Unwritten c' c'' q) : Unwritten c c'' q :=
  ⟨h'.data.trans h.data, h'.suffix.trans h.suffix, h'.chain.trans h.chain⟩

theorem Unwritten.value (h : Unwritten c c' q) (hnbytes : (c'.store.heap q).nbytes = (c.store.heap q).nbytes)
    (hchunked : (c'.store.heap q).it_flags.chunked = (c.store.heap q).it_flags.chunked) : c'.value q = c.value q := by
  simp only [ChunkCache.value, Cache.bytes, hchunked, hnbytes, h.data, h.chain]

theorem Unwritten.flags (h : Unwritten c c' q) (hnsuffix : (c'.store.heap q).nsuffix = (c.store.heap q).nsuffix) :
    c'.flags cfg q = c.flags cfg q := by
  simp only [Cache.flags, hnsuffix, h.suffix]

theorem Unwritten.record (h : Unwritten c c' q) (hages : (c.store.heap q).Ages (c'.store.heap q)) :
    c'.record cfg q = c.record cfg q := by
  simp only [ChunkCache.record, h.value hages.nbytes hages.chunked, h.flags hages.nsuffix, hages.exptime, hages.get_cas]

theorem Unwritten.filled (h : Unwritten c c' q) (hnbytes : (c'.store.heap q).nbytes = (c.store.heap q).nbytes)
    (hchunked : (c'.store.heap q).it_flags.chunked = (c.store.heap q).it_flags.chunked) (hfilled : c.Filled q) :
    c'.Filled q := by
  refine ⟨?_, fun hc => ?_⟩
  · rw [h.value hnbytes hchunked, hnbytes]
    exact hfilled.value
  · rw [h.chain]
    exact hfilled.packed (hchunked ▸ hc)

/-- A chunked item is too large for one chunk. -/
def Sized (cfg : Settings) (c : ChunkCache) (p : Ptr) : Prop :=
  (c.store.heap p).it_flags.chunked → cfg.slab_chunk_size_max <
    NewItem.ntotal cfg ⟨(c.store.heap p).key, c.flags cfg p, (c.store.heap p).exptime, (c.store.heap p).nbytes⟩

theorem Sized.congr (hsized : c.Sized cfg q) (hkey : (c'.store.heap q).key = (c.store.heap q).key)
    (hflags : c'.flags cfg q = c.flags cfg q) (hnbytes : (c'.store.heap q).nbytes = (c.store.heap q).nbytes)
    (hchunked : (c'.store.heap q).it_flags.chunked = (c.store.heap q).it_flags.chunked) : c'.Sized cfg q := by
  simp only [Sized, hchunked, hkey, hflags, hnbytes]
  exact hsized

/-! ## All items but one -/

/-- The items but `p` keep what is stored in them, as long as they are in use. -/
structure Passes (p : Ptr) (c c' : ChunkCache) : Prop where
  store : Store.FadesBut p c.store c'.store
  unwritten : ∀ q, q ≠ p → Unwritten c c' q

theorem Passes.of_store (h : Store.FadesBut p c.store s) : Passes p c { c with store := s } := ⟨h, fun _ _ => ⟨rfl, rfl, rfl⟩⟩

theorem Passes.trans (h : Passes p c c') (h' : Passes p c' c'') : Passes p c c'' :=
  ⟨h.store.trans h'.store, fun q hq => (h.unwritten q hq).trans (h'.unwritten q hq)⟩

theorem Passes.entry (h : Passes p c c') (hs : c.store.Sound) (hs' : c'.store.Sound) (hq : q ≠ p)
    (ht : c'.store.table key = some q) : c.entries cfg key = c'.entries cfg key := by
  obtain ⟨ht₀, hages⟩ := h.store.table hs hs' hq ht
  simp only [entries, ht, ht₀, Option.map_some, (h.unwritten q hq).record hages]

/-- `p` has the only key that may be new. -/
theorem Passes.others (h : Passes p c c') (hs : c.store.Sound) (hs' : c'.store.Sound)
    (hp : c'.store.table key = some p ∨ ¬ (c'.store.heap p).it_flags.linked) (k : MemoryLru.Key) (hk : k ≠ key) (v : Record)
    (hv : c'.entries cfg k = some v) : c.entries cfg k = some v := by
  obtain ⟨q, ht, -⟩ := Option.map_eq_some_iff.mp hv
  rw [h.entry hs hs' ?_ ht]
  · exact hv
  · rintro rfl
    obtain ⟨-, -, hlinked, hkey, -⟩ := hs'.entry ht
    rcases hp with hp | hp
    · obtain ⟨-, -, -, hkey', -⟩ := hs'.entry hp
      exact hk (hkey.symm.trans hkey')
    · exact hp hlinked

theorem Passes.loses (h : Passes p c c') (hs : c.store.Sound) (hs' : c'.store.Sound)
    (hp : ¬ (c'.store.heap p).it_flags.linked) : Loses (c.entries cfg) (c'.entries cfg) := by
  intro k v hv
  obtain ⟨q, ht, -⟩ := Option.map_eq_some_iff.mp hv
  rw [h.entry hs hs' ?_ ht]
  · exact hv
  · rintro rfl
    obtain ⟨-, -, hlinked, -⟩ := hs'.entry ht
    exact hp hlinked

theorem loses_of_fades (h : Store.Fades c.store s) (hs : c.store.Sound) (hs' : s.Sound) :
    Loses (c.entries cfg) ({ c with store := s }.entries cfg) := by
  intro k v hv
  obtain ⟨q, ht, -⟩ := Option.map_eq_some_iff.mp hv
  obtain ⟨n, rfl, -⟩ := Store.Sound.entry hs' ht
  rw [(Passes.of_store (p := .crawler 0) h.but).entry hs hs' (by simp) ht]
  exact hv

/-- The record of `p` is put under its key. -/
theorem Passes.put (cfg : Settings) (h : Passes p c c') (hs : c.store.Sound) (hs' : c'.store.Sound) (hp : c'.store.table key = some p) :
    ∃ m₁, Loses (c.entries cfg) m₁ ∧ m₁ key = c.entries cfg key ∧
      c'.entries cfg = Function.update m₁ key (some (c'.record cfg p)) :=
  loses_put (h.others hs hs' (.inl hp)) (by rw [entries, hp, Option.map_some])

/-! ## What the functions keep -/

/-- A free item has no chunks. -/
def Plain (i : MemoryLru.Item) : Prop := i.it_flags.slabbed → ¬ i.it_flags.chunked

theorem plain_rule (cfg : Settings) : Store.ItemRule cfg Plain where
  shape hshape hi := by
    have hslabbed := Item.shape_congr (·.it_flags.slabbed) (fun _ => rfl) hshape
    have hchunked := Item.shape_congr (·.it_flags.chunked) (fun _ => rfl) hshape
    rw [Plain, hslabbed, hchunked]
    exact hi
  linked _ hi := hi
  freed _ _ := by simp [Flags.zero]
  made _ _ _ _ _ hslabbed := by simp [Store.made] at hslabbed

/-- The items, their references and their flags are in order. -/
structure Live (cfg : Settings) (s : Store) : Prop where
  sound : s.Sound
  referenced : Store.Referenced s 0 0
  tagged : ∀ n, Store.Tagged cfg (s.heap (.item n))
  plain : ∀ n, Plain (s.heap (.item n))

theorem Live.advance (h : Live cfg s) (hadvances : Advances cfg s s') (href : Store.Referenced s' 0 0) : Live cfg s' := by
  obtain ⟨hs', hkeeps⟩ := hadvances h.sound
  exact ⟨hs', href, hkeeps _ (Store.tagged_rule cfg) h.tagged, hkeeps _ (plain_rule cfg) h.plain⟩

theorem Live.do_item_get {do_update room : Bool} {r : Option Ptr} (h : Live cfg s) (hroom : ∀ m, s.refs m + 2 < 2 ^ 16)
    (hget : s.do_item_get cfg key do_update room = some (s', r)) : Live cfg s' := by
  refine h.advance (fun hs => ⟨hs.do_item_get hget, fun _ hI => hI.do_item_get hget⟩)
    (h.referenced.do_item_get h.sound (fun m => ?_) hget)
  have hm := hroom m
  simp only [Event.takes]
  split <;> omega

theorem Live.do_item_touch {exptime : UInt32} {room : Bool} {r : Option Ptr} (h : Live cfg s)
    (hroom : ∀ m, s.refs m + 2 < 2 ^ 16) (htouch : s.do_item_touch cfg key exptime room = some (s', r)) : Live cfg s' := by
  refine h.advance (fun hs => ⟨hs.do_item_touch htouch, fun _ hI => hI.do_item_touch htouch⟩)
    (h.referenced.do_item_touch h.sound (fun m => ?_) htouch)
  have hm := hroom m
  simp only [Event.takes]
  split <;> omega

theorem Live.release (h : Live cfg s) (hrelease : s.release (.item n) = some s') : Live cfg s' :=
  h.advance (release_advances hrelease) ((h.referenced.of_zero (m := n)).release hrelease).of_zero

theorem Live.do_item_update (h : Live cfg s) (hupdate : s.do_item_update cfg (.item n) = some s') : Live cfg s' :=
  h.advance (fun hs => ⟨hs.do_item_update hupdate, fun _ hI => hI.do_item_update hupdate⟩)
    (h.referenced.same (Store.do_item_update_same hupdate))

theorem Live.do_item_link (h : Live cfg s) (hroom : s.refs n + 1 < 2 ^ 16) (hkey : s.table (s.heap (.item n)).key = none)
    (hlink : s.do_item_link cfg (.item n) = some s') : Live cfg s' :=
  h.advance (fun hs => ⟨hs.do_item_link hkey hlink, fun _ hI => hI.do_item_link hlink⟩)
    ((h.referenced.of_zero (m := n)).do_item_link hroom hlink).of_zero

theorem Live.do_item_replace {m : Nat} (h : Live cfg s) (hroom : ∀ m, s.refs m + 1 < 2 ^ 16)
    (hkey : s.table (s.heap (.item m)).key = none ∨ s.table (s.heap (.item m)).key = some (.item n))
    (hreplace : s.do_item_replace cfg (.item n) (.item m) = some s') : Live cfg s' :=
  h.advance (fun hs => ⟨hs.do_item_replace hkey hreplace, fun _ hI => hI.do_item_replace hreplace⟩)
    ((h.referenced.of_zero (m := n)).do_item_replace hroom hreplace).of_zero

theorem set_cas_eq {i : MemoryLru.Item} {v : UInt64} : i.set_cas v = { i with cas := (i.set_cas v).cas } := by
  simp only [Item.set_cas]
  split <;> rfl

theorem Live.set_cas {v : UInt64} (h : Live cfg s) : Live cfg (s.modify (.item n) fun i => i.set_cas v) := by
  refine h.advance set_cas_advances (h.referenced.same ⟨fun m => ?_, fun m => ?_, fun m => ?_, rfl, rfl, rfl, rfl⟩) <;>
    by_cases hm : Ptr.item m = .item n
  all_goals first
    | rw [hm, Store.modify_self, set_cas_eq]
    | rw [Store.modify_of_ne hm]

theorem Live.step {e : Event} (h : Live cfg s) (hcfg : cfg.tail_repair_time = 0) (hstep : Store.SafeStep cfg s e s') :
    Live cfg s' :=
  h.advance (fun hs => ⟨hs.step hstep.step, fun _ hI => hI.step hs hstep.step⟩) (h.referenced.step h.sound hcfg hstep)

/-- What holds in every state of the cache. -/
structure Ready (cfg : Settings) (c : ChunkCache) : Prop extends Live cfg c.store where
  filled : ∀ n, (c.store.heap (.item n)).it_flags.linked → c.Filled (.item n)
  sized : ∀ n, ¬ (c.store.heap (.item n)).it_flags.slabbed → c.Sized cfg (.item n)

/-- Linked items were so before, but for `p`. -/
theorem Passes.ready (h : Passes p c c') (hready : c.Ready cfg) (hlive : Live cfg c'.store)
    (hfilled : ∀ n, p = .item n → (c'.store.heap p).it_flags.linked → c'.Filled p)
    (hsized : ∀ n, p = .item n → ¬ (c'.store.heap p).it_flags.slabbed → c'.Sized cfg p) : c'.Ready cfg := by
  refine ⟨hlive, fun n hlinked => ?_, fun n hused => ?_⟩ <;> by_cases hn : Ptr.item n = p
  · rw [hn] at hlinked ⊢
    exact hfilled n hn.symm hlinked
  · obtain ⟨-, -, hlinked', -, hused⟩ := hlive.sound.entry (hlive.sound.of_entry hlinked)
    obtain ⟨-, hages⟩ := h.store n hn hused
    exact (h.unwritten _ hn).filled hages.nbytes hages.chunked (hready.filled n (hages.linked hlinked))
  · rw [hn] at hused ⊢
    exact hsized n hn.symm hused
  · obtain ⟨hused₀, hages⟩ := h.store n hn hused
    exact (hready.sized n hused₀).congr hages.key ((h.unwritten _ hn).flags hages.nsuffix) hages.nbytes hages.chunked

theorem Ready.fades (h : c.Ready cfg) (hlive : Live cfg s) (hfades : Store.Fades c.store s) :
    Ready cfg { c with store := s } ∧ Loses (c.entries cfg) ({ c with store := s }.entries cfg) :=
  ⟨(Passes.of_store (p := .crawler 0) hfades.but).ready h hlive (fun _ hn => (by cases hn)) fun _ hn => (by cases hn),
    loses_of_fades hfades h.sound hlive.sound⟩

end ChunkCache

end Memcached.SlabsCurd

import Memcached.Lib.Tally
import Memcached.MemoryLru.ItemTheorems
import Memcached.MemoryLru.Lemmas.ItemFrames
import Memcached.MemoryLru.StatsSizes

/-!
# The size histogram counts the linked items

It does as long as no item whose CAS was given before the histogram was enabled moves to external storage.
-/

namespace Memcached.MemoryLru

open Function (update update_self update_of_ne)
open Tally Transition

namespace Item

variable {i : Item} {v : UInt64}

theorem get_cas_set_cas : (i.set_cas v).get_cas = if i.it_flags.cas then v else 0 := by
  rw [set_cas]
  split
  · next h => simp [get_cas, h]
  · next h => simp [get_cas, h]

@[simp] theorem set_cas_flags : (i.set_cas v).it_flags = i.it_flags := by
  rw [set_cas]
  split <;> rfl

@[simp] theorem set_cas_ntotal : (i.set_cas v).ntotal = i.ntotal := by
  rw [set_cas]
  split <;> rfl

end Item

namespace Store

section
variable {cfg : Settings} {s s' : Store} {it : Ptr}

/-! ## Effects -/

theorem do_item_link_others (h : s.do_item_link cfg it = some s') {q : Ptr} (hq : q ≠ it) :
    (s'.heap q).core = (s.heap q).core := by
  obtain ⟨-, -, cas, cas_id, s₁, hlink, rfl⟩ := do_item_link_cases h
  rw [refcount_incr, modify_of_ne hq, (do_item_link_q_core hlink).core, linking_kept hq]

theorem do_item_link_cas_id (h : s.do_item_link cfg it = some s') :
    s'.cas_id = if cfg.use_cas then s.cas_id + 1 else s.cas_id := by
  obtain ⟨-, -, s₁, hlink, rfl⟩ := do_item_link_linking h
  change s₁.cas_id = _
  rw [(do_item_link_q_core hlink).rest]
  rfl

theorem do_item_link_linked (h : s.do_item_link cfg it = some s') : (s'.heap it).it_flags.linked := by
  obtain ⟨-, -, cas, cas_id, s₁, hlink, rfl⟩ := do_item_link_cases h
  rw [refcount_incr, modify_self]
  exact (Item.core_congr (·.it_flags.linked) (fun _ => rfl) ((do_item_link_q_core hlink).core it)).trans (by simp [linking])

/-- Without CAS an item has none, or it has 0. -/
theorem do_item_link_get_cas (h : s.do_item_link cfg it = some s') :
    (s'.heap it).get_cas = if (s'.heap it).it_flags.cas ∧ cfg.use_cas then s'.cas_id else 0 := by
  rw [do_item_link_cas_id h]
  obtain ⟨-, -, s₁, hlink, rfl⟩ := do_item_link_linking h
  have hcore := (do_item_link_q_core hlink).core it
  have hcas := Item.core_congr Item.get_cas (fun _ => rfl) hcore
  have hflag := Item.core_congr (·.it_flags.cas) (fun _ => rfl) hcore
  have hsame : ((s₁.refcount_incr it).heap it).get_cas = (s₁.heap it).get_cas ∧
      ((s₁.refcount_incr it).heap it).it_flags.cas = (s₁.heap it).it_flags.cas := by
    rw [refcount_incr, modify_self]
    exact ⟨rfl, rfl⟩
  rw [hsame.1, hsame.2, hcas, hflag]
  cases cfg.use_cas <;> cases hold : (s.heap it).it_flags.cas <;> simp [linking, Item.get_cas, hold]

theorem do_item_unlink_others (h : s.do_item_unlink it = some s') {q : Ptr} (hq : q ≠ it) :
    (s'.heap q).core = (s.heap q).core := by
  obtain ⟨-, rfl⟩ | ⟨-, s₁, hunlink, hremove⟩ := do_item_unlink_cases h
  · rfl
  · have hsame : (s₁.heap q).core = (s.heap q).core := by rw [(do_item_unlink_q_core hunlink).core, unlinking_kept hq]
    obtain ⟨-, ⟨-, -, rfl⟩ | ⟨-, -, rfl⟩⟩ := do_item_remove_cases hremove
    · rw [refcount_decr, modify_of_ne hq, hsame]
    · rw [← hsame]
      simp [freed, modify_of_ne hq]

/-- An item that someone else refers to is not freed. -/
theorem do_item_unlink_get_cas (h : s.do_item_unlink it = some s') (hrefs : 2 ≤ (s.heap it).refcount) :
    (s'.heap it).get_cas = (s.heap it).get_cas := by
  obtain ⟨-, rfl⟩ | ⟨-, s₁, hunlink, hremove⟩ := do_item_unlink_cases h
  · rfl
  · have hcore := (do_item_unlink_q_core hunlink).core it
    have hcas : (s₁.heap it).get_cas = (s.heap it).get_cas :=
      (Item.core_congr Item.get_cas (fun _ => rfl) hcore).trans (by simp [unlinking, Item.get_cas])
    have hsame : (s₁.heap it).refcount = (s.heap it).refcount :=
      (Item.core_congr (·.refcount) (fun _ => rfl) hcore).trans (by simp [unlinking])
    obtain ⟨-, ⟨-, -, rfl⟩ | ⟨hone, -, -⟩⟩ := do_item_remove_cases hremove
    · rw [← hcas, refcount_decr, modify_self]
      rfl
    · rw [hsame] at hone
      rw [hone] at hrefs
      exact absurd hrefs (by decide)

end
end Store

/-! ## What leaves the histogram alone -/

namespace Store.Quiet

variable {s s' : Store} {n : Nat}

/-- An item that is not linked may be anything. -/
theorem modify {f : Item → Item} (hl : ¬ (s.heap (.item n)).it_flags.linked) (hf : ¬ (f (s.heap (.item n))).it_flags.linked) :
    s.Quiet (s.modify (.item n) f) := by
  refine ⟨fun k => ?_, fun k hk => ?_, .inl rfl⟩
  · by_cases hkn : Ptr.item k = .item n
    · rw [hkn, modify_self, Bool.eq_false_of_not_eq_true hl, Bool.eq_false_of_not_eq_true hf]
    · rw [modify_of_ne hkn]
  · have hkn : Ptr.item k ≠ .item n := fun h => hl (h ▸ hk)
    rw [modify_of_ne hkn]
    exact ⟨rfl, rfl⟩

/-- So may the queues, the times and the references. -/
theorem of_kept (h : Kept s s' (.item n)) : s.Quiet s' := by
  have hcore {k : Nat} (hk : Ptr.item k ≠ .item n) := h.core _ hk
  have hcas : (s'.heap (.item n)).get_cas = (s.heap (.item n)).get_cas := by
    rw [Item.get_cas, Item.get_cas, h.cas, Item.shape_congr (·.it_flags.cas) (fun _ => rfl) h.shape]
  refine ⟨fun k => ?_, fun k _ => ?_, .inl (by rw [h.rest])⟩
  · by_cases hk : Ptr.item k = .item n
    · rw [hk]
      exact Item.shape_congr (·.it_flags.linked) (fun _ => rfl) h.shape
    · exact Item.core_congr (·.it_flags.linked) (fun _ => rfl) (hcore hk)
  · by_cases hk : Ptr.item k = .item n
    · rw [hk]
      exact ⟨Item.shape_congr Item.ntotal (fun _ => rfl) h.shape, hcas⟩
    · exact ⟨Item.core_congr Item.ntotal (fun _ => rfl) (hcore hk), Item.core_congr Item.get_cas (fun _ => rfl) (hcore hk)⟩

end Store.Quiet

namespace SizesStore

variable {cfg : SizesSettings} {t t' : SizesStore} {s' : Store} {it : Item} {L : Finset Nat} {n m : Nat} {b : Int}

/-! ## Counting -/

/-- The bucket of an item, if it is counted. -/
def size_key (cas_min : UInt64) (it : Item) : Option Int := if cas_min ≤ it.get_cas then some it.sizes_bucket else none

theorem size_key_eq {cas_min : UInt64} : size_key cas_min it = some b ↔ cas_min ≤ it.get_cas ∧ it.sizes_bucket = b := by
  rw [size_key]
  split_ifs with h <;> simp [h]

theorem size_key_congr {i j : Item} {cas_min : UInt64} (hntotal : i.ntotal = j.ntotal) (hcas : i.get_cas = j.get_cas) :
    size_key cas_min i = size_key cas_min j := by
  rw [size_key, size_key, Item.sizes_bucket, Item.sizes_bucket, hntotal, hcas]

theorem size_key_core {i j : Item} {cas_min : UInt64} (h : i.core = j.core) : size_key cas_min i = size_key cas_min j :=
  Item.core_congr (size_key cas_min) (fun _ => rfl) h

/-- Another CAS makes no difference, if both are counted. -/
theorem size_key_set_cas {cas_min v : UInt64} (hv : cas_min ≤ v) (hcas : it.it_flags.cas → cas_min ≤ it.get_cas) :
    size_key cas_min (it.set_cas v) = size_key cas_min it := by
  cases hflag : it.it_flags.cas with
  | false => simp [Item.set_cas, hflag]
  | true =>
      have hset : cas_min ≤ (it.set_cas v).get_cas := by simpa [Item.get_cas_set_cas, hflag] using hv
      rw [size_key, size_key, if_pos hset, if_pos (hcas hflag), Item.sizes_bucket, Item.set_cas_ntotal, Item.sizes_bucket]

/-- A bucket after an item is counted. -/
def counted (t : SizesStore) (it : Item) (count : UInt32 → UInt32) (hist : Int → UInt32) (b : Int) : UInt32 :=
  if b < t.stats_sizes_buckets ∧ size_key t.stats_sizes_cas_min it = some b then count (hist b) else hist b

theorem count_eq {count : UInt32 → UInt32} : t.item_stats_sizes_count it count =
    { t with stats_sizes_hist := t.stats_sizes_hist.map (t.counted it count) } := by
  obtain ⟨s, hist, cas_min, buckets⟩ := t
  cases hist with
  | none => rfl
  | some hist =>
      have hcounted : counted ⟨s, some hist, cas_min, buckets⟩ it count hist =
          if cas_min ≤ it.get_cas ∧ it.sizes_bucket < buckets then update hist it.sizes_bucket (count (hist it.sizes_bucket))
          else hist := by
        funext b
        rw [counted, size_key]
        generalize it.sizes_bucket = bucket
        by_cases hb : bucket = b
        · subst hb
          split_ifs with hcas hbucket hboth hboth <;> simp_all
        · split_ifs with hcas hbucket hboth hboth <;> simp_all [update_of_ne (Ne.symm hb)]
      rw [Option.map_some, hcounted, item_stats_sizes_count]
      generalize it.sizes_bucket = bucket
      by_cases hcas : cas_min ≤ it.get_cas
      · have hold : ¬ cas_min > it.get_cas := UInt64.not_lt.mpr hcas
        by_cases hbucket : bucket < buckets <;> simp [hcas, hold, hbucket]
      · have hold : cas_min > it.get_cas := UInt64.not_le.mp hcas
        simp [hcas, hold]

@[simp] theorem add_store : (t.item_stats_sizes_add it).store = t.store := by
  rw [item_stats_sizes_add, count_eq]

@[simp] theorem remove_store : (t.item_stats_sizes_remove it).store = t.store := by
  rw [item_stats_sizes_remove, count_eq]

/-- A bucket counts one more. -/
theorem toNat_added {hist : Int → UInt32} (hb : b < t.stats_sizes_buckets) (hroom : (hist b).toNat + 1 < 2 ^ 32) :
    (t.counted it (· + 1) hist b).toNat = (hist b).toNat + one (size_key t.stats_sizes_cas_min it) b := by
  rw [counted, one]
  simp only [hb, true_and]
  split_ifs
  · rw [UInt32.toNat_add]
    exact Nat.mod_eq_of_lt hroom
  · rfl

/-- It counts one less, if there is one. -/
theorem toNat_removed {hist : Int → UInt32} (hb : b < t.stats_sizes_buckets)
    (hone : one (size_key t.stats_sizes_cas_min it) b ≤ (hist b).toNat) :
    (t.counted it (· - 1) hist b).toNat + one (size_key t.stats_sizes_cas_min it) b = (hist b).toNat := by
  rw [one] at hone ⊢
  rw [counted]
  simp only [hb, true_and]
  split_ifs at hone ⊢
  · have hle : (1 : UInt32) ≤ hist b := UInt32.le_iff_toNat_le.mpr hone
    rw [UInt32.toNat_sub_of_le _ _ hle]
    exact Nat.sub_add_cancel hone
  · rfl

/-! ## The invariant -/

def key (t : SizesStore) (n : Nat) : Option Int := size_key t.stats_sizes_cas_min (t.store.heap (.item n))

/-- The linked items are those of `L`, and the buckets count them. -/
structure Tallied (cfg : SizesSettings) (t : SizesStore) (L : Finset Nat) : Prop where
  linked : ∀ n, n ∈ L ↔ (t.store.heap (.item n)).it_flags.linked
  issued : ∀ n ∈ L, (t.store.heap (.item n)).get_cas.toNat ≤ t.store.cas_id.toNat
  enabled : t.stats_sizes_hist.isSome → cfg.use_cas
  counts : ∀ hist, t.stats_sizes_hist = some hist → ∀ b, b < t.stats_sizes_buckets → (hist b).toNat = tally t.key L b

theorem next_cas {cas_id : UInt64} (h : cas_id.toNat + 1 < 2 ^ 64) : (cas_id + 1).toNat = cas_id.toNat + 1 := by
  rw [UInt64.toNat_add]
  exact Nat.mod_eq_of_lt h

theorem Tallied.quiet (h : Tallied cfg t L) (hq : t.store.Quiet s') (hle : t.store.cas_id.toNat ≤ s'.cas_id.toNat) :
    Tallied cfg (t.with_store s') L where
  linked n := by
    rw [h.linked, ← hq.linked]
    rfl
  issued n hn := by
    have hsame := (hq.same n ((h.linked n).mp hn)).2
    have hissued := h.issued n hn
    simp only [with_store, hsame]
    exact hissued.trans hle
  enabled := h.enabled
  counts hist hhist b hb := by
    rw [h.counts hist hhist b hb]
    refine (tally_congr fun k hk => ?_).symm
    obtain ⟨hntotal, hcas⟩ := hq.same k ((h.linked k).mp hk)
    exact size_key_congr hntotal hcas

/-- There is room in a bucket. -/
theorem Tallied.room (h : Tallied cfg t L) (hroom : L.card + 1 < 2 ^ 32) {hist : Int → UInt32}
    (hhist : t.stats_sizes_hist = some hist) (hb : b < t.stats_sizes_buckets) : (hist b).toNat + 1 < 2 ^ 32 := by
  have hle : tally t.key L b ≤ L.card := tally_le_card
  rw [h.counts hist hhist b hb]
  omega

/-! ## Links -/

theorem Tallied.link (h : Tallied cfg t L) (hcas : t.store.cas_id.toNat + 1 < 2 ^ 64) (hroom : L.card + 1 < 2 ^ 32)
    (hlink : t.do_item_link cfg (.item n) = some t') : Tallied cfg t' (insert n L) := by
  obtain ⟨s', hs, hlink⟩ := Option.bind_eq_some_iff.mp hlink
  obtain rfl := Option.some.inj hlink
  have hnot : n ∉ L := fun hn => (Store.do_item_link_linking hs).1 ((h.linked n).mp hn)
  have hcore {k : Nat} (hk : k ≠ n) : (s'.heap (.item k)).core = (t.store.heap (.item k)).core :=
    Store.do_item_link_others hs fun heq => hk (Ptr.item.inj heq)
  have hle : t.store.cas_id.toNat ≤ s'.cas_id.toNat := by
    rw [Store.do_item_link_cas_id hs]
    split
    · rw [next_cas hcas]
      exact Nat.le_succ _
    · exact le_rfl
  rw [item_stats_sizes_add, count_eq]
  refine ⟨fun k => ?_, fun k hk => ?_, fun hsome => h.enabled (by simpa [with_store] using hsome), fun hist' hhist' b hb => ?_⟩
  · by_cases hk : k = n
    · subst hk
      exact iff_of_true (Finset.mem_insert_self k L) (Store.do_item_link_linked hs)
    · rw [Finset.mem_insert, or_iff_right hk, h.linked]
      exact Eq.to_iff (congrArg (· = true) (Item.core_congr (·.it_flags.linked) (fun _ => rfl) (hcore hk)).symm)
  · change (s'.heap (.item k)).get_cas.toNat ≤ s'.cas_id.toNat
    by_cases hkn : k = n
    · subst hkn
      rw [Store.do_item_link_get_cas hs]
      split
      · exact le_rfl
      · exact Nat.zero_le _
    · rw [Item.core_congr Item.get_cas (fun _ => rfl) (hcore hkn)]
      exact (h.issued k (Finset.mem_of_mem_insert_of_ne hk hkn)).trans hle
  · obtain ⟨hist, hhist, rfl⟩ := Option.map_eq_some_iff.mp hhist'
    refine (toNat_added (t := t.with_store s') hb (h.room hroom hhist hb)).trans ?_
    rw [tally_insert hnot]
    refine congrArg₂ (· + ·) ((h.counts hist hhist b hb).trans (tally_congr fun k hk => ?_).symm) rfl
    exact size_key_core (hcore fun heq => hnot (heq ▸ hk))

theorem Tallied.unlink (h : Tallied cfg t L) (hunlink : t.do_item_unlink (.item n) = some t') : Tallied cfg t' (L.erase n) := by
  obtain ⟨s', hs, hunlink⟩ := Option.bind_eq_some_iff.mp hunlink
  obtain rfl := Option.some.inj hunlink
  have hcas := Store.do_item_unlink_cas_id hs
  have hcore {k : Nat} (hk : k ≠ n) : (s'.heap (.item k)).core = (t.store.heap (.item k)).core :=
    Store.do_item_unlink_others hs fun heq => hk (Ptr.item.inj heq)
  by_cases hn : n ∈ L
  · rw [if_pos ((h.linked n).mp hn), item_stats_sizes_remove, count_eq]
    refine ⟨fun k => ?_, fun k hk => ?_, fun hsome => h.enabled (by simpa [with_store] using hsome), fun hist' hhist' b hb => ?_⟩
    · by_cases hk : k = n
      · subst hk
        exact iff_of_false (Finset.notMem_erase k L) (Store.do_item_unlink_unlinked hs)
      · rw [Finset.mem_erase, and_iff_right hk, h.linked]
        exact Eq.to_iff (congrArg (· = true) (Item.core_congr (·.it_flags.linked) (fun _ => rfl) (hcore hk)).symm)
    · change (s'.heap (.item k)).get_cas.toNat ≤ s'.cas_id.toNat
      rw [Item.core_congr Item.get_cas (fun _ => rfl) (hcore (Finset.ne_of_mem_erase hk)), hcas]
      exact h.issued k (Finset.mem_of_mem_erase hk)
    · obtain ⟨hist, hhist, rfl⟩ := Option.map_eq_some_iff.mp hhist'
      have hcounts := h.counts hist hhist b hb
      have herase : tally t.key (L.erase n) b + one (t.key n) b = tally t.key L b := tally_erase hn
      have hone : one (t.key n) b ≤ (hist b).toNat := by
        rw [hcounts, ← herase]
        exact Nat.le_add_left ..
      have hremoved := toNat_removed (t := t.with_store s') hb hone
      have hsame : tally (t.with_store s').key (L.erase n) b = tally t.key (L.erase n) b :=
        tally_congr fun k hk => size_key_core (hcore (Finset.ne_of_mem_erase hk))
      rw [hcounts, ← herase, ← hsame] at hremoved
      exact Nat.add_right_cancel hremoved
  · have hl : ¬ (t.store.heap (.item n)).it_flags.linked := fun hl => hn ((h.linked n).mpr hl)
    obtain ⟨-, rfl⟩ | ⟨hlinked, -⟩ := Store.do_item_unlink_cases hs
    · rw [if_neg hl, Finset.erase_eq_of_notMem hn]
      exact h
    · exact absurd hlinked hl

theorem unlink_store {p : Ptr} (h : t.do_item_unlink p = some t') : t.store.do_item_unlink p = some t'.store ∧
    t'.stats_sizes_cas_min = t.stats_sizes_cas_min ∧ t'.stats_sizes_hist.isSome = t.stats_sizes_hist.isSome := by
  obtain ⟨s', hs, h⟩ := Option.bind_eq_some_iff.mp h
  obtain rfl := Option.some.inj h
  split
  · rw [item_stats_sizes_remove, count_eq]
    exact ⟨hs, rfl, Option.isSome_map⟩
  · exact ⟨hs, rfl, rfl⟩

theorem link_store {p : Ptr} (h : t.do_item_link cfg p = some t') : t.store.do_item_link cfg.toSettings p = some t'.store ∧
    t'.stats_sizes_cas_min = t.stats_sizes_cas_min ∧ t'.stats_sizes_hist.isSome = t.stats_sizes_hist.isSome := by
  obtain ⟨s', hs, h⟩ := Option.bind_eq_some_iff.mp h
  obtain rfl := Option.some.inj h
  rw [item_stats_sizes_add, count_eq]
  exact ⟨hs, rfl, Option.isSome_map⟩

/-- `do_item_replace` in two steps. -/
theorem do_item_replace_cases {p q : Ptr} (h : t.do_item_replace cfg p q = some t') :
    ∃ t₁, t.do_item_unlink p = some t₁ ∧ t₁.do_item_link cfg q = some t' := by
  simp only [do_item_replace] at h
  split at h
  · cases h
  · exact Option.bind_eq_some_iff.mp h

theorem Tallied.replace (h : Tallied cfg t L) (hcas : t.store.cas_id.toNat + 1 < 2 ^ 64) (hroom : L.card + 1 < 2 ^ 32)
    (hreplace : t.do_item_replace cfg (.item n) (.item m) = some t') : Tallied cfg t' (insert m (L.erase n)) := by
  obtain ⟨t₁, hunlink, hlink⟩ := do_item_replace_cases hreplace
  have hle : (L.erase n).card ≤ L.card := Finset.card_le_card (Finset.erase_subset n L)
  have hid : t₁.store.cas_id = t.store.cas_id := Store.do_item_unlink_cas_id (unlink_store hunlink).1
  exact (h.unlink hunlink).link (hid ▸ hcas) (by omega) hlink

/-- What is replaced keeps its CAS, if someone else refers to it, and what takes its place gets a new one. -/
theorem replace_get_cas {p q : Ptr} (h : t.do_item_replace cfg p q = some t') (hne : p ≠ q)
    (hrefs : 2 ≤ (t.store.heap p).refcount) : (t'.store.heap p).get_cas = (t.store.heap p).get_cas ∧
      (t'.store.heap q).get_cas = (if (t'.store.heap q).it_flags.cas ∧ cfg.use_cas then t'.store.cas_id else 0) ∧
      t'.store.cas_id = (if cfg.use_cas then t.store.cas_id + 1 else t.store.cas_id) ∧
      t'.stats_sizes_cas_min = t.stats_sizes_cas_min ∧ t'.stats_sizes_hist.isSome = t.stats_sizes_hist.isSome := by
  obtain ⟨t₁, hunlink, hlink⟩ := do_item_replace_cases h
  obtain ⟨hunlink, hmin₁, hhist₁⟩ := unlink_store hunlink
  obtain ⟨hlink, hmin₂, hhist₂⟩ := link_store hlink
  have hkept := Item.core_congr Item.get_cas (fun _ => rfl) (Store.do_item_link_others hlink hne)
  refine ⟨hkept.trans (Store.do_item_unlink_get_cas hunlink hrefs), Store.do_item_link_get_cas hlink, ?_, hmin₂.trans hmin₁,
    hhist₂.trans hhist₁⟩
  rw [Store.do_item_link_cas_id hlink, Store.do_item_unlink_cas_id hunlink]

/-! ## Changes in place -/

/-- Between a removal and an addition an item may become any other. -/
theorem Tallied.recount (h : Tallied cfg t L) (hroom : L.card + 1 < 2 ^ 32) (hn : n ∈ L)
    (hother : ∀ k, k ≠ n → s'.heap (.item k) = t.store.heap (.item k)) (hl : (s'.heap (.item n)).it_flags.linked)
    (hissued : (s'.heap (.item n)).get_cas.toNat ≤ s'.cas_id.toNat) (hle : t.store.cas_id.toNat ≤ s'.cas_id.toNat) :
    Tallied cfg (((t.item_stats_sizes_remove (t.store.heap (.item n))).with_store s').item_stats_sizes_add
      (s'.heap (.item n))) L := by
  rw [item_stats_sizes_add, count_eq, item_stats_sizes_remove, count_eq]
  refine ⟨fun k => ?_, fun k hk => ?_, fun hsome => h.enabled (by simpa [with_store] using hsome), fun hist' hhist' b hb => ?_⟩
  · by_cases hk : k = n
    · subst hk
      exact iff_of_true hn hl
    · rw [h.linked, ← hother k hk]
      rfl
  · change (s'.heap (.item k)).get_cas.toNat ≤ s'.cas_id.toNat
    by_cases hkn : k = n
    · subst hkn
      exact hissued
    · rw [hother k hkn]
      exact (h.issued k hk).trans hle
  · obtain ⟨hist₁, hhist₁, rfl⟩ := Option.map_eq_some_iff.mp hhist'
    obtain ⟨hist, hhist, rfl⟩ := Option.map_eq_some_iff.mp hhist₁
    have hcounts := h.counts hist hhist b hb
    have herase : tally t.key (L.erase n) b + one (t.key n) b = tally t.key L b := tally_erase hn
    have hone : one (t.key n) b ≤ (hist b).toNat := by
      rw [hcounts, ← herase]
      exact Nat.le_add_left ..
    have hremoved : (t.counted (t.store.heap (.item n)) (· - 1) hist b).toNat + one (t.key n) b = (hist b).toNat :=
      toNat_removed hb hone
    have hfull := h.room hroom hhist hb
    have hadded : (t.counted (s'.heap (.item n)) (· + 1) (t.counted (t.store.heap (.item n)) (· - 1) hist) b).toNat =
        (t.counted (t.store.heap (.item n)) (· - 1) hist b).toNat + one ((t.with_store s').key n) b :=
      toNat_added hb (by omega)
    have hupdate : tally (t.with_store s').key L b + one (t.key n) b = tally t.key L b + one ((t.with_store s').key n) b :=
      tally_update hn fun k _ hk => by rw [key, key, with_store, hother k hk]
    refine hadded.trans ?_
    change _ = tally (t.with_store s').key L b
    omega

theorem Tallied.delta (h : Tallied cfg t L) (hcas : t.store.cas_id.toNat + 1 < 2 ^ 64) (hroom : L.card + 1 < 2 ^ 32)
    (hn : n ∈ L) (hdelta : t.replace_in_place cfg (.item n) = some t') : Tallied cfg t' L := by
  simp only [replace_in_place, remove_store, add_store, with_store] at hdelta
  obtain ⟨s', hupdate, hdelta⟩ := Option.bind_eq_some_iff.mp hdelta
  obtain rfl := Option.some.inj hdelta
  let s₁ := if cfg.use_cas then { t.store with cas_id := t.store.cas_id + 1 } else t.store
  have hheap : s₁.heap = t.store.heap := by
    simp only [s₁]
    split <;> rfl
  have hle : t.store.cas_id.toNat ≤ s₁.cas_id.toNat := by
    simp only [s₁]
    split
    · exact (next_cas hcas).symm ▸ Nat.le_succ _
    · exact le_rfl
  let s₂ := s₁.modify (.item n) fun i => i.set_cas (if cfg.use_cas then s₁.cas_id else 0)
  have hitem : s₂.heap (.item n) = (t.store.heap (.item n)).set_cas (if cfg.use_cas then s₁.cas_id else 0) := by
    rw [Store.modify_self, hheap]
  have hother (k : Nat) (hk : k ≠ n) : s₂.heap (.item k) = t.store.heap (.item k) := by
    rw [Store.modify_of_ne fun heq => hk (Ptr.item.inj heq), hheap]
  have hl : (s₂.heap (.item n)).it_flags.linked := by
    rw [hitem, Item.set_cas_flags]
    exact (h.linked n).mp hn
  have hissued : (s₂.heap (.item n)).get_cas.toNat ≤ s₂.cas_id.toNat := by
    rw [hitem, Item.get_cas_set_cas]
    split
    · split
      · exact le_rfl
      · exact Nat.zero_le _
    · exact Nat.zero_le _
  have hkept : s₂.Kept s' (.item n) := (Store.do_item_update_kept hupdate).1
  have hrecount := h.recount hroom hn hother hl hissued hle
  have hstore : (((t.item_stats_sizes_remove (t.store.heap (.item n))).with_store s₂).item_stats_sizes_add
      (s₂.heap (.item n))).store = s₂ := by simp [with_store]
  exact hrecount.quiet (hstore.symm ▸ .of_kept hkept) (by rw [hstore, hkept.rest])

/-! ## Replacements -/

theorem Tallied.not_linked (h : Tallied cfg t L) (hn : n ∉ L) : ¬ (t.store.heap (.item n)).it_flags.linked :=
  fun hl => hn ((h.linked n).mpr hl)

/-- The item that was replaced is not linked, and may be anything. -/
theorem Tallied.modify_replaced {f : Item → Item} (h : Tallied cfg t (insert m (L.erase n))) (hm : m ∉ L) (hn : n ∈ L)
    (hf : ¬ (f (t.store.heap (.item n))).it_flags.linked) :
    Tallied cfg (t.with_store (t.store.modify (.item n) f)) (insert m (L.erase n)) := by
  have hne : n ≠ m := fun heq => hm (heq ▸ hn)
  have hnot : n ∉ insert m (L.erase n) := by simp [hne]
  exact h.quiet (.modify (h.not_linked hnot) hf) le_rfl

theorem Tallied.delta_replace (h : Tallied cfg t L) (hcas : t.store.cas_id.toNat + 1 < 2 ^ 64) (hroom : L.card + 1 < 2 ^ 32)
    (hn : n ∈ L) (hm : m ∉ L) (hreplace : t.replace_item cfg (.item n) (.item m) = some t') :
    Tallied cfg t' (insert m (L.erase n)) := by
  obtain ⟨t₁, hreplaced, hreplace⟩ := Option.bind_eq_some_iff.mp hreplace
  obtain rfl := Option.some.inj hreplace
  have ht₁ := h.replace hcas hroom hreplaced
  have hne : n ≠ m := fun heq => hm (heq ▸ hn)
  have hnot : n ∉ insert m (L.erase n) := by simp [hne]
  exact ht₁.modify_replaced hm hn (by rw [Item.set_cas_flags]; exact ht₁.not_linked hnot)

theorem Tallied.move (h : Tallied cfg t L) (hcas : t.store.cas_id.toNat + 1 < 2 ^ 64) (hroom : L.card + 1 < 2 ^ 32)
    (hn : n ∈ L) (hm : m ∉ L) (hmove : t.rescue_item cfg (.item n) (.item m) = some t') :
    Tallied cfg t' (insert m (L.erase n)) := by
  obtain ⟨t₁, hreplaced, hmove⟩ := Option.bind_eq_some_iff.mp hmove
  obtain rfl := Option.some.inj hmove
  refine Tallied.modify_replaced (Tallied.replace (h.quiet (.modify (h.not_linked hm) ?_) le_rfl) hcas hroom hreplaced) hm hn ?_
  · exact Bool.false_ne_true
  · exact Bool.false_ne_true

/-- A header item is linked with a new CAS, and gets the old one then. -/
theorem Tallied.header (h : Tallied cfg t L) (hcas : t.store.cas_id.toNat + 1 < 2 ^ 64) (hroom : L.card + 1 < 2 ^ 32)
    (hn : n ∈ L) (hm : m ∉ L) (hwrite : t.replace_header cfg (.item n) (.item m) = some t') :
    ∃ t₂, Tallied cfg t₂ (insert m (L.erase n)) ∧
      t' = t₂.with_store (t₂.store.modify (.item m) fun i => i.set_cas (t.store.heap (.item n)).get_cas) ∧
      (t₂.store.heap (.item m)).get_cas =
        (if (t₂.store.heap (.item m)).it_flags.cas ∧ cfg.use_cas then t₂.store.cas_id else 0) ∧
      t.store.cas_id.toNat ≤ t₂.store.cas_id.toNat ∧ t₂.stats_sizes_cas_min = t.stats_sizes_cas_min ∧
      t₂.stats_sizes_hist.isSome = t.stats_sizes_hist.isSome := by
  simp only [replace_header] at hwrite
  split at hwrite
  · cases hwrite
  next hrefs =>
  obtain ⟨t₂, hreplaced, hwrite⟩ := Option.bind_eq_some_iff.mp hwrite
  obtain rfl := Option.some.inj hwrite
  have hne : Ptr.item n ≠ .item m := fun heq => hm (Ptr.item.inj heq ▸ hn)
  set t₁ := t.with_store (t.store.modify (.item m) fun i => { i with nbytes := (t.store.heap (.item n)).nbytes }) with ht₁
  have h₁ : Tallied cfg t₁ L := h.quiet (.modify (h.not_linked hm) (h.not_linked hm)) le_rfl
  have hold : t₁.store.heap (.item n) = t.store.heap (.item n) := by rw [ht₁, with_store, Store.modify_of_ne hne]
  obtain ⟨hcopied, hnew, hid, hmin, hhist⟩ := replace_get_cas hreplaced hne (by rw [hold]; exact UInt16.not_lt.mp hrefs)
  rw [hold] at hcopied
  have hle : t.store.cas_id.toNat ≤ t₂.store.cas_id.toNat := by
    rw [hid]
    split
    · exact (next_cas hcas).symm ▸ Nat.le_succ _
    · exact le_rfl
  exact ⟨t₂, h₁.replace hcas hroom hreplaced, by rw [hcopied], hnew, hle, hmin, hhist⟩

theorem Tallied.set_cas_linked {v : UInt64} (h : Tallied cfg t L) (k : Nat) :
    k ∈ L ↔ ((t.with_store (t.store.modify (.item m) fun i => i.set_cas v)).store.heap (.item k)).it_flags.linked := by
  rw [h.linked]
  by_cases hk : k = m
  · subst hk
    rw [with_store, Store.modify_self, Item.set_cas_flags]
  · rw [with_store, Store.modify_of_ne fun heq => hk (Ptr.item.inj heq)]

/-- The old CAS has to be counted as well. -/
theorem Tallied.storage_write (h : Tallied cfg t L) (hcas : t.store.cas_id.toNat + 1 < 2 ^ 64) (hroom : L.card + 1 < 2 ^ 32)
    (hn : n ∈ L) (hm : m ∉ L) (hwrite : t.replace_header cfg (.item n) (.item m) = some t')
    (hmin : t.stats_sizes_hist.isSome → t.stats_sizes_cas_min ≤ (t.store.heap (.item n)).get_cas) :
    Tallied cfg t' (insert m (L.erase n)) := by
  obtain ⟨t₂, h₂, rfl, hnew, hle, hmin₂, hhist₂⟩ := h.header hcas hroom hn hm hwrite
  have hissued : (t.store.heap (.item n)).get_cas.toNat ≤ t₂.store.cas_id.toNat := (h.issued n hn).trans hle
  refine ⟨h₂.set_cas_linked, fun k hk => ?_, h₂.enabled, fun hist hhist b hb => ?_⟩
  · change ((t₂.store.modify (.item m) fun i => i.set_cas (t.store.heap (.item n)).get_cas).heap (.item k)).get_cas.toNat ≤
      t₂.store.cas_id.toNat
    by_cases hkm : k = m
    · subst hkm
      rw [Store.modify_self, Item.get_cas_set_cas]
      split
      · exact hissued
      · exact Nat.zero_le _
    · rw [Store.modify_of_ne fun heq => hkm (Ptr.item.inj heq)]
      exact h₂.issued k hk
  · have hhist' : t₂.stats_sizes_hist = some hist := hhist
    have hsome : t₂.stats_sizes_hist.isSome := hhist' ▸ rfl
    have hold : t₂.stats_sizes_cas_min ≤ (t.store.heap (.item n)).get_cas := hmin₂ ▸ hmin (hhist₂ ▸ hsome)
    rw [h₂.counts hist hhist b hb]
    refine (tally_congr fun k hk => ?_).symm
    by_cases hkm : k = m
    · subst hkm
      rw [key, key, with_store, Store.modify_self]
      refine size_key_set_cas hold fun hflag => ?_
      rw [hnew, if_pos ⟨hflag, h₂.enabled hsome⟩]
      exact UInt64.le_trans hold (UInt64.le_iff_toNat_le.mpr hissued)
    · rw [key, key, with_store, Store.modify_of_ne fun heq => hkm (Ptr.item.inj heq)]

/-! ## Enabling -/

theorem enable_eq (calloc : Bool) : (t.item_stats_sizes_enable cfg calloc).1 =
    if cfg.use_cas ∧ t.stats_sizes_hist.isNone then t.item_stats_sizes_init cfg calloc else t := by
  rw [item_stats_sizes_enable]
  cases cfg.use_cas <;> cases t.stats_sizes_hist.isNone <;> simp only [Bool.not_true, Bool.not_false, Bool.false_eq_true, if_true,
    if_false, and_true, and_false]
  split <;> rfl

/-- Nothing is counted at first: every CAS is older. -/
theorem Tallied.enable (h : Tallied cfg t L) (hcas : t.store.cas_id.toNat + 1 < 2 ^ 64) (calloc : Bool) :
    Tallied cfg (t.item_stats_sizes_enable cfg calloc).1 L := by
  rw [enable_eq]
  split
  · next hinit =>
    obtain ⟨huse, hnone⟩ := hinit
    have hnone' : t.stats_sizes_hist.isSome = false := by simpa using hnone
    simp only [item_stats_sizes_init, hnone', huse, Bool.false_eq_true, if_false, if_true]
    refine ⟨h.linked, fun k hk => ?_, fun _ => huse, fun hist hhist b hb => ?_⟩
    · exact (h.issued k hk).trans ((next_cas hcas).symm ▸ Nat.le_succ _)
    · have hzero : hist = fun _ => 0 := by
        cases calloc with
        | true => exact (Option.some.inj hhist).symm
        | false => cases hhist
      rw [hzero, tally_none]
      · rfl
      · intro k hk
        refine if_neg (UInt64.not_le.mpr (UInt64.lt_iff_toNat_lt.mpr ?_))
        rw [next_cas hcas]
        exact Nat.lt_succ_of_le (h.issued k hk)
  · exact h

/-! ## Runs -/

/-- There is room in the counters, and what moves to external storage while the histogram is kept is counted in it. -/
structure Steady (t : SizesStore) (e : SizesEvent) : Prop where
  cas_id : t.store.cas_id.toNat + 1 < 2 ^ 64
  room : ∀ L : Finset Nat, (∀ n ∈ L, (t.store.heap (.item n)).it_flags.linked) → L.card + 1 < 2 ^ 32
  counted : ∀ n m, e = .storage_write n m → t.stats_sizes_hist.isSome →
    t.stats_sizes_cas_min ≤ (t.store.heap (.item n)).get_cas

theorem Tallied.step {e : SizesEvent} (h : Tallied cfg t L) (hstep : Step cfg t e t') (hok : t.Steady e) :
    ∃ L', Tallied cfg t' L' := by
  have hroom := hok.room L fun n hn => (h.linked n).mp hn
  have hmem {n : Nat} (hl : (t.store.heap (.item n)).it_flags.linked = true) : n ∈ L := (h.linked n).mpr hl
  have hnot {n : Nat} (hl : (!(t.store.heap (.item n)).it_flags.linked) = true) : n ∉ L := fun hn => by
    rw [(h.linked n).mp hn] at hl
    cases hl
  cases e with
  | link n => exact ⟨_, h.link hok.cas_id hroom hstep⟩
  | unlink n => exact ⟨_, h.unlink hstep⟩
  | replace n m => exact ⟨_, h.replace hok.cas_id hroom hstep⟩
  | delta n => exact ⟨_, h.delta hok.cas_id hroom (hmem hstep.1) hstep.2⟩
  | delta_replace n m => exact ⟨_, h.delta_replace hok.cas_id hroom (hmem hstep.1) (hnot hstep.2.1) hstep.2.2⟩
  | storage_write n m =>
      exact ⟨_, h.storage_write hok.cas_id hroom (hmem hstep.1) (hnot hstep.2.1) hstep.2.2 (hok.counted n m rfl)⟩
  | move n m => exact ⟨_, h.move hok.cas_id hroom (hmem hstep.1) (hnot hstep.2.1) hstep.2.2⟩
  | enable calloc =>
      obtain rfl := hstep
      exact ⟨_, h.enable hok.cas_id calloc⟩
  | disable =>
      obtain rfl := hstep
      exact ⟨L, h.linked, h.issued, nofun, nofun⟩
  | rest =>
      obtain ⟨hquiet, ht'⟩ := hstep
      refine ⟨L, ht' ▸ h.quiet hquiet ?_⟩
      rcases hquiet.cas_id with hid | hid
      · rw [hid]
      · rw [hid, next_cas hok.cas_id]
        exact Nat.le_succ _

theorem tallied_empty (cfg : SizesSettings) : Tallied cfg empty ∅ where
  linked n := iff_of_false (Finset.notMem_empty n) Bool.false_ne_true
  issued n hn := absurd hn (Finset.notMem_empty n)
  enabled := nofun
  counts := nofun

/-- Each bucket has the number of the linked items of its size whose CAS is not older than the histogram. -/
def Accurate (t : SizesStore) : Prop :=
  ∃ L : Finset Nat, (∀ n, n ∈ L ↔ (t.store.heap (.item n)).it_flags.linked) ∧
    ∀ hist, t.stats_sizes_hist = some hist → ∀ b, b < t.stats_sizes_buckets →
      (hist b).toNat = (L.filter fun n =>
        t.stats_sizes_cas_min ≤ (t.store.heap (.item n)).get_cas ∧ (t.store.heap (.item n)).sizes_bucket = b).card

theorem Tallied.accurate (h : Tallied cfg t L) : t.Accurate := by
  refine ⟨L, h.linked, fun hist hhist b hb => ?_⟩
  rw [h.counts hist hhist b hb, tally]
  simp only [key, size_key_eq]

/-- The histogram is accurate in every run whose steps are steady. -/
theorem sizes_accurate {es : List SizesEvent} (h : Run (fun t e t' => Step cfg t e t' ∧ t.Steady e) empty es t) : t.Accurate := by
  obtain ⟨L, hL⟩ := h.invariant (P := fun t => ∃ L, Tallied cfg t L)
    (fun hs hstep => hs.elim fun L hL => hL.step hstep.1 hstep.2) ⟨∅, tallied_empty cfg⟩
  exact hL.accurate

/-- The condition on a move to external storage cannot be left out. -/
theorem Tallied.overcounted (h : Tallied cfg t L) (hcas : t.store.cas_id.toNat + 1 < 2 ^ 64) (hroom : L.card + 1 < 2 ^ 32)
    (hm : m ∉ L) (hn : n ∈ L) (hwrite : t.replace_header cfg (.item n) (.item m) = some t') (hhist : t.stats_sizes_hist.isSome)
    (hold : (t.store.heap (.item n)).get_cas < t.stats_sizes_cas_min) (hmin : t.stats_sizes_cas_min ≤ t.store.cas_id)
    (hflag : (t'.store.heap (.item m)).it_flags.cas) (hb : (t'.store.heap (.item m)).sizes_bucket < t'.stats_sizes_buckets) :
    ¬ t'.Accurate := by
  obtain ⟨t₂, h₂, rfl, hnew, hle, hmin₂, hhist₂⟩ := h.header hcas hroom hn hm hwrite
  obtain ⟨hist, hsome⟩ := Option.isSome_iff_exists.mp (hhist₂.trans hhist)
  set v := (t.store.heap (.item n)).get_cas
  set t₃ := t₂.with_store (t₂.store.modify (.item m) fun i => i.set_cas v) with ht₃
  have hitem : t₃.store.heap (.item m) = (t₂.store.heap (.item m)).set_cas v := by rw [ht₃, with_store, Store.modify_self]
  rw [hitem, Item.set_cas_flags] at hflag
  rintro ⟨L', hlinked, hcounts⟩
  have hL : L' = insert m (L.erase n) := Finset.ext fun k => (hlinked k).trans (h₂.set_cas_linked k).symm
  have hcount : (hist (t₃.store.heap (.item m)).sizes_bucket).toNat =
      tally t₃.key (insert m (L.erase n)) (t₃.store.heap (.item m)).sizes_bucket := by
    rw [hcounts hist hsome _ hb, hL, tally]
    simp only [key, size_key_eq]
  rw [h₂.counts hist hsome _ hb] at hcount
  have hbucket : (t₃.store.heap (.item m)).sizes_bucket = (t₂.store.heap (.item m)).sizes_bucket := by
    rw [hitem, Item.sizes_bucket, Item.set_cas_ntotal, Item.sizes_bucket]
  have hcounted : t₂.key m = some (t₃.store.heap (.item m)).sizes_bucket := by
    refine size_key_eq.mpr ⟨?_, hbucket.symm⟩
    rw [hnew, if_pos ⟨hflag, h₂.enabled (hhist₂.trans hhist)⟩, hmin₂]
    exact UInt64.le_trans hmin (UInt64.le_iff_toNat_le.mpr hle)
  have hlost : t₃.key m = none := by
    refine if_neg (UInt64.not_le.mpr ?_)
    rw [hitem, Item.get_cas_set_cas, if_pos hflag]
    exact hmin₂ ▸ hold
  have hupdate : tally t₃.key (insert m (L.erase n)) (t₃.store.heap (.item m)).sizes_bucket +
      one (t₂.key m) (t₃.store.heap (.item m)).sizes_bucket =
      tally t₂.key (insert m (L.erase n)) (t₃.store.heap (.item m)).sizes_bucket +
      one (t₃.key m) (t₃.store.heap (.item m)).sizes_bucket :=
    tally_update (Finset.mem_insert_self m _) fun k _ hk => by
      rw [key, key, ht₃, with_store, Store.modify_of_ne fun heq => hk (Ptr.item.inj heq)]
  rw [hcounted, hlost, one, one, if_pos rfl, if_neg (by simp)] at hupdate
  omega

/-! ## A run -/

def sizes_settings : SizesSettings := ⟨Store.settings, 1048576⟩

/-- An item that was allocated and is not linked. -/
def uploaded (nbytes : Nat) (hdr : Bool) : Item :=
  ⟨none, none, 0, 0, nbytes, 1, 0, { Flags.zero with cas := true, hdr := hdr }, 1, [97], 0⟩

/-- An item is uploaded. -/
def upload (t : SizesStore) (n : Nat) (i : Item) : SizesStore := t.with_store (t.store.modify (.item n) fun _ => i)

theorem Tallied.upload {i : Item} (h : Tallied cfg t L) (hn : n ∉ L) (hi : ¬ i.it_flags.linked) :
    Step cfg t .rest (t.upload n i) ∧ Tallied cfg (t.upload n i) L := by
  have hquiet : t.store.Quiet (t.upload n i).store := .modify (f := fun _ => i) (h.not_linked hn) hi
  exact ⟨⟨hquiet, rfl⟩, h.quiet hquiet le_rfl⟩

theorem Tallied.steady {e : SizesEvent} (h : Tallied cfg t L) (hcas : t.store.cas_id.toNat + 1 < 2 ^ 64)
    (hroom : L.card + 1 < 2 ^ 32) (he : ∀ n m, e ≠ .storage_write n m) : t.Steady e where
  cas_id := hcas
  room _ hL' := (Nat.add_le_add_right (Finset.card_le_card fun n hn => (h.linked n).mpr (hL' n hn)) 1).trans_lt hroom
  counted n m hnm := absurd hnm (he n m)

/-- The histogram is enabled, and then an item is linked. -/
theorem sizes_accurate_witness : ∃ (t : SizesStore) (hist : Int → UInt32), t.Accurate ∧ t.stats_sizes_hist = some hist ∧ hist 2 = 1 := by
  let t₀ := (empty.item_stats_sizes_enable sizes_settings true).1
  have h₀ : Tallied sizes_settings t₀ ∅ := (tallied_empty sizes_settings).enable (by decide +kernel) true
  obtain ⟨hrest, h₁⟩ := h₀.upload (n := 0) (i := uploaded 3 false) (Finset.notMem_empty 0) Bool.false_ne_true
  have hlinked : ((t₀.upload 0 (uploaded 3 false)).do_item_link sizes_settings (.item 0)).isSome := by decide +kernel
  have hcounted : (((t₀.upload 0 (uploaded 3 false)).do_item_link sizes_settings (.item 0)).bind
      (·.stats_sizes_hist)).map (· 2) = some 1 := by decide +kernel
  obtain ⟨t₂, hlink⟩ := Option.isSome_iff_exists.mp hlinked
  rw [hlink] at hcounted
  obtain ⟨hist, hhist, hone⟩ := Option.map_eq_some_iff.mp hcounted
  have hrun : Run (fun t e t' => Step sizes_settings t e t' ∧ t.Steady e) empty [.enable true, .rest, .link 0] t₂ := by
    refine .cons ⟨rfl, ?_⟩ (.cons ⟨hrest, ?_⟩ (.cons ⟨hlink, ?_⟩ (.nil t₂)))
    · exact (tallied_empty sizes_settings).steady (by decide +kernel) (by decide +kernel) nofun
    · exact h₀.steady (by decide +kernel) (by decide +kernel) nofun
    · exact h₁.steady (by decide +kernel) (by decide +kernel) nofun
  exact ⟨t₂, hist, sizes_accurate hrun, hhist, hone⟩

theorem link_uploaded : ((empty.upload 0 (uploaded 3 false)).do_item_link sizes_settings (.item 0)).isSome := by decide +kernel

/-- An item was linked, the histogram was enabled after it, and a header item was allocated. -/
def before_move : SizesStore :=
  ((Option.get _ link_uploaded).item_stats_sizes_enable sizes_settings true).1.upload 1 (uploaded sizeof_item_hdr true)

theorem move_header : (before_move.replace_header sizes_settings (.item 0) (.item 1)).isSome := by decide +kernel

/-- Then the item moves to external storage: its header item is counted, but its CAS is older than the histogram. -/
theorem sizes_overcounted : ¬ ∀ (cfg : SizesSettings) (t : SizesStore) (es : List SizesEvent), Run (Step cfg) empty es t →
    t.Accurate := by
  intro hall
  obtain ⟨hrest₁, h₁⟩ := (tallied_empty sizes_settings).upload (n := 0) (i := uploaded 3 false) (Finset.notMem_empty 0)
    Bool.false_ne_true
  have hlink := Option.eq_some_of_isSome link_uploaded
  have h₂ := h₁.link (by decide +kernel) (by decide +kernel) hlink
  have h₃ := h₂.enable (by decide +kernel) true
  obtain ⟨hrest₄, h₄⟩ := h₃.upload (n := 1) (i := uploaded sizeof_item_hdr true) (by decide) Bool.false_ne_true
  have hwrite := Option.eq_some_of_isSome move_header
  have hstep : Step sizes_settings before_move (.storage_write 0 1) (Option.get _ move_header) :=
    ⟨by decide +kernel, by decide +kernel, hwrite⟩
  have hrun : Run (Step sizes_settings) empty [.rest, .link 0, .enable true, .rest, .storage_write 0 1] _ :=
    .cons hrest₁ (.cons hlink (.cons rfl (.cons hrest₄ (.cons hstep (.nil _)))))
  refine absurd (hall _ _ _ hrun) (Tallied.overcounted (t := before_move) h₄ ?_ ?_ ?_ ?_ hwrite ?_ ?_ ?_ ?_ ?_)
  all_goals decide +kernel

end SizesStore

end Memcached.MemoryLru

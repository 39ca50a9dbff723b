import Memcached.Lib.Run
import Memcached.Thread.PrefixStats

/-!
# The table of prefix statistics is a map

From prefixes to the numbers of what was recorded for them since the table was last cleared.
-/

namespace Memcached.Thread

open Transition

/-! ## The map -/

/-- The text before the first delimiter, if the key has one. -/
def prefix_of (cfg : PrefixSettings) (key : List UInt8) : Option (List UInt8) :=
  let text := key.takeWhile (· ≠ 0)
  if cfg.prefix_delimiter ∈ text then some (text.takeWhile (· ≠ cfg.prefix_delimiter)) else none

/-- What was recorded for which prefix, the last first. -/
abbrev PrefixLog := List (List UInt8 × PrefixAccess)

/-- For a new prefix for which there is no memory, nothing is recorded. -/
def PrefixLog.record (cfg : PrefixSettings) (log : PrefixLog) : PrefixEvent → PrefixLog
  | .record access key allocated =>
      match prefix_of cfg key with
      | none => log
      | some pre => if allocated ∨ pre ∈ log.map Prod.fst then (pre, access) :: log else log
  | .stats_prefix_clear => []

/-- The numbers of accesses with a prefix. -/
def PrefixLog.count (log : PrefixLog) (pre : List UInt8) (is : PrefixAccess → Bool) : Nat :=
  log.countP fun e => e.1 = pre ∧ is e.2

/-- The numbers of accesses, as an entry. -/
def PrefixLog.counts (log : PrefixLog) (pre : List UInt8) : PrefixStats where
  prefix_str := pre
  num_gets := .ofNat (log.count pre fun a => a = .get true ∨ a = .get false)
  num_sets := .ofNat (log.count pre (· = .set))
  num_deletes := .ofNat (log.count pre (· = .delete))
  num_hits := .ofNat (log.count pre (· = .get true))

/-- The entry that a prefix should have. -/
def PrefixLog.entry (log : PrefixLog) (pre : List UInt8) : Option PrefixStats :=
  if pre ∈ log.map Prod.fst then some (log.counts pre) else none

/-- The counters of an entry are the numbers themselves, as far as 64 bits hold them. -/
def PrefixLog.Counts (log : PrefixLog) (pfs : PrefixStats) : Prop :=
  pfs.num_gets.toNat = log.count pfs.prefix_str (fun a => a = .get true ∨ a = .get false) ∧
    pfs.num_sets.toNat = log.count pfs.prefix_str (· = .set) ∧
    pfs.num_deletes.toNat = log.count pfs.prefix_str (· = .delete) ∧
    pfs.num_hits.toNat = log.count pfs.prefix_str (· = .get true)

def PrefixTable.entries (t : PrefixTable) : List PrefixStats := Buckets.entries PREFIX_HASH_SIZE t.prefix_stats

/-- Each prefix that was recorded has one entry, with its numbers modulo 2^64, and no other has any; with fewer than 2^64
accesses since the last clear these are the numbers; and the totals are right. -/
structure PrefixTable.Tallies (t : PrefixTable) (log : PrefixLog) : Prop where
  entry : ∀ pre, t.entries.filter (·.prefix_str = pre) = (log.entry pre).toList
  counts : log.length < 2 ^ 64 → ∀ pfs ∈ t.entries, log.Counts pfs
  num_prefixes : t.num_prefixes = t.entries.length
  total_prefix_size : t.total_prefix_size = (t.entries.map (·.prefix_str.length)).sum

/-- The chain of a prefix. -/
def PrefixTable.chain (cfg : PrefixSettings) (t : PrefixTable) (pre : List UInt8) : List PrefixStats :=
  t.prefix_stats ((cfg.hash pre).toNat % PREFIX_HASH_SIZE)

/-- No entry in the slot of the key's prefix has a prefix that properly begins with it; and with a new entry the totals stay
`int`s. -/
def PrefixTable.Apart (cfg : PrefixSettings) (t : PrefixTable) : PrefixEvent → Prop
  | .record _ key allocated => ∀ pre ∈ prefix_of cfg key,
      (∀ pfs ∈ t.chain cfg pre, pre <+: pfs.prefix_str → pfs.prefix_str = pre) ∧
        ((∀ pfs ∈ t.chain cfg pre, pfs.prefix_str ≠ pre) → allocated = true →
          t.num_prefixes < INT_MAX ∧ t.total_prefix_size + pre.length ≤ INT_MAX)
  | .stats_prefix_clear => True

instance (cfg : PrefixSettings) (t : PrefixTable) : (e : PrefixEvent) → Decidable (t.Apart cfg e)
  | .record _ key allocated =>
      inferInstanceAs (Decidable (∀ pre ∈ prefix_of cfg key,
        (∀ pfs ∈ t.chain cfg pre, pre <+: pfs.prefix_str → pfs.prefix_str = pre) ∧
          ((∀ pfs ∈ t.chain cfg pre, pfs.prefix_str ≠ pre) → allocated = true →
            t.num_prefixes < INT_MAX ∧ t.total_prefix_size + pre.length ≤ INT_MAX)))
  | .stats_prefix_clear => isTrue trivial

section
variable {cfg : PrefixSettings} {t : PrefixTable} {log : PrefixLog} {key pre : List UInt8} {allocated : Bool}

/-! ## Prefixes -/

theorem prefix_of_cons {b : UInt8} (hnul : b ≠ 0) (hdelim : b ≠ cfg.prefix_delimiter) :
    prefix_of cfg (b :: key) = (prefix_of cfg key).map (b :: ·) := by
  have htext : (b :: key).takeWhile (· ≠ 0) = b :: key.takeWhile (· ≠ 0) := by simp [hnul]
  simp only [prefix_of, htext, List.mem_cons, Ne.symm hdelim, false_or]
  split
  · simp [hdelim]
  · rfl

/-- The loop finds the end of the prefix. -/
theorem prefix_length_eq : PrefixTable.prefix_length cfg key = (prefix_of cfg key).map List.length := by
  induction key with
  | nil => simp [PrefixTable.prefix_length, prefix_of]
  | cons b key ih =>
      rw [PrefixTable.prefix_length]
      split
      · next hnul => simp [prefix_of, hnul]
      next hnul =>
      split
      · next hdelim => simp [prefix_of, hdelim ▸ hnul, hdelim]
      · next hdelim => simp [prefix_of_cons hnul hdelim, ih, Function.comp_def]

theorem take_prefix_of (h : pre ∈ prefix_of cfg key) : key.take pre.length = pre ∧ pre.length ≤ key.length := by
  have hpre : pre <+: key := by
    simp only [prefix_of, Option.mem_def, Option.ite_none_right_eq_some, Option.some.injEq] at h
    rw [← h.2]
    exact (List.takeWhile_prefix _).trans (List.takeWhile_prefix _)
  exact ⟨(List.prefix_iff_eq_take.mp hpre).symm, hpre.length_le⟩

/-- The texts agree as far as `strncmp` looks. -/
theorem strncmp_eq_iff {s₁ s₂ : List UInt8} {n : Nat} (hn : n ≤ s₂.length) :
    strncmp_eq s₁ s₂ n = true ↔ s₂.take n <+: s₁ := by
  induction n generalizing s₁ s₂ with
  | zero => simp [strncmp_eq]
  | succ n ih =>
      cases s₂ with
      | nil => simp at hn
      | cons b₂ s₂ =>
          cases s₁ with
          | nil => simp [strncmp_eq]
          | cons b₁ s₁ =>
              simp only [strncmp_eq, decide_eq_true_eq, List.take_succ_cons, List.cons_prefix_cons]
              rw [ih (by simpa using hn), eq_comm]

/-! ## Steps -/

/-- The slot of a prefix. -/
def PrefixSettings.slot (cfg : PrefixSettings) (pre : List UInt8) : Nat := (cfg.hash pre).toNat % PREFIX_HASH_SIZE

theorem slot_lt : cfg.slot pre < PREFIX_HASH_SIZE := Nat.mod_lt _ (by decide)

/-- The chains hold what was recorded, and the totals are right. -/
structure PrefixTable.Sound (cfg : PrefixSettings) (t : PrefixTable) (log : PrefixLog) : Prop where
  map : Buckets.Represents PrefixStats.prefix_str cfg.slot t.prefix_stats log.entry
  num_prefixes : t.num_prefixes = t.entries.length
  total_prefix_size : t.total_prefix_size = (t.entries.map (·.prefix_str.length)).sum

theorem PrefixTable.Sound.filter (h : t.Sound cfg log) (pre : List UInt8) :
    t.entries.filter (·.prefix_str = pre) = (log.entry pre).toList :=
  h.map.entries slot_lt

theorem count_le {is : PrefixAccess → Bool} : log.count pre is ≤ log.length := List.countP_le_length

/-- Numbers of less than 2^64 accesses are what the counters hold. -/
theorem counts_counts (hlen : log.length < 2 ^ 64) : log.Counts (log.counts pre) :=
  have hcount (is : PrefixAccess → Bool) : (UInt64.ofNat (log.count pre is)).toNat = log.count pre is :=
    UInt64.toNat_ofNat_of_lt' (count_le.trans_lt hlen)
  ⟨hcount _, hcount _, hcount _, hcount _⟩

theorem PrefixTable.Sound.counts (h : t.Sound cfg log) (hlen : log.length < 2 ^ 64) {pfs : PrefixStats}
    (hpfs : pfs ∈ t.entries) : log.Counts pfs := by
  have hmem : pfs ∈ t.entries.filter (·.prefix_str = pfs.prefix_str) := by simpa using hpfs
  rw [h.filter, Option.mem_toList, PrefixLog.entry, Option.ite_none_right_eq_some, Option.some.injEq] at hmem
  have hcounts : log.Counts (log.counts pfs.prefix_str) := counts_counts hlen
  rwa [hmem.2] at hcounts

theorem PrefixTable.Sound.tallies (h : t.Sound cfg log) : t.Tallies log where
  entry := h.filter
  counts := fun hlen _ hpfs => h.counts hlen hpfs
  num_prefixes := h.num_prefixes
  total_prefix_size := h.total_prefix_size

theorem sound_clear : PrefixTable.clear.Sound cfg [] where
  map := Buckets.represents_empty
  num_prefixes := by simp [PrefixTable.clear, PrefixTable.entries, Buckets.entries]
  total_prefix_size := by simp [PrefixTable.clear, PrefixTable.entries, Buckets.entries, List.flatMap_eq_nil_iff.mpr]

/-- What an access does to the entry of its prefix. -/
def PrefixAccess.apply : PrefixAccess → PrefixStats → PrefixStats
  | .get is_hit, pfs =>
      { pfs with num_gets := pfs.num_gets + 1, num_hits := if is_hit then pfs.num_hits + 1 else pfs.num_hits }
  | .set, pfs => { pfs with num_sets := pfs.num_sets + 1 }
  | .delete, pfs => { pfs with num_deletes := pfs.num_deletes + 1 }

theorem apply_prefix_str (access : PrefixAccess) (pfs : PrefixStats) :
    (access.apply pfs).prefix_str = pfs.prefix_str := by
  cases access <;> rfl

theorem step_record (access : PrefixAccess) :
    t.step cfg (.record access key allocated) = t.stats_prefix_record cfg key allocated access.apply := by
  cases access <;> rfl

theorem count_zero {is : PrefixAccess → Bool} (h : pre ∉ log.map Prod.fst) : log.count pre is = 0 := by
  refine List.countP_eq_zero.mpr fun e he => ?_
  have hne : e.1 ≠ pre := fun heq => h (heq ▸ List.mem_map_of_mem he)
  simp [hne]

theorem entry_getD : (log.entry pre).getD ⟨pre, 0, 0, 0, 0⟩ = log.counts pre := by
  rw [PrefixLog.entry]
  split
  · rfl
  · next h => simp [PrefixLog.counts, count_zero h]

theorem count_cons {access : PrefixAccess} {is : PrefixAccess → Bool} {q : List UInt8} :
    PrefixLog.count ((pre, access) :: log) q is = log.count q is + if pre = q ∧ is access then 1 else 0 := by
  simp [PrefixLog.count, List.countP_cons]

theorem counts_cons (access : PrefixAccess) :
    PrefixLog.counts ((pre, access) :: log) pre = access.apply (log.counts pre) := by
  cases access with
  | get is_hit => cases is_hit <;> simp [PrefixLog.counts, PrefixAccess.apply, count_cons]
  | set => simp [PrefixLog.counts, PrefixAccess.apply, count_cons]
  | delete => simp [PrefixLog.counts, PrefixAccess.apply, count_cons]

theorem entry_cons (access : PrefixAccess) :
    PrefixLog.entry ((pre, access) :: log) = Function.update log.entry pre
      (some (access.apply ((log.entry pre).getD ⟨pre, 0, 0, 0, 0⟩))) := by
  funext q
  by_cases hq : q = pre
  · subst hq
    rw [Function.update_self, entry_getD, ← counts_cons, PrefixLog.entry, if_pos (by simp)]
  · rw [Function.update_of_ne hq]
    simp only [PrefixLog.entry, PrefixLog.counts, List.map_cons, List.mem_cons, hq, false_or, count_cons, Ne.symm hq,
      false_and, if_false, Nat.add_zero]

/-- The first entry of its chain that begins with a prefix. -/
def PrefixTable.first (cfg : PrefixSettings) (t : PrefixTable) (pre : List UInt8) : Option PrefixStats :=
  (t.chain cfg pre).find? (pre <+: ·.prefix_str)

/-- What `stats_prefix_find` finds or makes. -/
theorem stats_prefix_find_cases :
    (prefix_of cfg key = none ∧ t.stats_prefix_find cfg key allocated = (t, none)) ∨
      ∃ pre, prefix_of cfg key = some pre ∧
        ((∃ i pfs, (t.chain cfg pre)[i]? = some pfs ∧ t.first cfg pre = some pfs ∧
            t.stats_prefix_find cfg key allocated = (t, some (cfg.slot pre, i))) ∨
          t.first cfg pre = none ∧ t.stats_prefix_find cfg key allocated =
            if allocated then (t.insert (cfg.slot pre) pre, some (cfg.slot pre, 0)) else (t, none)) := by
  cases hpre : prefix_of cfg key with
  | none => exact .inl ⟨rfl, by simp [PrefixTable.stats_prefix_find, prefix_length_eq, hpre]⟩
  | some pre =>
      obtain ⟨htake, hlen⟩ := take_prefix_of hpre
      refine .inr ⟨pre, rfl, ?_⟩
      have hfound : (t.chain cfg pre).findIdx? (fun pfs => strncmp_eq pfs.prefix_str key pre.length) =
          (t.chain cfg pre).findIdx? (pre <+: ·.prefix_str) := by
        congr 1
        funext pfs
        rw [Bool.eq_iff_iff, strncmp_eq_iff hlen, htake, decide_eq_true_iff]
      simp only [PrefixTable.stats_prefix_find, prefix_length_eq, hpre, Option.map_some, htake]
      rw [PrefixTable.chain] at hfound
      rw [hfound]
      split
      · next i hfind =>
        obtain ⟨hi, hbegins, hfirst⟩ := List.findIdx?_eq_some_iff_getElem.mp hfind
        refine .inl ⟨i, _, List.getElem?_eq_getElem hi, ?_, rfl⟩
        refine List.find?_eq_some_iff_getElem.mpr ⟨hbegins, i, hi, rfl, fun j hj => ?_⟩
        have hnot := hfirst j hj
        rw [Bool.not_eq_true] at hnot
        rw [Bool.not_eq_true']
        exact hnot
      · next hfind =>
        have hnot : ∀ pfs ∈ t.chain cfg pre, ¬ decide (pre <+: pfs.prefix_str) = true :=
          fun pfs hmem => by simpa using List.findIdx?_eq_none_iff.mp hfind pfs hmem
        exact .inr ⟨List.find?_eq_none.mpr hnot, rfl⟩

theorem map_modify {α β : Type} {f : α → α} {g : α → β} (h : ∀ a, g (f a) = g a) (l : List α) (i : Nat) :
    (l.modify i f).map g = l.map g := by
  induction l generalizing i with
  | nil => simp
  | cons a l ih =>
      cases i with
      | zero => simp [h]
      | succ i => simp [ih]

/-- The table with the new entry of a prefix, to which the access is then counted. -/
def PrefixTable.enter (t : PrefixTable) (hashval : Nat) (pre : List UInt8) (access : PrefixAccess) : PrefixTable :=
  { t.insert hashval pre with
    prefix_stats := Function.update (t.insert hashval pre).prefix_stats hashval
      (((t.insert hashval pre).prefix_stats hashval).modify 0 access.apply) }

/-- The table with an entry changed in place. -/
def PrefixTable.change (t : PrefixTable) (hashval i : Nat) (access : PrefixAccess) : PrefixTable :=
  { t with prefix_stats := Function.update t.prefix_stats hashval ((t.prefix_stats hashval).modify i access.apply) }

theorem enter_prefix_stats (hashval : Nat) (access : PrefixAccess) : (t.enter hashval pre access).prefix_stats =
    Function.update t.prefix_stats hashval (access.apply ⟨pre, 0, 0, 0, 0⟩ :: t.prefix_stats hashval) := by
  simp [PrefixTable.enter, PrefixTable.insert]

/-- What the prefixes of the entries sum up to in some way. -/
def PrefixTable.weigh (t : PrefixTable) (g : List UInt8 → Nat) : Nat := (t.entries.map fun a => g a.prefix_str).sum

theorem weigh_one : t.weigh (fun _ => 1) = t.entries.length := by
  simp [PrefixTable.weigh]

theorem weigh_change (g : List UInt8 → Nat) {hashval i : Nat} (hlt : hashval < PREFIX_HASH_SIZE)
    (access : PrefixAccess) : (t.change hashval i access).weigh g = t.weigh g := by
  have hupdate := Buckets.sum_entries_update (t := t.prefix_stats)
    (l := (t.prefix_stats hashval).modify i access.apply) (fun a => g a.prefix_str) hlt
  have hstr (a : PrefixStats) : g (access.apply a).prefix_str = g a.prefix_str := by rw [apply_prefix_str]
  rw [map_modify hstr] at hupdate
  exact Nat.add_right_cancel hupdate

theorem weigh_enter (g : List UInt8 → Nat) {hashval : Nat} (hlt : hashval < PREFIX_HASH_SIZE) (access : PrefixAccess) :
    (t.enter hashval pre access).weigh g = t.weigh g + g pre := by
  have hupdate := Buckets.sum_entries_update (t := t.prefix_stats)
    (l := access.apply ⟨pre, 0, 0, 0, 0⟩ :: t.prefix_stats hashval) (fun a => g a.prefix_str) hlt
  simp only [List.map_cons, List.sum_cons, apply_prefix_str] at hupdate
  rw [PrefixTable.weigh, PrefixTable.entries, enter_prefix_stats, PrefixTable.weigh, PrefixTable.entries]
  omega

/-- The table after an entry is changed in place. -/
theorem PrefixTable.Sound.change {pfs : PrefixStats} {i : Nat} (h : t.Sound cfg log) (access : PrefixAccess)
    (hi : (t.chain cfg pre)[i]? = some pfs) (hpfs : pfs.prefix_str = pre) :
    (t.change (cfg.slot pre) i access).Sound cfg ((pre, access) :: log) := by
  subst hpfs
  have hentry : log.entry pfs.prefix_str = some pfs := (h.map.mem.mp (List.mem_of_getElem? hi)).2
  refine ⟨?_, ?_, ?_⟩
  · rw [entry_cons, hentry]
    exact h.map.modify (apply_prefix_str access) hi
  · rw [← weigh_one, weigh_change _ slot_lt, weigh_one]
    exact h.num_prefixes
  · exact h.total_prefix_size.trans (congrArg Nat.cast (weigh_change List.length slot_lt access).symm)

theorem PrefixTable.Sound.entry_none (h : t.Sound cfg log) (hnew : ∀ pfs ∈ t.chain cfg pre, pfs.prefix_str ≠ pre) :
    log.entry pre = none := by
  cases hentry : log.entry pre with
  | none => rfl
  | some pfs =>
      obtain rfl : pfs.prefix_str = pre := by
        rw [PrefixLog.entry, Option.ite_none_right_eq_some, Option.some.injEq] at hentry
        rw [← hentry.2]
        rfl
      exact absurd rfl (hnew pfs (h.map.mem.mpr ⟨rfl, hentry⟩))

/-- The table after a new entry is made and changed. -/
theorem PrefixTable.Sound.enter (h : t.Sound cfg log) (access : PrefixAccess)
    (hnew : ∀ pfs ∈ t.chain cfg pre, pfs.prefix_str ≠ pre) (hnum : t.num_prefixes < INT_MAX)
    (hsize : t.total_prefix_size + pre.length ≤ INT_MAX) :
    (t.enter (cfg.slot pre) pre access).Sound cfg ((pre, access) :: log) := by
  have hmax : INT_MAX = 2 ^ 31 - 1 := rfl
  have hstr := apply_prefix_str access ⟨pre, 0, 0, 0, 0⟩
  refine ⟨?_, ?_, ?_⟩
  · rw [enter_prefix_stats, entry_cons, h.entry_none hnew, Option.getD_none]
    have hcons := h.map.cons (a := access.apply ⟨pre, 0, 0, 0, 0⟩) (by rw [hstr, h.entry_none hnew])
    rwa [hstr] at hcons
  · have hcount := h.num_prefixes
    rw [← weigh_one, weigh_enter _ slot_lt, weigh_one]
    show c_int (t.num_prefixes + 1) = _
    rw [c_int_of_lt]
    all_goals omega
  · have hcount := h.total_prefix_size
    have hweigh : (t.enter (cfg.slot pre) pre access).weigh List.length = _ := weigh_enter List.length slot_lt access
    show c_int (t.total_prefix_size + pre.length) = ((t.enter (cfg.slot pre) pre access).weigh List.length : Nat)
    rw [hweigh, c_int_of_lt]
    · rw [hcount]
      rfl
    all_goals omega

/-- A step whose prefix is apart from the others of its chain keeps the chains and the totals right. -/
theorem PrefixTable.Sound.step (h : t.Sound cfg log) {e : PrefixEvent} (hapart : t.Apart cfg e) :
    (t.step cfg e).Sound cfg (log.record cfg e) := by
  cases e with
  | stats_prefix_clear => exact sound_clear
  | record access key allocated =>
      rw [step_record, PrefixTable.stats_prefix_record]
      rcases stats_prefix_find_cases with ⟨hpre, hfind⟩ | ⟨pre, hpre, ⟨i, pfs, hi, hfirst, hfind⟩ | ⟨hnew, hfind⟩⟩
      · rw [hfind, PrefixLog.record, hpre]
        exact h
      · have hbegins : pre <+: pfs.prefix_str := by simpa using List.find?_some hfirst
        have heq := (hapart pre hpre).1 pfs (List.mem_of_getElem? hi) hbegins
        have hmem : pre ∈ log.map Prod.fst := by
          have hentry := (h.map.mem.mp (List.mem_of_getElem? hi)).2
          rw [PrefixLog.entry, Option.ite_none_right_eq_some, heq] at hentry
          exact hentry.1
        simp only [hfind, PrefixLog.record, hpre, hmem, or_true, if_true]
        exact h.change access hi heq
      · have hne : ∀ pfs ∈ t.chain cfg pre, pfs.prefix_str ≠ pre := by
          intro pfs hmem heq
          exact List.find?_eq_none.mp hnew pfs hmem (by simp [heq])
        have hfits := (hapart pre hpre).2 hne
        have hout : pre ∉ log.map Prod.fst := by
          intro hmem
          have hnone := h.entry_none hne
          rw [PrefixLog.entry, if_pos hmem] at hnone
          cases hnone
        simp only [PrefixLog.record, hpre, hout, or_false]
        cases allocated with
        | false =>
            rw [hfind]
            exact h
        | true =>
            rw [hfind]
            exact h.enter access hne (hfits rfl).1 (hfits rfl).2

/-! ## The map of a run -/

theorem stats_prefix_tallies {es : List PrefixEvent}
    (h : Guarded (PrefixTable.Apart cfg) (PrefixTable.step cfg) .clear es) :
    (es.foldl (PrefixTable.step cfg) .clear).Tallies (es.foldl (PrefixLog.record cfg) []) := by
  suffices hrun : ∀ {t : PrefixTable} {log : PrefixLog}, t.Sound cfg log →
      Guarded (PrefixTable.Apart cfg) (PrefixTable.step cfg) t es →
      (es.foldl (PrefixTable.step cfg) t).Sound cfg (es.foldl (PrefixLog.record cfg) log) from
    (hrun sound_clear h).tallies
  clear h
  induction es with
  | nil => exact fun h _ => h
  | cons e es ih => exact fun h hguarded => ih (h.step hguarded.1) hguarded.2

end

/-! Keys `a:1`, `b` and `a:2`, all in one chain; and then a clear and `ab:1`. -/

def collide : PrefixSettings := ⟨fun _ => 0, 58⟩

theorem stats_prefix_tallies_witness : ∃ es : List PrefixEvent, es.length = 7 ∧
      Guarded (PrefixTable.Apart collide) (PrefixTable.step collide) .clear es ∧
      (es.foldl (PrefixTable.step collide) .clear).Tallies (es.foldl (PrefixLog.record collide) []) := by
  have h : Guarded (PrefixTable.Apart collide) (PrefixTable.step collide) .clear
      [.record .set [97, 58, 49] true, .record (.get true) [98] true, .record (.get false) [97, 58, 50] false,
        .record .delete [98, 58] false, .stats_prefix_clear, .record .set [97, 98, 58, 49] true,
        .record .delete [98, 58] true] := by decide +kernel
  exact ⟨_, rfl, h, stats_prefix_tallies h⟩

/-- A set of `abc:1` and one of `ab:1`, in one chain: both count for `abc`. -/
theorem stats_prefix_merged : ∃ cfg, ∃ es : List PrefixEvent, ¬ (es.foldl (PrefixTable.step cfg) .clear).Tallies
    (es.foldl (PrefixLog.record cfg) []) := by
  refine ⟨collide, [.record .set [97, 98, 99, 58, 49] true, .record .set [97, 98, 58, 49] true], fun h => ?_⟩
  have hentry := h.entry [97, 98]
  revert hentry
  decide +kernel

end Memcached.Thread

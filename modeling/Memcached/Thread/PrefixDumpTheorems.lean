import Memcached.Thread.PrefixDump
import Memcached.Thread.PrefixStatsTheorems

/-!
# The dump is complete

As long as its text is not longer than an `int` says, the buffer is large enough for every line and the end.
-/

namespace Memcached.Thread

open Decimal (digits digits_ne_nil length_digits_le)
open Memory (read write length_read read_add read_write_of_apart read_write_take)

variable {cfg : PrefixSettings} {t : PrefixTable} {d d' : PrefixDump} {pfs : PrefixStats} {l : List PrefixStats}
  {text bytes : List UInt8} {limit size : Nat}

/-! ## The text -/

def PrefixTable.dump_text (t : PrefixTable) : List UInt8 := t.entries.flatMap PrefixStats.line ++ c_string "END\r\n"

/-- The buffer holds the text and its NUL, and the length is that of the text. -/
def PrefixTable.Dumped (limit : Nat) (t : PrefixTable) : Prop :=
  ∀ mem, ∃ buf, t.stats_prefix_dump limit true mem = some (some (buf, (t.dump_text.length : Int))) ∧
    read buf 0 (t.dump_text.length + 1) = t.dump_text ++ [0]

/-- The bytes of the prefixes. -/
def PrefixTable.prefix_bytes (t : PrefixTable) : Nat := (t.entries.map (·.prefix_str.length)).sum

/-- The length of the text is an `int`, and `snprintf` takes as much room as the lines may need. -/
def PrefixTable.Printable (limit : Nat) (t : PrefixTable) : Prop :=
  t.dump_text.length ≤ INT_MAX ∧ (t.entries ≠ [] → t.prefix_bytes + 109 * t.entries.length + 53 ≤ limit)

/-! ## Lines -/

theorem llu_length {n : UInt64} : 0 < (llu n).length ∧ (llu n).length ≤ 20 :=
  ⟨List.length_pos_of_ne_nil digits_ne_nil, length_digits_le (by decide) (n.toNat_lt.trans (by decide))⟩

/-- Besides the prefix a line has 29 bytes and the digits of four numbers. -/
theorem line_length : pfs.prefix_str.length + 29 ≤ pfs.line.length ∧ pfs.line.length ≤ pfs.prefix_str.length + 109 := by
  have hgets := llu_length (n := pfs.num_gets)
  have hhits := llu_length (n := pfs.num_hits)
  have hsets := llu_length (n := pfs.num_sets)
  have hdeletes := llu_length (n := pfs.num_deletes)
  have hlen : pfs.line.length = pfs.prefix_str.length + 29 + ((llu pfs.num_gets).length + (llu pfs.num_hits).length +
      (llu pfs.num_sets).length + (llu pfs.num_deletes).length) := by
    have hfixed : (c_string "PREFIX ").length + (c_string " get ").length + (c_string " hit ").length +
        (c_string " set ").length + (c_string " del ").length + (c_string "\r\n").length = 29 := by decide
    simp only [PrefixStats.line, List.length_append]
    omega
  omega

/-- The estimate of the lines. -/
theorem lines_length : (l.map (·.prefix_str.length)).sum + 29 * l.length ≤ (l.flatMap PrefixStats.line).length ∧
    (l.flatMap PrefixStats.line).length ≤ (l.map (·.prefix_str.length)).sum + 109 * l.length := by
  induction l with
  | nil => exact ⟨Nat.le_refl _, Nat.le_refl _⟩
  | cons pfs l ih =>
      have hline : _ ∧ pfs.line.length ≤ _ := line_length
      simp only [List.map_cons, List.sum_cons, List.length_cons, List.flatMap_cons, List.length_append]
      omega

theorem text_length : t.dump_text.length = (t.entries.flatMap PrefixStats.line).length + 5 := by
  rw [PrefixTable.dump_text, List.length_append]
  rfl

/-! ## The totals of the table -/

/-- The totals are right up to the wrap of an `int`. -/
structure PrefixTable.Counted (t : PrefixTable) : Prop where
  num_prefixes : t.num_prefixes = c_int t.entries.length
  total_prefix_size : t.total_prefix_size = c_int t.prefix_bytes

theorem c_int_add (x y : Int) : c_int (c_int x + y) = c_int (x + y) := Int.bmod_add_bmod

theorem counted_clear : PrefixTable.clear.Counted := by
  have hnil : PrefixTable.clear.entries = [] := by
    simp [PrefixTable.entries, PrefixTable.clear, Buckets.entries, List.flatMap_eq_nil_iff]
  refine ⟨?_, ?_⟩
  · rw [hnil]
    rfl
  · rw [PrefixTable.prefix_bytes, hnil]
    rfl

theorem PrefixTable.Counted.change (h : t.Counted) {hashval i : Nat} (hlt : hashval < PREFIX_HASH_SIZE)
    (access : PrefixAccess) : (t.change hashval i access).Counted := by
  refine ⟨?_, ?_⟩
  · rw [← weigh_one, weigh_change _ hlt, weigh_one]
    exact h.num_prefixes
  · have hbytes : (t.change hashval i access).prefix_bytes = t.prefix_bytes := weigh_change List.length hlt access
    rw [hbytes]
    exact h.total_prefix_size

theorem PrefixTable.Counted.enter (h : t.Counted) {hashval : Nat} (hlt : hashval < PREFIX_HASH_SIZE) (pre : List UInt8)
    (access : PrefixAccess) : (t.enter hashval pre access).Counted := by
  refine ⟨?_, ?_⟩
  · show c_int (t.num_prefixes + 1) = _
    rw [← weigh_one, weigh_enter _ hlt, weigh_one, h.num_prefixes, c_int_add]
    rfl
  · have hbytes : (t.enter hashval pre access).prefix_bytes = t.prefix_bytes + pre.length :=
      weigh_enter List.length hlt access
    show c_int (t.total_prefix_size + pre.length) = _
    rw [hbytes, h.total_prefix_size, c_int_add]
    rfl

theorem PrefixTable.Counted.step (h : t.Counted) (e : PrefixEvent) : (t.step cfg e).Counted := by
  cases e with
  | stats_prefix_clear => exact counted_clear
  | record access key allocated =>
      rw [step_record, PrefixTable.stats_prefix_record]
      rcases stats_prefix_find_cases with ⟨-, hfind⟩ | ⟨pre, -, ⟨i, pfs, -, -, hfind⟩ | ⟨-, hfind⟩⟩
      · rw [hfind]
        exact h
      · rw [hfind]
        exact h.change slot_lt access
      · cases allocated with
        | false =>
            rw [hfind]
            exact h
        | true =>
            rw [hfind]
            exact h.enter slot_lt pre access

theorem run_counted (cfg : PrefixSettings) (es : List PrefixEvent) :
    (es.foldl (PrefixTable.step cfg) .clear).Counted := by
  suffices h : ∀ {t : PrefixTable}, t.Counted → (es.foldl (PrefixTable.step cfg) t).Counted from h counted_clear
  induction es with
  | nil => exact fun h => h
  | cons e es ih => exact fun h => ih (h.step e)

/-! ## The loop -/

/-- The buffer holds `text`, and both counts are its length. -/
structure PrefixDump.Holds (d : PrefixDump) (text : List UInt8) : Prop where
  pos : d.pos = text.length
  total_written : d.total_written = text.length
  read : read d.buf 0 text.length = text

/-- What is put at the end of the text is within the buffer. -/
theorem PrefixDump.Holds.put (h : d.Holds text) (hroom : text.length + bytes.length ≤ d.size) :
    d.put bytes = some { d with buf := write d.buf text.length bytes } := by
  rw [PrefixDump.put, h.pos, Int.toNat_natCast, if_pos ⟨Int.natCast_nonneg _, hroom⟩]

theorem PrefixDump.Holds.read_put (h : d.Holds text) {n : Nat} (hn : n ≤ bytes.length) :
    Memory.read (write d.buf text.length bytes) 0 (text.length + n) = text ++ bytes.take n := by
  rw [read_add, read_write_of_apart (.inl (by omega)), h.read, Nat.zero_add, read_write_take hn]

/-- There is room for the line and its NUL, so `snprintf` puts all of it. -/
theorem PrefixDump.Holds.snprintf {line : List UInt8} (h : d.Holds text) (hroom : text.length + line.length < d.size)
    (hlen : line.length < 2 ^ 31) (hsize : d.size < 2 ^ 64) (hlimit : d.size ≤ limit) :
    d.snprintf limit line = some { d with buf := write d.buf text.length (line ++ [0]) } := by
  have hspace : ((d.size - d.pos) % 2 ^ 64).toNat = d.size - text.length := by
    rw [h.pos]
    omega
  have htake : line.take (d.size - text.length - 1) = line := List.take_of_length_le (by omega)
  simp only [PrefixDump.snprintf, hspace]
  rw [if_neg (by omega), if_neg (by omega), htake, h.put]
  rw [List.length_append, List.length_singleton]
  omega

theorem PrefixDump.Holds.print (h : d.Holds text) (hroom : text.length + pfs.line.length < d.size)
    (hlen : (text ++ pfs.line).length ≤ INT_MAX) (hsize : d.size < 2 ^ 64) (hlimit : d.size ≤ limit) :
    ∃ d', d.print limit pfs = some d' ∧ d'.Holds (text ++ pfs.line) ∧ d'.size = d.size := by
  have hmax : INT_MAX = 2 ^ 31 - 1 := rfl
  have happend : (text ++ pfs.line).length = text.length + pfs.line.length := List.length_append
  have htotal : (d.total_written + pfs.line.length) % 2 ^ 64 = text.length + pfs.line.length := by
    rw [h.total_written]
    omega
  have hpos : c_int (d.pos + pfs.line.length) = (text ++ pfs.line).length := by
    rw [h.pos, happend, c_int_of_lt]
    all_goals omega
  refine ⟨⟨write d.buf text.length (pfs.line ++ [0]), d.size, (text ++ pfs.line).length, text.length + pfs.line.length⟩,
    ?_, ⟨rfl, happend.symm, ?_⟩, rfl⟩
  · simp only [PrefixDump.print, h.snprintf hroom (by omega) hsize hlimit, Option.bind_eq_bind, Option.bind_some, htotal,
      if_pos hroom, hpos]
  · rw [happend, h.read_put (by simp), List.take_append_of_le_length (Nat.le_refl _), List.take_length]

/-- The loop over entries for which there is room. -/
theorem PrefixDump.Holds.loop (h : d.Holds text) (hroom : text.length + (l.flatMap PrefixStats.line).length < d.size)
    (hlen : (text ++ l.flatMap PrefixStats.line).length ≤ INT_MAX) (hsize : d.size < 2 ^ 64)
    (hlimit : l ≠ [] → d.size ≤ limit) :
    ∃ d', l.foldlM (·.print limit ·) d = some d' ∧ d'.Holds (text ++ l.flatMap PrefixStats.line) ∧ d'.size = d.size := by
  induction l generalizing d text with
  | nil => exact ⟨d, rfl, by simpa using h, rfl⟩
  | cons pfs l ih =>
      have hlimit := hlimit (List.cons_ne_nil _ _)
      simp only [List.flatMap_cons, List.length_append, ← List.append_assoc] at hroom hlen ⊢
      have hroom₁ : text.length + pfs.line.length < d.size := by omega
      have hlen₁ : (text ++ pfs.line).length ≤ INT_MAX := by
        rw [List.length_append]
        omega
      obtain ⟨d₁, hprint, hholds, hsize₁⟩ := h.print hroom₁ hlen₁ hsize hlimit
      obtain ⟨d', hloop, hholds', hsize'⟩ := ih hholds (by rw [List.length_append]; omega)
        (by simp only [List.length_append]; omega) (by omega) fun _ => by omega
      refine ⟨d', ?_, hholds', hsize'.trans hsize₁⟩
      rw [List.foldlM_cons, hprint]
      exact hloop

/-! ## The dump -/

theorem foldlM_flatMap {α β σ : Type} (f : σ → β → Option σ) (g : α → List β) (l : List α) (s : σ) :
    (l.flatMap g).foldlM f s = l.foldlM (fun s a => (g a).foldlM f s) s := by
  induction l generalizing s with
  | nil => rfl
  | cons a l ih =>
      rw [List.flatMap_cons, List.foldlM_append, List.foldlM_cons]
      exact congrArg _ (funext fun s => ih s)

/-- The loop is over the entries. -/
theorem stats_prefix_dump_eq {mem : Nat → UInt8} : t.stats_prefix_dump limit true mem =
    (t.entries.foldlM (fun (d : PrefixDump) pfs => d.print limit pfs) ⟨mem, t.dump_size, 0, 0⟩).bind fun d =>
      (d.put (c_string "END\r\n" ++ [0])).bind fun d => some (some (d.buf, c_int (d.pos + 5))) := by
  rw [PrefixTable.entries, Buckets.entries, foldlM_flatMap]
  rfl

/-- The estimate, where nothing wraps. -/
theorem PrefixTable.Counted.dump_size (h : t.Counted) (hlen : t.dump_text.length ≤ INT_MAX) :
    t.dump_size = t.prefix_bytes + 109 * t.entries.length + 53 ∧ t.dump_size < 2 ^ 64 := by
  have hmax : INT_MAX = 2 ^ 31 - 1 := rfl
  have hlines := (lines_length (l := t.entries)).1
  have htext := text_length (t := t)
  have hbytes : (t.entries.map (·.prefix_str.length)).sum = t.prefix_bytes := rfl
  have hnum : t.num_prefixes = t.entries.length := by
    rw [h.num_prefixes, c_int_of_lt]
    all_goals omega
  have htotal : t.total_prefix_size = t.prefix_bytes := by
    rw [h.total_prefix_size, c_int_of_lt]
    all_goals omega
  have hformat : format.length = 47 := rfl
  rw [PrefixTable.dump_size, hnum, htotal, hformat]
  omega

/-- The first line is put only if `snprintf` takes the room that there is. -/
theorem print_room (hsize : d.size < 2 ^ 64) (hpos : d.pos = 0) (h : d.print limit pfs = some d') : d.size ≤ limit := by
  have hspace : ((d.size - d.pos) % 2 ^ 64).toNat = d.size := by
    rw [hpos]
    omega
  obtain ⟨d₁, hsnprintf, -⟩ := Option.bind_eq_some_iff.mp h
  simp only [PrefixDump.snprintf, hspace] at hsnprintf
  split at hsnprintf
  · cases hsnprintf
  · omega

theorem PrefixTable.Counted.dumped (h : t.Counted) (hfits : t.Printable limit) : t.Dumped limit := by
  obtain ⟨hlen, hlimit⟩ := hfits
  have hmax : INT_MAX = 2 ^ 31 - 1 := rfl
  obtain ⟨hsize, hlt⟩ := h.dump_size hlen
  have hlines := (lines_length (l := t.entries)).2
  have hbytes : (t.entries.map (·.prefix_str.length)).sum = t.prefix_bytes := rfl
  have htext : t.dump_text.length = _ := text_length
  intro mem
  let d₀ : PrefixDump := ⟨mem, t.dump_size, 0, 0⟩
  have hstart : d₀.Holds [] := ⟨rfl, rfl, rfl⟩
  have hroom : ([] : List UInt8).length + (t.entries.flatMap PrefixStats.line).length < d₀.size := by
    show 0 + _ < t.dump_size
    omega
  have hint : ([] ++ t.entries.flatMap PrefixStats.line).length ≤ INT_MAX := by
    rw [List.nil_append]
    omega
  obtain ⟨d, hloop, hholds, hdsize⟩ := hstart.loop hroom hint hlt fun hne => hsize.trans_le (hlimit hne)
  rw [List.nil_append] at hholds
  let bytes := c_string "END\r\n" ++ [0]
  have hend : bytes.length = 6 := rfl
  have hdsize : d.size = t.dump_size := hdsize
  have hput : d.put bytes = _ := hholds.put (by omega)
  refine ⟨write d.buf (t.entries.flatMap PrefixStats.line).length bytes, ?_, ?_⟩
  · have hpos : c_int (d.pos + 5) = t.dump_text.length := by
      rw [hholds.pos, htext, c_int_of_lt]
      · rfl
      all_goals omega
    rw [stats_prefix_dump_eq, hloop, Option.bind_some, hput, Option.bind_some]
    exact congrArg (fun n => some (some (_, n))) hpos
  · have hread : read (write d.buf _ bytes) 0 _ = _ := hholds.read_put hend.ge
    rw [htext, PrefixTable.dump_text, List.append_assoc]
    exact hread

theorem c_int_le (x : Int) : c_int x ≤ INT_MAX := by
  simp only [c_int, Int.bmod, INT_MAX]
  omega

theorem PrefixTable.Counted.printable (h : t.Counted) (hdumped : t.Dumped limit) : t.Printable limit := by
  obtain ⟨buf, hdump, -⟩ := hdumped fun _ => 0
  rw [stats_prefix_dump_eq] at hdump
  obtain ⟨d, hloop, hend⟩ := Option.bind_eq_some_iff.mp hdump
  obtain ⟨d', -, heq⟩ := Option.bind_eq_some_iff.mp hend
  obtain ⟨-, hlength⟩ := Prod.mk.inj (Option.some.inj (Option.some.inj heq))
  have hlen : t.dump_text.length ≤ INT_MAX := by
    rw [← hlength]
    exact c_int_le _
  obtain ⟨hsize, hlt⟩ := h.dump_size hlen
  refine ⟨hlen, fun hne => ?_⟩
  cases hentries : t.entries with
  | nil => exact absurd hentries hne
  | cons pfs l =>
      rw [hentries, List.foldlM_cons] at hloop
      obtain ⟨d₁, hprint, -⟩ := Option.bind_eq_some_iff.mp hloop
      have hroom : t.dump_size ≤ limit := print_room hlt rfl hprint
      rw [← hentries]
      exact hsize ▸ hroom

/-- The table that any records and clears lead to is dumped completely if and only if the length of the text is an `int`,
and the size that is computed is not too large for `snprintf`. -/
theorem stats_prefix_dump_complete (cfg : PrefixSettings) (limit : Nat) (es : List PrefixEvent) :
    (es.foldl (PrefixTable.step cfg) .clear).Dumped limit ↔ (es.foldl (PrefixTable.step cfg) .clear).Printable limit :=
  ⟨(run_counted cfg es).printable, (run_counted cfg es).dumped⟩

/-! ## Many prefixes

Each set makes a new entry with a prefix of 249 bytes. -/

/-- A byte for a digit to the base 64. -/
def digit64 (n : Nat) : UInt8 := .ofNat (59 + n % 64)

def long_pre (i : Nat) : List UInt8 :=
  List.replicate 245 97 ++ [digit64 (i / 64 ^ 3), digit64 (i / 64 ^ 2), digit64 (i / 64), digit64 i]

/-- `settings.prefix_delimiter` is a colon. -/
def colon (hash : List UInt8 → UInt32) : PrefixSettings := ⟨hash, 58⟩

def sets (n : Nat) : List PrefixEvent := (List.range n).map fun i => .record .set (long_pre i ++ [58]) true

theorem digit64_inj {m n : Nat} (h : digit64 m = digit64 n) : m % 64 = n % 64 := by
  have htoNat := congrArg UInt8.toNat h
  simp only [digit64, UInt8.toNat_ofNat'] at htoNat
  omega

theorem long_pre_inj {m n : Nat} (hm : m < 64 ^ 4) (hn : n < 64 ^ 4) (h : long_pre m = long_pre n) : m = n := by
  simp only [long_pre, List.append_cancel_left_eq, List.cons.injEq, and_true] at h
  obtain ⟨h3, h2, h1, h0⟩ := h
  have := digit64_inj h3
  have := digit64_inj h2
  have := digit64_inj h1
  have := digit64_inj h0
  omega

theorem long_pre_length (i : Nat) : (long_pre i).length = 249 := by
  rw [long_pre, List.length_append, List.length_replicate]
  rfl

theorem digit64_ne {b : UInt8} (hb : b = 0 ∨ b = 58) (n : Nat) : b ≠ digit64 n := by
  intro h
  have htoNat := congrArg UInt8.toNat h
  simp only [digit64, UInt8.toNat_ofNat'] at htoNat
  rcases hb with rfl | rfl
  · have hzero : (0 : UInt8).toNat = 0 := rfl
    omega
  · have hcolon : (58 : UInt8).toNat = 58 := rfl
    omega

theorem not_mem_long_pre {b : UInt8} (hb : b = 0 ∨ b = 58) (i : Nat) : b ∉ long_pre i := by
  have hne : b ≠ 97 := by
    rcases hb with rfl | rfl <;> decide
  simp only [long_pre, List.mem_append, List.mem_replicate, List.mem_cons, List.not_mem_nil, hne, digit64_ne hb,
    and_false, or_self, not_false_eq_true]

/-- The prefix of a text that ends where the delimiter first is. -/
theorem prefix_of_append {pre : List UInt8} (hnul : 0 ∉ pre) (hdelim : cfg.prefix_delimiter ∉ pre)
    (hne : cfg.prefix_delimiter ≠ 0) : prefix_of cfg (pre ++ [cfg.prefix_delimiter]) = some pre := by
  induction pre with
  | nil => simp [prefix_of, hne]
  | cons b pre ih =>
      simp only [List.mem_cons, not_or] at hnul hdelim
      rw [List.cons_append, prefix_of_cons (Ne.symm hnul.1) (Ne.symm hdelim.1), ih hnul.2 hdelim.2]
      rfl

theorem prefix_of_long (hash : List UInt8 → UInt32) (i : Nat) :
    prefix_of (colon hash) (long_pre i ++ [58]) = some (long_pre i) :=
  prefix_of_append (not_mem_long_pre (.inl rfl) i) (not_mem_long_pre (.inr rfl) i)
    (show (58 : UInt8) ≠ 0 by decide)

theorem mem_entries_of_chain {pre : List UInt8} (h : pfs ∈ t.chain cfg pre) : pfs ∈ t.entries :=
  List.mem_flatMap.mpr ⟨_, List.mem_range.mpr slot_lt, h⟩

theorem mem_entries_enter {hashval : Nat} {pre : List UInt8} {access : PrefixAccess} (hlt : hashval < PREFIX_HASH_SIZE)
    (h : pfs ∈ (t.enter hashval pre access).entries) : pfs.prefix_str = pre ∨ pfs ∈ t.entries := by
  obtain ⟨l₁, l₂, hentries, hupdate⟩ := Buckets.entries_update (t := t.prefix_stats) hlt
  rw [PrefixTable.entries, enter_prefix_stats, hupdate] at h
  rw [PrefixTable.entries, hentries]
  simp only [List.mem_append, List.mem_cons] at h ⊢
  rcases h with h | (rfl | h) | h
  · exact .inr (.inl h)
  · exact .inl (apply_prefix_str access _)
  · exact .inr (.inr (.inl h))
  · exact .inr (.inr (.inr h))

/-- There are `n` entries, with the first `n` of the prefixes. -/
structure Filled (n : Nat) (t : PrefixTable) : Prop where
  length : t.entries.length = n
  entry : ∀ pfs ∈ t.entries, ∃ i < n, pfs.prefix_str = long_pre i

theorem Filled.set {hash : List UInt8 → UInt32} {n : Nat} (h : Filled n t) (hn : n < 64 ^ 4) :
    Filled (n + 1) (t.step (colon hash) (.record .set (long_pre n ++ [58]) true)) := by
  rw [step_record, PrefixTable.stats_prefix_record]
  have hkey := prefix_of_long hash n
  rcases stats_prefix_find_cases with ⟨hnone, -⟩ | ⟨pre, hpre, ⟨i, pfs, hi, hfirst, -⟩ | ⟨-, hfind⟩⟩
  · rw [hkey] at hnone
    cases hnone
  · -- an entry that begins with this prefix is of the same length, and so of one of the others
    obtain rfl := Option.some.inj (hkey.symm.trans hpre)
    obtain ⟨j, hj, heq⟩ := h.entry pfs (mem_entries_of_chain (List.mem_of_getElem? hi))
    have hbegins : long_pre n <+: pfs.prefix_str := by simpa using List.find?_some hfirst
    have hsame : long_pre n = long_pre j := by
      rw [heq] at hbegins
      exact hbegins.eq_of_length (by rw [long_pre_length, long_pre_length])
    exact absurd (long_pre_inj hn (hj.trans hn) hsame) (Nat.ne_of_gt hj)
  · obtain rfl := Option.some.inj (hkey.symm.trans hpre)
    rw [hfind]
    refine ⟨?_, fun pfs hpfs => ?_⟩
    · have hweigh : (t.enter ((colon hash).slot (long_pre n)) (long_pre n) .set).weigh _ = _ :=
        weigh_enter (fun _ => 1) slot_lt .set
      rw [weigh_one, weigh_one, h.length] at hweigh
      exact hweigh
    · rcases mem_entries_enter slot_lt hpfs with hnew | hold
      · exact ⟨n, Nat.lt_succ_self n, hnew⟩
      · obtain ⟨i, hi, heq⟩ := h.entry pfs hold
        exact ⟨i, Nat.lt_succ_of_lt hi, heq⟩

theorem filled_sets (hash : List UInt8 → UInt32) (n : Nat) (hn : n ≤ 64 ^ 4) :
    Filled n ((sets n).foldl (PrefixTable.step (colon hash)) .clear) := by
  induction n with
  | zero =>
      have hnil : PrefixTable.clear.entries = [] := by
        simp [PrefixTable.entries, PrefixTable.clear, Buckets.entries, List.flatMap_eq_nil_iff]
      refine ⟨congrArg List.length hnil, fun pfs hpfs => ?_⟩
      rw [show ((sets 0).foldl (PrefixTable.step (colon hash)) .clear).entries = [] from hnil] at hpfs
      cases hpfs
  | succ n ih =>
      have hlt : n < 64 ^ 4 := hn
      have hset : Filled (n + 1) (PrefixTable.step (colon hash) _ (.record .set (long_pre n ++ [58]) true)) :=
        (ih hlt.le).set hlt
      simp only [sets, List.range_succ, List.map_append, List.foldl_append, List.map_cons, List.map_nil, List.foldl_cons,
        List.foldl_nil] at hset ⊢
      exact hset

theorem Filled.text_length {n : Nat} (h : Filled n t) : 278 * n ≤ t.dump_text.length := by
  have hlines := (lines_length (l := t.entries)).1
  have hbytes : (t.entries.map (·.prefix_str.length)).sum = t.entries.length * 249 := by
    rw [List.map_congr_left (g := fun _ => 249), List.map_const', List.sum_replicate_nat]
    intro pfs hpfs
    obtain ⟨i, -, heq⟩ := h.entry pfs hpfs
    rw [heq, long_pre_length]
  have hlength := h.length
  rw [Memcached.Thread.text_length]
  omega

/-- 2^23 sets of keys of 250 bytes: the length of the text is not an `int`. -/
theorem prefix_dump_overflow : ∃ es : List PrefixEvent, es.length = 2 ^ 23 ∧
    (∀ e ∈ es, ∃ key, e = .record .set key true ∧ key.length = KEY_MAX_LENGTH) ∧
    ∀ hash limit, ¬ (es.foldl (PrefixTable.step (colon hash)) .clear).Dumped limit := by
  obtain ⟨n, hn⟩ : ∃ n, n = 2 ^ 23 := ⟨_, rfl⟩
  refine ⟨sets n, ?_, fun e he => ?_, fun hash limit hdumped => ?_⟩
  · rw [sets, List.length_map, List.length_range, hn]
  · obtain ⟨i, -, rfl⟩ := List.mem_map.mp he
    refine ⟨_, rfl, ?_⟩
    rw [List.length_append, long_pre_length]
    rfl
  · have htext := (filled_sets hash n (by omega)).text_length
    have hlen := ((run_counted (colon hash) (sets n)).printable hdumped).1
    have hmax : INT_MAX = 2 ^ 31 - 1 := rfl
    omega

end Memcached.Thread

import Memcached.Exstore.Compact

/-!
# The page to reclaim

One pass finds the lowest version among the pages below the limit, and among all pages in use. That nothing was found is
said by the version `ULLONG_MAX`. Whether a page of any fill may be dropped is decided by `ext_drop_unread` where
`ext_drop_under` is meant.
-/

namespace Memcached.Exstore

variable {P : PageData → Prop} {pages ds : List PageData} {d : PageData} {l : Lowest} {page version lim : Nat}
  {frag_limit : ExtstoreStats → Nat} {settings : CompactSettings} {st : ExtstoreStats} {c c' : Compact} {r : Bool}

/-- Page `page` has the lowest version of those with `P`, and it is `version`. -/
def LowestOf (P : PageData → Prop) (pages : List PageData) (page version : Nat) : Prop :=
  ∃ d, pages[page]? = some d ∧ P d ∧ d.version = version ∧ ∀ d' ∈ pages, P d' → version ≤ d'.version

/-- What is to be chosen, from the arguments before the call to those after it. -/
def Chooses (frag_limit : ExtstoreStats → Nat) (settings : CompactSettings) (st : ExtstoreStats) (c : Compact)
    (r : Bool × Compact) : Prop :=
  if st.pages_used ≠ 0 ∧ st.pages_free ≤ settings.ext_compact_under then
    if ∃ d ∈ st.page_data, d.violates (frag_limit st) then
      r.1 = true ∧ LowestOf (PageData.violates (frag_limit st)) st.page_data r.2.page_id r.2.page_version ∧
        r.2.drop_unread = false
    else if settings.ext_drop_unread ∧ st.pages_free ≤ settings.ext_drop_under ∧ ∃ d ∈ st.page_data, d.in_use then
      r.1 = true ∧ LowestOf PageData.in_use st.page_data r.2.page_id r.2.page_version ∧ r.2.drop_unread = true
    else r.1 = false ∧ (r.2.drop_unread = true → c.drop_unread = true)
  else r.1 = false ∧ (r.2.drop_unread = true → c.drop_unread = true)

/-- A page below the limit is found if there is one; if there is none and pages may be dropped, the oldest one is found
and the number of free pages is at most 1 just when it is at most `ext_drop_under`. -/
def Decided (frag_limit : ExtstoreStats → Nat) (settings : CompactSettings) (st : ExtstoreStats) : Prop :=
  st.pages_used ≠ 0 → st.pages_free ≤ settings.ext_compact_under →
    ((∃ d ∈ st.page_data, d.violates (frag_limit st)) →
      ∃ d ∈ st.page_data, d.violates (frag_limit st) ∧ d.version < ULLONG_MAX) ∧
    ((¬∃ d ∈ st.page_data, d.violates (frag_limit st)) → settings.ext_drop_unread →
      (∃ d ∈ st.page_data, d.in_use) →
      ((∃ d ∈ st.page_data, d.in_use ∧ d.version < ULLONG_MAX) ∧ st.pages_free ≤ 1 ↔
        st.pages_free ≤ settings.ext_drop_under))

/-! ## The pass over the table -/

/-- The lowest version with `P` in `pages`, if it is below `ULLONG_MAX`. -/
def Seen (P : PageData → Prop) (pages : List PageData) (page version : Nat) : Prop :=
  (version = ULLONG_MAX ∧ ∀ d ∈ pages, P d → ULLONG_MAX ≤ d.version) ∨
    (version < ULLONG_MAX ∧ LowestOf P pages page version)

theorem Seen.nil : Seen P [] page ULLONG_MAX :=
  .inl ⟨rfl, fun _ hd => nomatch hd⟩

theorem Seen.le (h : Seen P pages page version) : ∀ d ∈ pages, P d → version ≤ d.version := by
  rcases h with ⟨rfl, h⟩ | ⟨-, -, -, -, -, h⟩
  · exact h
  · exact h

theorem Seen.le_max (h : Seen P pages page version) : version ≤ ULLONG_MAX := by
  rcases h with ⟨rfl, -⟩ | ⟨h, -⟩
  · exact Nat.le_refl _
  · exact Nat.le_of_lt h

theorem Seen.found (h : Seen P pages page version) (hd : P d) (hlow : d.version < version) :
    Seen P (pages ++ [d]) pages.length d.version := by
  apply Or.inr
  constructor
  · exact Nat.lt_of_lt_of_le hlow h.le_max
  · refine ⟨d, by simp, hd, rfl, ?_⟩
    intro d' hmem hd'
    rcases List.mem_append.mp hmem with hmem | hmem
    · exact Nat.le_of_lt (Nat.lt_of_lt_of_le hlow (h.le d' hmem hd'))
    · simp only [List.mem_singleton] at hmem
      exact hmem ▸ Nat.le_refl _

theorem Seen.passed (h : Seen P pages page version) (hd : P d → version ≤ d.version) :
    Seen P (pages ++ [d]) page version := by
  have hle : ∀ d' ∈ pages ++ [d], P d' → version ≤ d'.version := by
    intro d' hmem hd'
    rcases List.mem_append.mp hmem with hmem | hmem
    · exact h.le d' hmem hd'
    · simp only [List.mem_singleton] at hmem
      subst hmem
      exact hd hd'
  rcases h with ⟨rfl, -⟩ | ⟨hlt, d₀, hat, hP, hv, -⟩
  · exact .inl ⟨rfl, hle⟩
  · have hpage := (List.getElem?_eq_some_iff.mp hat).1
    exact .inr ⟨hlt, d₀, by rwa [List.getElem?_append_left hpage], hP, hv, hle⟩

theorem Seen.next [DecidablePred P] (h : Seen P pages page version) :
    Seen P (pages ++ [d]) (if P d ∧ d.version < version then pages.length else page)
      (if P d ∧ d.version < version then d.version else version) := by
  split
  next hlow => exact h.found hlow.1 hlow.2
  next hnot => exact h.passed fun hd => Nat.le_of_not_lt fun hlow => hnot ⟨hd, hlow⟩

theorem Lowest.visit_eq (x : Nat) : l.visit lim x d =
    { low_page := if d.violates lim ∧ d.version < l.low_version then x else l.low_page
      low_version := if d.violates lim ∧ d.version < l.low_version then d.version else l.low_version
      lowest_page := if d.in_use ∧ d.version < l.lowest_version then x else l.lowest_page
      lowest_version := if d.in_use ∧ d.version < l.lowest_version then d.version else l.lowest_version } := by
  unfold Lowest.visit
  split
  next hskip =>
      have hnot : ¬d.in_use := fun huse => huse hskip
      simp [PageData.violates, hnot]
  next hkeep =>
      have huse : d.in_use := hkeep
      by_cases hlow : d.version < l.lowest_version <;> by_cases hfew : d.bytes_used < lim <;>
        by_cases hlt : d.version < l.low_version <;> simp [PageData.violates, huse, hlow, hfew, hlt]

/-- What the two pairs of the loop say about the pages it has passed. -/
def Lowest.Seen (lim : Nat) (pages : List PageData) (l : Lowest) : Prop :=
  Exstore.Seen (PageData.violates lim) pages l.low_page l.low_version ∧
    Exstore.Seen PageData.in_use pages l.lowest_page l.lowest_version

theorem Lowest.Seen.visit (h : l.Seen lim pages) : (l.visit lim pages.length d).Seen lim (pages ++ [d]) := by
  rw [Lowest.visit_eq]
  exact ⟨h.1.next, h.2.next⟩

theorem Lowest.Seen.scan (h : l.Seen lim pages) : (Lowest.scan lim ds pages.length l).Seen lim (pages ++ ds) := by
  induction ds generalizing pages l with
  | nil => simpa [Lowest.scan] using h
  | cons d ds ih =>
      have hvisit : (l.visit lim pages.length d).Seen lim (pages ++ [d]) := h.visit
      simpa [Lowest.scan] using ih hvisit

theorem Lowest.scan_seen : (Lowest.scan lim pages 0 Lowest.start).Seen lim pages :=
  have hstart : Lowest.start.Seen lim [] := ⟨Exstore.Seen.nil, Exstore.Seen.nil⟩
  hstart.scan

theorem Seen.lowestOf (h : Seen P pages page version) (hv : version ≠ ULLONG_MAX) : LowestOf P pages page version := by
  rcases h with ⟨heq, -⟩ | ⟨-, h⟩
  · exact absurd heq hv
  · exact h

theorem Seen.found_iff (h : Seen P pages page version) :
    version ≠ ULLONG_MAX ↔ ∃ d ∈ pages, P d ∧ d.version < ULLONG_MAX := by
  constructor
  · intro hne
    obtain ⟨d, hat, hP, rfl, -⟩ := h.lowestOf hne
    exact ⟨d, List.mem_of_getElem? hat, hP, Nat.lt_of_le_of_ne h.le_max hne⟩
  · rintro ⟨d, hmem, hP, hlt⟩ heq
    have := h.le d hmem hP
    omega

theorem Seen.eq_max (h : Seen P pages page version) (hnone : ¬∃ d ∈ pages, P d) : version = ULLONG_MAX := by
  by_contra hfound
  obtain ⟨d, hmem, hd, -⟩ := h.found_iff.mp hfound
  exact hnone ⟨d, hmem, hd⟩

/-! ## The choice -/

theorem storage_compact_check_due (frag_limit : ExtstoreStats → Nat) (c : Compact) (hused : st.pages_used ≠ 0)
    (hfree : st.pages_free ≤ settings.ext_compact_under) :
    ∃ low_page low_version lowest_page lowest_version,
      Seen (PageData.violates (frag_limit st)) st.page_data low_page low_version ∧
      Seen PageData.in_use st.page_data lowest_page lowest_version ∧
      storage_compact_check frag_limit settings st c =
        if low_version ≠ ULLONG_MAX then (true, ⟨low_page, low_version, st.page_size, false⟩)
        else if lowest_version ≠ ULLONG_MAX ∧ settings.ext_drop_unread ∧ st.pages_free ≤ 1 then
          (true, ⟨lowest_page, lowest_version, st.page_size, true⟩)
        else (false, { c with page_size := st.page_size, drop_unread := false }) := by
  have hseen : (Lowest.scan (frag_limit st) st.page_data 0 Lowest.start).Seen (frag_limit st) st.page_data :=
    Lowest.scan_seen
  refine ⟨_, _, _, _, hseen.1, hseen.2, ?_⟩
  unfold storage_compact_check
  rw [if_neg hused, if_neg (Nat.not_lt.mpr hfree)]
  cases hdrop : settings.ext_drop_unread <;> simp

theorem chooses_iff_decided :
    Chooses frag_limit settings st c (storage_compact_check frag_limit settings st c) ↔
      Decided frag_limit settings st := by
  by_cases hused : st.pages_used = 0
  · simp [Chooses, Decided, storage_compact_check, hused]
  by_cases hfree : st.pages_free ≤ settings.ext_compact_under
  swap
  · simp [Chooses, Decided, storage_compact_check, hused, hfree, Nat.lt_of_not_le hfree]
  obtain ⟨low_page, low_version, lowest_page, lowest_version, hlow, hlowest, heq⟩ :=
    storage_compact_check_due frag_limit c hused hfree
  rw [heq, Chooses, if_pos ⟨hused, hfree⟩, Decided]
  simp only [hused, ne_eq, not_false_eq_true, hfree, forall_const]
  rw [← hlow.found_iff, ← hlowest.found_iff]
  by_cases hviol : ∃ d ∈ st.page_data, d.violates (frag_limit st)
  · rw [if_pos hviol]
    simp only [hviol, forall_const, not_true, false_imp_iff, and_true]
    by_cases hfound : low_version = ULLONG_MAX
    · -- every page below the limit has the version that stands for none
      simp only [hfound, ne_eq, not_true, if_false, iff_false]
      rintro ⟨hr, -, hdrop⟩
      split at hr
      next h =>
          rw [if_pos h] at hdrop
          cases hdrop
      next => cases hr
    · have hlowest := hlow.lowestOf hfound
      simp [hfound, hlowest]
  · rw [if_neg hviol]
    simp only [hviol, false_imp_iff, true_and, not_false_eq_true, forall_const, hlow.eq_max hviol, ne_eq, not_true,
      if_false]
    cases hdrop : settings.ext_drop_unread with
    | false => simp
    | true =>
        by_cases huse : ∃ d ∈ st.page_data, d.in_use
        swap
        · simp [huse, hlowest.eq_max huse]
        by_cases hcode : lowest_version ≠ ULLONG_MAX ∧ st.pages_free ≤ 1
        · have hpage := hlowest.lowestOf hcode.1
          by_cases hunder : st.pages_free ≤ settings.ext_drop_under <;> simp [huse, hcode.1, hcode.2, hunder, hpage]
        · by_cases hunder : st.pages_free ≤ settings.ext_drop_under <;> simp [huse, hunder, hcode]

/-- Two of four pages of 64 MB are in use, and full. -/
def two_full : ExtstoreStats where
  pages_used := 2
  pages_free := 2
  page_size := 67108864
  page_data := [⟨1, 67108864, 0⟩, ⟨2, 67108864, 0⟩, ⟨0, 0, 0⟩, ⟨0, 0, 0⟩]

/-- The limit of 0.4 of a page is what an `ext_max_frag` of 0.8 gives there. Nothing is selected, though two free pages
are fewer than `ext_drop_under`. -/
theorem not_dropped : ¬Chooses (fun _ => 26843545) ⟨3, 3, true⟩ two_full ⟨0, 0, 0, false⟩
    (storage_compact_check (fun _ => 26843545) ⟨3, 3, true⟩ two_full ⟨0, 0, 0, false⟩) := by
  intro h
  simp [Chooses, storage_compact_check, two_full, Lowest.scan, Lowest.visit, Lowest.start, PageData.violates,
    PageData.in_use, PAGE_BUCKET_LOWTTL, ULLONG_MAX] at h

end Memcached.Exstore

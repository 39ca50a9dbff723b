import Memcached.Exstore.Lemmas.Buffers

/-!
# What `extstore_init` sets up

Every page lies in a device, apart from the others there, and every page but the first is on the free list it belongs
to.
-/

namespace Memcached.Exstore

open Function (update update_self update_of_ne)

variable {fh : List ConfFile} {cf : Conf} {d d' : Devices} {e e' : Engine} {L : Place → List Nat} {page_size n p : Nat}

/-! ## Devices -/

/-- The first `n` pages: `dev p` is the device of page `p`, and `d.offset` is past the pages of each device. -/
structure Laid (fh : List ConfFile) (page_size n : Nat) (d : Devices) (dev : Nat → Nat) : Prop where
  page : ∀ p < n, ∃ h, fh[dev p]? = some h ∧
    d.pages p = { Page.zero with
      fd := h.file, free_bucket := h.free_bucket.toNat, offset := (d.pages p).offset, free := true }
  zero : ∀ p, n ≤ p → d.pages p = Page.zero
  below : ∀ p < n, (d.pages p).offset + page_size ≤ d.offset (dev p)
  apart : ∀ p q, p < q → q < n → dev p = dev q → (d.pages p).offset + page_size ≤ (d.pages q).offset

theorem Laid.init_page {dev : Nat → Nat} (h : Laid fh page_size n d dev) (hd : init_page fh page_size n d = some d') :
    ∃ dev', Laid fh page_size (n + 1) d' dev' := by
  unfold Memcached.Exstore.init_page at hd
  split at hd
  · cases hd
  · rename_i f hf
    obtain ⟨c, hc, rfl⟩ := Option.map_eq_some_iff.mp hd
    refine ⟨update dev n f, fun p hp => ?_, fun p hp => ?_, fun p hp => ?_, fun p q hpq hq hdev => ?_⟩
    · by_cases hpn : p = n
      · subst hpn
        exact ⟨c, by simp [hc], by simp⟩
      · simp only [update_of_ne hpn]
        exact h.page p (by omega)
    · have hpn : p ≠ n := by omega
      simp only [update_of_ne hpn]
      exact h.zero p (by omega)
    · by_cases hpn : p = n
      · subst hpn
        simp
      · simp only [update_of_ne hpn]
        have hb := h.below p (by omega)
        by_cases hdev : dev p = f
        · rw [hdev, update_self]
          rw [hdev] at hb
          omega
        · rw [update_of_ne hdev]
          exact hb
    · have hpn : p ≠ n := by omega
      by_cases hqn : q = n
      · subst hqn
        rw [update_self, update_of_ne hpn] at hdev
        simp only [update_self, update_of_ne hpn]
        rw [← hdev]
        exact h.below p (by omega)
      · simp only [update_of_ne hpn, update_of_ne hqn] at hdev ⊢
        exact h.apart p q hpq (by omega) hdev

theorem init_pages_laid (hd : init_pages fh page_size n = some d) : ∃ dev, Laid fh page_size n d dev := by
  induction n generalizing d with
  | zero =>
      obtain rfl := Option.some.inj hd
      exact ⟨fun _ => 0, fun p hp => by omega, fun p _ => rfl, fun p hp => by omega, fun p q _ hq => by omega⟩
  | succ n ih =>
      obtain ⟨d0, h0, hd⟩ := Option.bind_eq_some_iff.mp hd
      obtain ⟨dev, hlaid⟩ := ih h0
      exact hlaid.init_page hd

/-! ## Free lists -/

/-- `e'` is `e` up to the free lists and the links of the pages. -/
structure Relisted (e e' : Engine) : Prop where
  pages : ∀ p, e'.pages p = { e.pages p with next := (e'.pages p).next }
  rest : e' = { e with
    pages := e'.pages, page_freelist := e'.page_freelist, free_page_buckets := e'.free_page_buckets
    page_free := e'.page_free }

theorem Relisted.trans {e1 e2 e3 : Engine} (h : Relisted e1 e2) (h' : Relisted e2 e3) : Relisted e1 e3 := by
  refine ⟨fun p => ?_, ?_⟩
  · rw [h'.pages p, h.pages p]
  · rw [h'.rest, h.rest]

theorem push_free_relisted : Relisted e { e.push_free p with page_free := e.page_free + 1 } := by
  unfold Engine.push_free
  dsimp only
  split
  · refine ⟨fun q => ?_, rfl⟩
    by_cases hq : q = p
    · subst hq
      simp [Engine.set_page]
    · simp [Engine.set_page, hq]
  · refine ⟨fun q => ?_, rfl⟩
    by_cases hq : q = p
    · subst hq
      simp [Engine.set_page]
    · simp [Engine.set_page, hq]

theorem Relisted.page_count (h : Relisted e e') : e'.page_count = e.page_count := by rw [h.rest]

theorem init_lists_relisted (he : e.init_lists n = some e') : Relisted e e' := by
  induction n generalizing e with
  | zero =>
      obtain rfl := Option.some.inj he
      exact ⟨fun p => rfl, rfl⟩
  | succ n ih =>
      unfold Engine.init_lists at he
      dsimp only at he
      split at he
      · exact push_free_relisted.trans (ih he)
      · cases he

theorem Listed.init_lists (h : Listed (n + 1) e.lists L) (hn : n = 0 ∨ n < e.page_count)
    (hfree : ∀ p < e.page_count, (e.pages p).free = true) (he : e.init_lists n = some e') :
    ∃ L', Listed 1 e'.lists L' := by
  induction n generalizing e L with
  | zero =>
      obtain rfl := Option.some.inj he
      exact ⟨L, h⟩
  | succ n ih =>
      unfold Engine.init_lists at he
      dsimp only at he
      split at he
      · rename_i hb
        have hlt : n + 1 < e.page_count := hn.resolve_left (Nat.succ_ne_zero n)
        have hr := push_free_relisted (e := e) (p := n + 1)
        have hhome : e.lists.home (n + 1) = e.lists.freed (n + 1) := by
          show (e.pages (n + 1)).home = (e.pages (n + 1)).freed
          simp [Page.home, hfree _ hlt]
        have hbound (b : Nat) (hf : e.lists.freed (n + 1) = .free_bucket b) : b < e.lists.page_bucketcount := by
          have hf : (e.pages (n + 1)).freed = .free_bucket b := hf
          unfold Page.freed at hf
          split at hf
          · obtain rfl := Place.free_bucket.inj hf
            exact hb.resolve_left ‹_›
          · cases hf
        have hpush := h.push_free hlt hhome is_free_freed hbound
        rw [← lists_push_free] at hpush
        have hcount := hr.page_count
        refine ih hpush (.inr (by rw [hcount]; omega)) (fun p hp => ?_) he
        rw [hr.pages p]
        exact hfree p (hcount ▸ hp)
      · cases he

/-- The engine before the free lists are linked. -/
def engine_of (cf : Conf) (page_count : Nat) (d : Devices) : Engine where
  pages := d.pages
  wbufs _ := Wbuf.new cf.wbuf_size.toNat
  wbuf_stack := (List.range cf.wbuf_count.toNat).reverse
  io_stack := cf.wbuf_count.toNat
  io_threads _ := ⟨[], [], .next⟩
  page_freelist := none
  page_buckets _ := none
  free_page_buckets _ := none
  page_size := cf.page_size.toNat
  version := 1
  io_threadcount := cf.io_threadcount.toNat
  page_count := page_count
  page_free := 0
  page_bucketcount := cf.page_buckets.toNat
  io_depth := cf.io_depth.toNat
  stats := ⟨0, 0, 0⟩
  disk _ _ := 0
  writers _ := .idle
  maint := .waiting
  objects := []
  results := []

theorem extstore_init_eq (h : extstore_init fh cf = some (.ok e)) :
    ∃ page_count d, page_count = (fh.map fun f => f.page_count.toNat).sum ∧ page_count < 2 ^ 16 - 1 ∧ cf.wbuf_size ≠ 0 ∧ cf.page_size % cf.wbuf_size = 0 ∧
      init_pages fh cf.page_size.toNat page_count = some d ∧
      (engine_of cf page_count d).init_lists (page_count - 1) = some e := by
  unfold extstore_init at h
  dsimp only at h
  split at h
  · cases h
  · rename_i hsize
    split at h
    · cases h
    · rename_i hdiv
      split at h
      · cases h
      · split at h
        · cases h
        · split at h
          · cases h
          · split at h
            · cases h
            · rename_i hmany
              obtain ⟨d, hd, h⟩ := Option.bind_eq_some_iff.mp h
              obtain ⟨e1, h1, heq⟩ := Option.map_eq_some_iff.mp h
              obtain rfl := Except.ok.inj heq
              exact ⟨_, d, rfl, Nat.lt_of_not_le hmany, hsize, by simpa using hdiv, hd, h1⟩

theorem extstore_init_owned (h : extstore_init fh cf = some (.ok e)) : ∃ L, Owned e L := by
  obtain ⟨page_count, d, -, -, -, -, hd, h⟩ := extstore_init_eq h
  obtain ⟨dev, hlaid⟩ := init_pages_laid hd
  have hfree (p : Nat) (hp : p < page_count) : ((engine_of cf page_count d).pages p).free = true := by
    obtain ⟨c, -, hc⟩ := hlaid.page p hp
    show (d.pages p).free = true
    rw [hc]
  have hempty : Listed (page_count - 1 + 1) (engine_of cf page_count d).lists fun _ => [] := by
    refine ⟨fun i => ?_, fun _ => List.nodup_nil, fun i p hp => (by cases hp), fun i p hp => (by cases hp), fun p hp hlt => ?_,
      ?_, fun p b hp hlt => ?_⟩
    · cases i <;> rfl
    · have : p < page_count := hlt
      omega
    · simp [Engine.lists, engine_of]
    · have : p < page_count := hlt
      omega
  have hr := init_lists_relisted h
  obtain ⟨L, hL⟩ := hempty.init_lists (by
    show page_count - 1 = 0 ∨ page_count - 1 < page_count
    omega) hfree h
  refine ⟨L, hL, fun h0 => ?_, ?_, ?_, ?_, fun b p hp => ?_⟩
  · rw [hr.pages 0]
    refine hfree 0 ?_
    rw [hr.rest] at h0
    exact h0
  · rw [hr.rest]
    exact fun i hi => by cases hi
  · rw [hr.rest]
    exact fun l hl => by cases hl
  · rw [hr.rest]
    exact fun t b hb => by cases hb
  · have hbucket : (e.pages p).home = .bucket b := hL.home _ p hp
    have hp : p < page_count := by
      have := (hL.range _ p hp).2
      rw [hr.rest] at this
      exact this
    have hpfree := (home_eq_bucket.mp hbucket).1
    rw [hr.pages p] at hpfree
    exact absurd ((hfree p hp).symm.trans hpfree) (by decide)

/-- At the start a page is unused but for its place, and everything but the pages is as `engine_of` has it. -/
theorem extstore_init_pages (h : extstore_init fh cf = some (.ok e)) :
    ∃ page_count d dev, Laid fh cf.page_size.toNat page_count d dev ∧
      (∀ p, e.pages p = { Page.zero with
        fd := (d.pages p).fd, free_bucket := (d.pages p).free_bucket, offset := (d.pages p).offset
        free := (d.pages p).free, next := (e.pages p).next }) ∧
      e = { engine_of cf page_count d with
        pages := e.pages, page_freelist := e.page_freelist, free_page_buckets := e.free_page_buckets
        page_free := e.page_free } := by
  obtain ⟨page_count, d, -, -, -, -, hd, hlists⟩ := extstore_init_eq h
  obtain ⟨dev, hlaid⟩ := init_pages_laid hd
  have hr := init_lists_relisted hlists
  refine ⟨page_count, d, dev, hlaid, fun p => ?_, hr.rest⟩
  have hunused : d.pages p = { Page.zero with
      fd := (d.pages p).fd, free_bucket := (d.pages p).free_bucket, offset := (d.pages p).offset
      free := (d.pages p).free } := by
    rcases Nat.lt_or_ge p page_count with hp | hp
    · obtain ⟨c, -, hc⟩ := hlaid.page p hp
      rw [hc]
    · rw [hlaid.zero p hp]
  rw [hr.pages p]
  show ({ d.pages p with next := (e.pages p).next } : Page) = _
  rw [hunused]

theorem extstore_init_buffers (h : extstore_init fh cf = some (.ok e)) : Buffers cf.wbuf_size.toNat e := by
  obtain ⟨-, -, -, -, hsize, hdiv, -, -⟩ := extstore_init_eq h
  obtain ⟨page_count, d, dev, -, hpage, hrest⟩ := extstore_init_pages h
  have hpos : 0 < cf.wbuf_size.toNat := by
    rw [Nat.pos_iff_ne_zero]
    exact fun h0 => hsize (UInt32.toNat_inj.mp h0)
  have hdvd : cf.wbuf_size.toNat ∣ cf.page_size.toNat := by
    refine Nat.dvd_of_mod_eq_zero ?_
    have := congrArg UInt32.toNat hdiv
    simpa using this
  refine ⟨hpos, ?_, fun w => ?_, fun p => ?_, ⟨fun i => ?_, fun {i j w} hi hj => ?_⟩, fun p hp => ?_, ?_, ?_⟩
  · rw [hrest]
    exact hdvd
  · rw [hrest]
    exact ⟨rfl, Nat.zero_add _⟩
  · rw [hpage p]
    exact ⟨Nat.zero_le _, Nat.dvd_zero _, fun w hw => (nomatch hw), fun _ => rfl, fun _ => ⟨rfl, rfl, rfl⟩, Nat.zero_le _⟩
  · cases i with
    | none =>
        show e.wbuf_stack.Nodup
        rw [hrest]
        exact List.nodup_reverse.mpr List.nodup_range
    | some p =>
        show (e.pages p).wbuf.toList.Nodup
        rw [hpage p]
        exact List.nodup_nil
  · have hnone {i : Option Nat} (hi : w ∈ e.wbufs_at i) : i = none := by
      cases i with
      | none => rfl
      | some p =>
          have hi : w ∈ (e.pages p).wbuf.toList := hi
          rw [hpage p] at hi
          exact nomatch hi
    rw [hnone hi, hnone hj]
  · rw [hpage p] at hp
    cases hp
  · rw [hrest]
    exact fun i hi => nomatch hi
  · rw [hrest]
    exact fun l hl => nomatch hl

end Memcached.Exstore

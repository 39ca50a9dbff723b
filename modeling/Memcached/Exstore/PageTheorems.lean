import Memcached.Exstore.Lemmas.Init

/-!
# Every page is on one list

After `extstore_init` and any run: each page but the first is on exactly one list, it is free exactly if that list is a
free list, and `page_free` counts them. The loop of `extstore_init` stops before page 0, which no list ever holds.
-/

namespace Memcached.Exstore

open Linked (Walk)
open Transition (Run)

variable {fh : List ConfFile} {cf : Conf} {e e' : Engine} {es : List Event} {L : Place → List Nat}

/-- The array of heads has a cell for the list. -/
def Place.within (e : Engine) : Place → Prop
  | .free => True
  | .free_bucket b => b < e.page_bucketcount
  | .bucket b => b < e.page_bucketcount

/-- `L` are the lists of the engine, and they own its pages from `first` on. -/
structure PagesOwned (e : Engine) (first : Nat) (L : Place → List Nat) : Prop where
  walk : ∀ i, Walk (fun p => (e.pages p).next) (e.head i) (L i)
  nodup : ∀ i, (L i).Nodup
  range : ∀ i, ∀ p ∈ L i, p < e.page_count
  one : ∀ p, first ≤ p → p < e.page_count → ∃! i, Place.within e i ∧ p ∈ L i
  free : ∀ p, first ≤ p → p < e.page_count → ((e.pages p).free = true ↔ ∃ i, i.is_free ∧ p ∈ L i)
  page_free : e.page_free = (L .free).length + ∑ b ∈ Finset.range e.page_bucketcount, (L (.free_bucket b)).length

theorem run_owned (h : extstore_init fh cf = some (.ok e)) (hrun : Run Step e es e') : ∃ L, Owned e' L := by
  refine hrun.invariant (P := fun e => ∃ L, Owned e L) (fun howned hstep => ?_) (extstore_init_owned h)
  exact step_rule (P := fun e => ∃ L, Owned e L) hstep (fun hact ⟨_, howned⟩ => howned.act hact) howned

theorem Owned.within (h : Owned e L) {i : Place} {p : Nat} (hp : p ∈ L i) : i.within e := by
  cases i with
  | free => trivial
  | free_bucket b =>
      obtain ⟨h1, hlt⟩ := h.listed.range _ p hp
      exact h.listed.bound p b h1 hlt (.inl (h.listed.home _ p hp))
  | bucket b => exact h.bucket b p hp

theorem Owned.pages_owned (h : Owned e L) : PagesOwned e 1 L := by
  have hhome (p : Nat) (h1 : 1 ≤ p) (hlt : p < e.page_count) : p ∈ L (e.pages p).home := h.listed.all p h1 hlt
  refine ⟨h.listed.walk, h.listed.nodup, fun i p hp => (h.listed.range i p hp).2, fun p h1 hlt => ?_, fun p h1 hlt => ?_,
    h.listed.count⟩
  · refine ⟨_, ⟨h.within (hhome p h1 hlt), hhome p h1 hlt⟩, fun i hi => ?_⟩
    exact (h.listed.home i p hi.2).symm
  · constructor
    · intro hfree
      exact ⟨_, is_free_home.trans hfree, hhome p h1 hlt⟩
    · rintro ⟨i, hi, hp⟩
      rw [← is_free_home]
      exact (congrArg Place.is_free (h.listed.home i p hp)).trans hi

theorem Owned.page_zero (h : Owned e L) (h0 : 0 < e.page_count) (L' : Place → List Nat) : ¬PagesOwned e 0 L' := by
  intro h'
  obtain ⟨i, ⟨-, hi⟩, -⟩ := h'.one 0 le_rfl h0
  have heq : L' i = L i := (h'.walk i).unique (h.listed.walk i)
  rw [heq] at hi
  exact absurd (h.listed.range i 0 hi).1 (by decide)

/-! ## The number of pages -/

theorem take_free_page_count {free_bucket : Nat} {r : Option Nat} {e1 : Engine}
    (h : e.take_free free_bucket = some (r, e1)) : e1.page_count = e.page_count := by
  unfold Engine.take_free at h
  repeat' split at h
  all_goals first | cases h; rfl | cases h

theorem Act.page_count {s : Engine} {ev : Event} (h : Act s ev e e') : e'.page_count = e.page_count := by
  rcases h.framed with hframe | ⟨_, _, _, _, _, _, ht, _, _, rfl⟩ | ⟨_, _, ht, _⟩ | ⟨p, m, _, _, _, rfl⟩ | ⟨m, _, _, rfl⟩
  · exact hframe.page_count
  · exact Eq.trans (by rfl) (take_free_page_count ht)
  · exact take_free_page_count ht
  · exact (push_free_counted ..).page_count.trans (unlink_counted ..).page_count
  · rfl

theorem run_page_count (hrun : Run Step e es e') : e'.page_count = e.page_count := by
  refine hrun.invariant (P := fun t => t.page_count = e.page_count) (fun hs hstep => ?_) rfl
  exact step_rule (P := fun t => t.page_count = e.page_count) hstep (fun hact hc => hact.page_count.trans hc) hs

theorem extstore_init_page_count (h : extstore_init fh cf = some (.ok e)) :
    e.page_count = 0 ↔ ∀ f ∈ fh, f.page_count = 0 := by
  obtain ⟨_, d, rfl, -, -, -, -, h⟩ := extstore_init_eq h
  rw [(init_lists_relisted h).page_count]
  show (fh.map fun f => f.page_count.toNat).sum = 0 ↔ _
  rw [List.sum_eq_zero_iff_forall_eq_nat]
  simp only [List.mem_map, forall_exists_index, and_imp, forall_apply_eq_imp_iff₂]
  exact forall₂_congr fun f _ => ⟨fun hf => UInt32.toNat_inj.mp hf, fun hf => by rw [hf]; rfl⟩

/-- In every state reached: the pages from 1 on are owned, and page 0 too only if there is no page at all. -/
theorem every_page_listed (h : extstore_init fh cf = some (.ok e)) (hrun : Run Step e es e') :
    (∃ L, PagesOwned e' 1 L) ∧ ((∃ L, PagesOwned e' 0 L) ↔ ∀ f ∈ fh, f.page_count = 0) := by
  obtain ⟨L, hL⟩ := run_owned h hrun
  refine ⟨⟨L, hL.pages_owned⟩, ?_⟩
  rw [← extstore_init_page_count h, ← run_page_count hrun]
  constructor
  · rintro ⟨L', hL'⟩
    by_contra h0
    exact hL.page_zero (Nat.pos_of_ne_zero h0) L' hL'
  · intro h0
    have howned := hL.pages_owned
    exact ⟨L, howned.walk, howned.nodup, howned.range, fun p _ hlt => by omega, fun p _ hlt => by omega,
      howned.page_free⟩

/-- One device with two pages. -/
def two_pages : List ConfFile := [⟨2, 0, 0⟩]

def small_conf : Conf := ⟨1024 * 1024 * 2, 1, 1024 * 1024 * 2, 1, 1, 1⟩

theorem every_page_listed_witness : ∃ e e', extstore_init two_pages small_conf = some (.ok e) ∧
    Run Step e [.write_request 0 0 0 [7], .write 0 0] e' ∧
    (∃ L, PagesOwned e' 1 L) ∧ ((∃ L, PagesOwned e' 0 L) ↔ ∀ f ∈ two_pages, f.page_count = 0) := by
  have hsome : (run (fun _ _ => true) two_pages small_conf [.write_request 0 0 0 [7], .write 0 0]).isSome := by decide
  obtain ⟨e', he'⟩ := Option.isSome_iff_exists.mp hsome
  obtain ⟨e, he, hrun⟩ := run_eq he'
  have hrun := hrun.mono fun hstep => hstep.1
  exact ⟨e, e', he, hrun, every_page_listed he hrun⟩

/-- Page 0 of two is free and on no list. -/
theorem page_zero_lost : ∃ e, extstore_init two_pages small_conf = some (.ok e) ∧ (e.pages 0).free = true ∧
    e.page_count = 2 ∧ e.page_free = 1 ∧ ¬∃ L, PagesOwned e 0 L := by
  have hsome : (run (fun _ _ => true) two_pages small_conf []).isSome := by decide
  obtain ⟨e, he⟩ := Option.isSome_iff_exists.mp hsome
  have hfields : (run (fun _ _ => true) two_pages small_conf []).map (fun e => ((e.pages 0).free, e.page_count, e.page_free)) =
      some (true, 2, 1) := by decide
  rw [he] at hfields
  obtain ⟨hfree, hcount, hpage_free⟩ := by simpa using hfields
  obtain ⟨e0, he0, hrun⟩ := run_eq he
  cases hrun
  obtain ⟨L, hL⟩ := extstore_init_owned he0
  exact ⟨e, he0, hfree, hcount, hpage_free, fun ⟨L', hL'⟩ => hL.page_zero (by omega) L' hL'⟩

end Memcached.Exstore

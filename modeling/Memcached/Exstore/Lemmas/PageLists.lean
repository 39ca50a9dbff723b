import Mathlib.Algebra.BigOperators.Group.Finset.Basic
import Mathlib.Data.List.Perm.Subperm
import Memcached.Lib.Linked
import Memcached.Lib.Ownership
import Memcached.Exstore.Engine

/-!
# The lists of pages

A page is at home on one list: while it is free, on the list of its free bucket or on the default list, and otherwise
on the list of its bucket. Of an engine only its `lists` matter here: the links, the homes and the heads.
-/

namespace Memcached.Exstore

open Function (update update_self update_of_ne)
open Linked (Walk)

/-! ## Lists and homes -/

inductive Place
  | free
  | free_bucket (b : Nat)
  | bucket (b : Nat)
  deriving DecidableEq

/-- The list that the page is put on when it is freed. -/
def Page.freed (pg : Page) : Place := if pg.free_bucket ≠ 0 then .free_bucket pg.free_bucket else .free

def Page.home (pg : Page) : Place := if pg.free then pg.freed else .bucket pg.bucket

@[ext]
structure Lists where
  next : Nat → Option Nat
  home : Nat → Place
  freed : Nat → Place
  head : Place → Option Nat
  page_count : Nat
  page_free : Nat
  page_bucketcount : Nat

def Engine.head (e : Engine) : Place → Option Nat
  | .free => e.page_freelist
  | .free_bucket b => e.free_page_buckets b
  | .bucket b => e.page_buckets b

def Engine.lists (e : Engine) : Lists where
  next p := (e.pages p).next
  home p := (e.pages p).home
  freed p := (e.pages p).freed
  head := e.head
  page_count := e.page_count
  page_free := e.page_free
  page_bucketcount := e.page_bucketcount

/-- `L` are the lists that the links spell, of the pages from `k` on. -/
structure Listed (k : Nat) (l : Lists) (L : Place → List Nat) : Prop where
  walk : ∀ i, Walk l.next (l.head i) (L i)
  nodup : ∀ i, (L i).Nodup
  home : ∀ i, ∀ p ∈ L i, l.home p = i
  range : ∀ i, ∀ p ∈ L i, k ≤ p ∧ p < l.page_count
  all : ∀ p, k ≤ p → p < l.page_count → p ∈ L (l.home p)
  count : l.page_free = (L .free).length + ∑ b ∈ Finset.range l.page_bucketcount, (L (.free_bucket b)).length
  bound : ∀ p b, k ≤ p → p < l.page_count → l.home p = .free_bucket b ∨ l.freed p = .free_bucket b →
    b < l.page_bucketcount

variable {k : Nat} {l : Lists} {L : Place → List Nat} {i j : Place} {p q : Nat} {pre post rest : List Nat}

theorem Listed.not_mem (h : Listed k l L) (hp : p ∈ L i) (hij : j ≠ i) : p ∉ L j :=
  fun hj => hij ((h.home j p hj).symm.trans (h.home i p hp))

theorem Listed.length_le (h : Listed k l L) (i : Place) : (L i).length ≤ l.page_count := by
  have hsub : L i ⊆ List.range l.page_count := fun p hp => List.mem_range.mpr (h.range i p hp).2
  simpa using ((h.nodup i).subperm hsub).length_le

/-! ## Walks -/

theorem walk_head {next : Nat → Option Nat} {o : Option Nat} {xs : List Nat} (h : Walk next o xs) : o = xs.head? := by
  cases xs with
  | nil => exact h
  | cons x xs => exact h.1

theorem walk_mid {next : Nat → Option Nat} {o : Option Nat} (h : Walk next o (pre ++ p :: post)) :
    next p = post.head? := by
  induction pre generalizing o with
  | nil => exact walk_head h.2
  | cons x pre ih => exact ih h.2

/-- The list without `p`, if what led to `p` leads to what was after it. -/
theorem walk_unlink {next : Nat → Option Nat} {o : Option Nat} (h : Walk next o (pre ++ q :: p :: post))
    (hq : q ∉ pre ++ post) : Walk (update next q (next p)) o (pre ++ q :: post) := by
  induction pre generalizing o with
  | nil =>
      refine ⟨h.1, ?_⟩
      rw [update_self]
      exact h.2.2.congr fun x hx => update_of_ne (fun he => hq (by simpa [he] using hx)) ..
  | cons x pre ih =>
      refine ⟨h.1, ?_⟩
      have hx : x ≠ q := fun he => hq (by simp [he])
      rw [update_of_ne hx]
      exact ih h.2 fun hm => hq (List.mem_cons_of_mem _ hm)

/-! ## Free pages -/

def Place.is_free : Place → Bool
  | .free | .free_bucket _ => true
  | .bucket _ => false

/-- How many pages are on the free lists. -/
def total_free (n : Nat) (L : Place → List Nat) : Nat :=
  (L .free).length + ∑ b ∈ Finset.range n, (L (.free_bucket b)).length

theorem total_free_bucket {n b : Nat} {xs : List Nat} : total_free n (update L (.bucket b) xs) = total_free n L := by
  simp [total_free]

theorem total_free_cons {n : Nat} (hi : i.is_free) (hn : ∀ b, i = .free_bucket b → b < n) {x : Nat} {xs : List Nat}
    (hL : L i = x :: xs) : total_free n L = total_free n (update L i xs) + 1 := by
  cases i with
  | bucket b => cases hi
  | free => simp [total_free, hL]; omega
  | free_bucket b =>
      have hb := Finset.mem_range.mpr (hn b rfl)
      have hrest : ∀ c ∈ (Finset.range n).erase b, (update L (.free_bucket b) xs (.free_bucket c)).length =
          (L (.free_bucket c)).length := fun c hc => by
        rw [update_of_ne (by simpa using Finset.ne_of_mem_erase hc)]
      simp only [total_free]
      rw [← Finset.add_sum_erase _ _ hb, ← Finset.add_sum_erase _ _ hb, Finset.sum_congr rfl hrest, hL, update_self,
        update_of_ne (by simp), List.length_cons]
      omega

/-! ## A page comes to a list -/

section
variable {m : Place} {y : Nat}

theorem mem_put (hnot : ∀ m, p ∉ L m) (hy : y ∈ update L j (p :: L j) m) : (m = j ∧ y = p) ∨ (y ∈ L m ∧ y ≠ p) := by
  by_cases hm : m = j
  · subst hm
    rw [update_self] at hy
    rcases List.mem_cons.mp hy with hy | hy
    · exact .inl ⟨rfl, hy⟩
    · exact .inr ⟨hy, ne_of_mem_of_not_mem hy (hnot _)⟩
  · rw [update_of_ne hm] at hy
    exact .inr ⟨hy, ne_of_mem_of_not_mem hy (hnot _)⟩

theorem mem_put_of_mem (hy : y ∈ L m) : y ∈ update L j (p :: L j) m := by
  by_cases hm : m = j
  · subst hm
    rw [update_self]
    exact List.mem_cons_of_mem _ hy
  · rwa [update_of_ne hm]

theorem nodup_put (hnot : ∀ m, p ∉ L m) (hnd : ∀ m, (L m).Nodup) (m : Place) : (update L j (p :: L j) m).Nodup := by
  by_cases hm : m = j
  · subst hm
    rw [update_self]
    exact List.nodup_cons.mpr ⟨hnot _, hnd _⟩
  · rw [update_of_ne hm]
    exact hnd m

end

/-! ## A page moves -/

/-- `p` leaves the list `i` and becomes the head of the list `j`: `hwalk` and `hnext` say how the links are set for it. -/
theorem Listed.move {l' : Lists} (h : Listed k l L) (hL : L i = pre ++ p :: post) (hij : j ≠ i)
    (hhome : l'.home = update l.home p j) (hfreed : l'.freed = l.freed) (hcount : l'.page_count = l.page_count)
    (hbuckets : l'.page_bucketcount = l.page_bucketcount)
    (hwalk : ∀ m, m ≠ j → Walk l'.next (l'.head m) (update L i (pre ++ post) m)) (hhead : l'.head j = some p)
    (hnext : Walk l'.next (l'.next p) (L j))
    (hfree : l'.page_free = total_free l.page_bucketcount (update (update L i (pre ++ post)) j (p :: L j)))
    (hbound : ∀ b, j = .free_bucket b → b < l.page_bucketcount) :
    Listed k l' (update (update L i (pre ++ post)) j (p :: L j)) := by
  have hpL : p ∈ L i := by simp [hL]
  have hnd := h.nodup i
  rw [hL] at hnd
  obtain ⟨L₁, hL₁⟩ : ∃ L₁, L₁ = update L i (pre ++ post) := ⟨_, rfl⟩
  have hj : L j = L₁ j := by rw [hL₁, update_of_ne hij]
  rw [← hL₁] at hwalk hfree ⊢
  rw [hj] at hnext hfree ⊢
  -- the lists without `p`
  have hcut (m : Place) (y : Nat) : y ∈ L₁ m ↔ y ∈ L m ∧ y ≠ p := by
    rw [hL₁]
    by_cases hm : m = i
    · subst hm
      have hp : p ∉ pre ++ post := (List.nodup_middle.mp hnd).notMem
      rw [update_self, hL, List.mem_append, List.mem_append, List.mem_cons]
      refine ⟨fun hy => ⟨hy.imp_right .inr, fun he => hp (he ▸ List.mem_append.mpr hy)⟩, fun ⟨hy, hne⟩ => ?_⟩
      exact hy.imp_right fun hy => hy.resolve_left hne
    · rw [update_of_ne hm]
      exact ⟨fun hy => ⟨hy, fun he => h.not_mem hpL hm (he ▸ hy)⟩, And.left⟩
  have hnot (m : Place) : p ∉ L₁ m := fun hp => ((hcut m p).mp hp).2 rfl
  have hcut_nodup (m : Place) : (L₁ m).Nodup := by
    rw [hL₁]
    by_cases hm : m = i
    · subst hm
      rw [update_self]
      exact (List.nodup_middle.mp hnd).of_cons
    · rw [update_of_ne hm]
      exact h.nodup m
  refine ⟨fun m => ?_, nodup_put hnot hcut_nodup, fun m y hy => ?_, fun m y hy => ?_, fun y h0 hlt => ?_, ?_,
    fun y c hy0 hylt hc => ?_⟩
  · by_cases hm : m = j
    · subst hm
      rw [update_self, hhead]
      exact ⟨rfl, hnext⟩
    · rw [update_of_ne hm]
      exact hwalk m hm
  · rw [hhome]
    rcases mem_put hnot hy with ⟨rfl, rfl⟩ | ⟨hy, hne⟩
    · rw [update_self]
    · rw [update_of_ne hne]
      exact h.home m y ((hcut m y).mp hy).1
  · rw [hcount]
    rcases mem_put hnot hy with ⟨-, rfl⟩ | ⟨hy, -⟩
    · exact h.range i y hpL
    · exact h.range m y ((hcut m y).mp hy).1
  · rw [hhome]
    by_cases hy : y = p
    · subst hy
      rw [update_self, update_self]
      exact List.mem_cons_self
    · rw [update_of_ne hy]
      exact mem_put_of_mem ((hcut _ y).mpr ⟨h.all y h0 (hcount ▸ hlt), hy⟩)
  · rw [hbuckets]
    exact hfree
  · rw [hbuckets]
    rw [hhome, hfreed] at hc
    rw [hcount] at hylt
    by_cases hy : y = p
    · subst hy
      rw [update_self] at hc
      exact hc.elim (hbound c) fun hc => h.bound y c hy0 hylt (.inr hc)
    · rw [update_of_ne hy] at hc
      exact h.bound y c hy0 hylt hc

/-! ## A free page is opened -/

/-- The head `p` of the list `i` becomes the head of the list `j`. -/
def Lists.open_page (l : Lists) (p : Nat) (i j : Place) : Lists :=
  { l with
    next := update l.next p (l.head j)
    home := update l.home p j
    head := update (update l.head i (l.next p)) j (some p)
    page_free := l.page_free - 1 }

theorem Listed.open_page (h : Listed k l L) (hi : i.is_free) {b : Nat} (hp : l.head i = some p) :
    ∃ rest, L i = p :: rest ∧ Listed k (l.open_page p i (.bucket b)) (update (update L i rest) (.bucket b) (p :: L (.bucket b))) := by
  have hwalk := h.walk i
  have hnd := h.nodup i
  rw [hp] at hwalk
  cases hL : L i with
  | nil => rw [hL] at hwalk; cases hwalk
  | cons x rest =>
      rw [hL] at hwalk hnd
      obtain ⟨hx, hrest⟩ := hwalk
      obtain rfl := Option.some.inj hx
      have hij : .bucket b ≠ i := fun he => by rw [← he] at hi; cases hi
      have hpL : p ∈ L i := by simp [hL]
      have hframe {o : Option Nat} {ys : List Nat} (hw : Walk l.next o ys) (hys : p ∉ ys) :
          Walk (update l.next p (l.head (.bucket b))) o ys :=
        hw.congr fun y hy => update_of_ne (ne_of_mem_of_not_mem hy hys) ..
      refine ⟨rest, rfl, h.move (show L i = [] ++ p :: rest from hL) hij rfl rfl rfl rfl (fun m hm => ?_) (update_self ..) ?_ ?_ nofun⟩
      · simp only [Lists.open_page]
        rw [update_of_ne hm]
        by_cases hmi : m = i
        · subst hmi
          rw [update_self, update_self]
          exact hframe hrest (List.nodup_cons.mp hnd).1
        · rw [update_of_ne hmi, update_of_ne hmi]
          exact hframe (h.walk m) (h.not_mem hpL hmi)
      · simp only [Lists.open_page]
        rw [update_self]
        exact hframe (h.walk _) (h.not_mem hpL hij)
      · have hn (c : Nat) (hc : i = .free_bucket c) : c < l.page_bucketcount :=
          h.bound p c (h.range i p hpL).1 (h.range i p hpL).2 (.inl ((h.home i p hpL).trans hc))
        have hcount : l.page_free = total_free l.page_bucketcount L := h.count
        rw [total_free_cons hi hn hL] at hcount
        show l.page_free - 1 = total_free l.page_bucketcount (update (update L i rest) (.bucket b) (p :: L (.bucket b)))
        rw [total_free_bucket, hcount, Nat.add_sub_cancel]

/-! ## A page is freed -/

/-- The links around `p`, which follows `prev`. -/
def Lists.next_without (l : Lists) (p : Nat) : Option Nat → Nat → Option Nat
  | none => l.next
  | some q => update l.next q (l.next p)

def Lists.head_without (l : Lists) (p : Nat) (i : Place) : Option Nat → Place → Option Nat
  | none => update l.head i (l.next p)
  | some _ => l.head

/-- `p`, which follows `prev` on the list `i`, becomes the head of the list it goes to. -/
def Lists.free_page (l : Lists) (p : Nat) (i : Place) (prev : Option Nat) : Lists :=
  { l with
    next := update (l.next_without p prev) p (l.head_without p i prev (l.freed p))
    home := update l.home p (l.freed p)
    head := update (l.head_without p i prev) (l.freed p) (some p)
    page_free := l.page_free + 1 }

theorem Listed.unlinked (h : Listed k l L) (hL : L i = pre ++ p :: post) :
    Walk (l.free_page p i pre.getLast?).next (l.head_without p i pre.getLast? i) (pre ++ post) := by
  have hwalk := h.walk i
  have hnd := h.nodup i
  rw [hL] at hwalk hnd
  have hp : p ∉ pre ++ post := (List.nodup_middle.mp hnd).notMem
  rcases List.eq_nil_or_concat pre with rfl | ⟨pre', q, rfl⟩
  · simp only [List.getLast?_nil, Lists.free_page, Lists.next_without, Lists.head_without, update_self,
      List.nil_append] at hp ⊢
    rw [walk_mid hwalk, ← walk_head hwalk.2]
    exact hwalk.2.congr fun x hx => update_of_ne (ne_of_mem_of_not_mem hx hp) ..
  · simp only [List.concat_eq_append, List.append_assoc, List.singleton_append] at hwalk hnd hp ⊢
    have hq : q ∉ pre' ++ post := fun hm =>
      (List.nodup_cons.mp (List.nodup_middle.mp hnd)).1 (by simp only [List.mem_append, List.mem_cons] at hm ⊢; tauto)
    simp only [List.getLast?_append, List.getLast?_cons, List.getLast?_nil, Option.getD_none, Option.some_or,
      Lists.free_page, Lists.next_without, Lists.head_without]
    exact (walk_unlink hwalk hq).congr fun x hx => update_of_ne (ne_of_mem_of_not_mem hx hp) ..

theorem Listed.free_page (h : Listed k l L) {b : Nat} (hL : L (.bucket b) = pre ++ p :: post)
    (hfree : (l.freed p).is_free) :
    Listed k (l.free_page p (.bucket b) pre.getLast?)
      (update (update L (.bucket b) (pre ++ post)) (l.freed p) (p :: L (l.freed p))) := by
  have hij : l.freed p ≠ .bucket b := fun he => by rw [he] at hfree; cases hfree
  have hpL : p ∈ L (.bucket b) := by simp [hL]
  have hframe {m : Place} (hm : m ≠ .bucket b) : Walk (l.free_page p (.bucket b) pre.getLast?).next
      (l.head_without p (.bucket b) pre.getLast? m) (L m) := by
    have hnext : ∀ x ∈ L m, (l.free_page p (.bucket b) pre.getLast?).next x = l.next x := fun x hx => by
      simp only [Lists.free_page]
      rw [update_of_ne (ne_of_mem_of_not_mem hx (h.not_mem hpL hm))]
      cases hlast : pre.getLast? with
      | none => rfl
      | some q =>
          have hq : q ∈ L (.bucket b) := by
            rw [hL]
            exact List.mem_append_left _ (List.mem_of_getLast? hlast)
          have hxq : x ≠ q := ne_of_mem_of_not_mem hx (h.not_mem hq hm)
          exact update_of_ne hxq ..
    have hhead : l.head_without p (.bucket b) pre.getLast? m = l.head m := by
      cases pre.getLast? with
      | none => exact update_of_ne hm ..
      | some q => rfl
    rw [hhead]
    exact (h.walk m).congr hnext
  have hbound (c : Nat) (hc : l.freed p = .free_bucket c) : c < l.page_bucketcount :=
    h.bound p c (h.range _ p hpL).1 (h.range _ p hpL).2 (.inr hc)
  refine h.move hL hij rfl rfl rfl rfl (fun m hm => ?_) (update_self ..) ?_ ?_ hbound
  · have hhead : (l.free_page p (.bucket b) pre.getLast?).head m = l.head_without p (.bucket b) pre.getLast? m :=
      update_of_ne hm ..
    rw [hhead]
    by_cases hmb : m = .bucket b
    · subst hmb
      rw [update_self]
      exact h.unlinked hL
    · rw [update_of_ne hmb]
      exact hframe hmb
  · have hnext : (l.free_page p (.bucket b) pre.getLast?).next p =
        l.head_without p (.bucket b) pre.getLast? (l.freed p) := update_self ..
    rw [hnext]
    exact hframe hij
  · have hcount : l.page_free = total_free l.page_bucketcount L := h.count
    show l.page_free + 1 = total_free l.page_bucketcount _
    rw [total_free_cons hfree hbound (update_self ..), Function.update_idem, ← update_of_ne hij (pre ++ post) L,
      Function.update_eq_self, total_free_bucket, hcount]

/-! ## A page is put on its free list -/

def Lists.push_free (l : Lists) (p : Nat) : Lists :=
  { l with
    next := update l.next p (l.head (l.freed p))
    head := update l.head (l.freed p) (some p)
    page_free := l.page_free + 1 }

theorem Listed.push_free (h : Listed (p + 1) l L) (hlt : p < l.page_count) (hhome : l.home p = l.freed p)
    (hfree : (l.freed p).is_free) (hbound : ∀ b, l.freed p = .free_bucket b → b < l.page_bucketcount) :
    Listed p (l.push_free p) (update L (l.freed p) (p :: L (l.freed p))) := by
  have hnot (i : Place) : p ∉ L i := fun hp => Nat.not_succ_le_self p (h.range i p hp).1
  have hframe (i : Place) : Walk (update l.next p (l.head (l.freed p))) (l.head i) (L i) :=
    (h.walk i).congr fun x hx => update_of_ne (ne_of_mem_of_not_mem hx (hnot i)) ..
  refine ⟨fun i => ?_, nodup_put hnot h.nodup, fun i y hy => ?_, fun i y hy => ?_, fun y hy hylt => ?_, ?_,
    fun y c hy hylt hc => ?_⟩
  · simp only [Lists.push_free]
    by_cases hi : i = l.freed p
    · subst hi
      rw [update_self, update_self]
      refine ⟨rfl, ?_⟩
      rw [update_self]
      exact hframe _
    · rw [update_of_ne hi, update_of_ne hi]
      exact hframe i
  · rcases mem_put hnot hy with ⟨rfl, rfl⟩ | ⟨hy, -⟩
    · exact hhome
    · exact h.home i y hy
  · rcases mem_put hnot hy with ⟨rfl, rfl⟩ | ⟨hy, -⟩
    · exact ⟨le_rfl, hlt⟩
    · exact ⟨(Nat.le_succ p).trans (h.range i y hy).1, (h.range i y hy).2⟩
  · show y ∈ update L (l.freed p) (p :: L (l.freed p)) (l.home y)
    rcases Nat.eq_or_lt_of_le hy with rfl | hy
    · rw [hhome, update_self]
      exact List.mem_cons_self
    · exact mem_put_of_mem (h.all y hy hylt)
  · have hcount : l.page_free = total_free l.page_bucketcount L := h.count
    show l.page_free + 1 = total_free l.page_bucketcount _
    rw [total_free_cons hfree hbound (update_self ..), Function.update_idem, Function.update_eq_self, hcount]
  · rcases Nat.eq_or_lt_of_le hy with rfl | hy
    · rcases hc with hc | hc
      · exact hbound c (hhome.symm.trans hc)
      · exact hbound c hc
    · exact h.bound y c hy hylt hc

end Memcached.Exstore

import Mathlib.Logic.Function.Basic
import Mathlib.Data.List.Basic
import Mathlib.Data.List.Nodup

/-!
# Doubly linked queues

A queue is kept in two link functions and two ends. `q.Holds l` says that the links spell the list `l`, read from the
head by `next` and from the tail by `prev`; each operation on the links is one on the list.
-/

namespace Linked

universe u

@[ext]
structure Queue (α : Type u) where
  next : α → Option α
  prev : α → Option α
  head : Option α
  tail : Option α

variable {α : Type u}

/-- The links along `l`, between a node before it and one after it. -/
def Chain (next prev : α → Option α) : Option α → List α → Option α → Prop
  | _, [], _ => True
  | p, x :: xs, n => prev x = p ∧ next x = xs.head?.or n ∧ Chain next prev (some x) xs n

structure Queue.Holds (q : Queue α) (l : List α) : Prop where
  nodup : l.Nodup
  head : q.head = l.head?
  tail : q.tail = l.getLast?
  chain : Chain q.next q.prev none l none

/-- From `o`, by `next`, the nodes `l` and then the end. -/
def Walk (next : α → Option α) : Option α → List α → Prop
  | o, [] => o = none
  | o, x :: xs => o = some x ∧ Walk next (next x) xs

/-! ## Chains -/

section
variable {next prev next' prev' : α → Option α} {p n : Option α} {xs ys : List α}

theorem chain_append :
    Chain next prev p (xs ++ ys) n ↔
      Chain next prev p xs (ys.head?.or n) ∧ Chain next prev (xs.getLast?.or p) ys n := by
  induction xs generalizing p with
  | nil => simp [Chain]
  | cons x xs ih =>
      have hlast : (x :: xs).getLast?.or p = xs.getLast?.or (some x) := by
        cases h : xs.getLast? <;> simp [List.getLast?_cons, h]
      have hhead : (xs ++ ys).head?.or n = xs.head?.or (ys.head?.or n) := by cases xs <;> simp
      simp only [List.cons_append, Chain, ih, hlast, hhead, and_assoc]

theorem Chain.reverse (h : Chain next prev p xs n) : Chain prev next n xs.reverse p := by
  induction xs generalizing p with
  | nil => trivial
  | cons x xs ih =>
      obtain ⟨hp, hn, hc⟩ := h
      rw [List.reverse_cons, chain_append]
      exact ⟨ih hc, by simpa using hn, by simpa using hp, trivial⟩

theorem Chain.walk (h : Chain next prev p xs none) : Walk next xs.head? xs := by
  induction xs generalizing p with
  | nil => rfl
  | cons x xs ih =>
      obtain ⟨-, hn, hc⟩ := h
      refine ⟨rfl, ?_⟩
      rw [hn, Option.or_none]
      exact ih hc

theorem Walk.unique {o : Option α} (h : Walk next o xs) (h' : Walk next o ys) : xs = ys := by
  induction xs generalizing o ys with
  | nil =>
      cases ys with
      | nil => rfl
      | cons y ys => cases h.symm.trans h'.1
  | cons x xs ih =>
      cases ys with
      | nil => cases h.1.symm.trans h'
      | cons y ys =>
          obtain rfl := Option.some.inj (h.1.symm.trans h'.1)
          rw [ih h.2 h'.2]

theorem Walk.of_append {o : Option α} (h : Walk next o (xs ++ ys)) : ∃ o', Walk next o' ys := by
  induction xs generalizing o with
  | nil => exact ⟨o, h⟩
  | cons x xs ih => exact ih h.2

theorem Walk.nodup {o : Option α} (h : Walk next o xs) : xs.Nodup := by
  induction xs generalizing o with
  | nil => exact List.nodup_nil
  | cons x xs ih =>
      refine List.nodup_cons.mpr ⟨fun hx => ?_, ih h.2⟩
      obtain ⟨pre, post, rfl⟩ := List.append_of_mem hx
      obtain ⟨o', h'⟩ := Walk.of_append h.2
      have hsame := Walk.unique h.2 h'.2
      have hlen := congrArg List.length hsame
      simp at hlen
      omega

theorem Walk.congr {o : Option α} (h : Walk next o xs) (hnext : ∀ x ∈ xs, next' x = next x) : Walk next' o xs := by
  induction xs generalizing o with
  | nil => exact h
  | cons x xs ih =>
      refine ⟨h.1, ?_⟩
      rw [hnext x (by simp)]
      exact ih h.2 fun y hy => hnext y (by simp [hy])

theorem Chain.congr (h : Chain next prev p xs n) (hnext : ∀ x ∈ xs, next' x = next x)
    (hprev : ∀ x ∈ xs, prev' x = prev x) : Chain next' prev' p xs n := by
  induction xs generalizing p with
  | nil => trivial
  | cons x xs ih =>
      obtain ⟨hp, hn, hc⟩ := h
      exact ⟨(hprev x (by simp)).trans hp, (hnext x (by simp)).trans hn,
        ih hc (fun y hy => hnext y (by simp [hy])) fun y hy => hprev y (by simp [hy])⟩

end

/-! ## Singly linked lists

A list that ends in a null link is extended by a list at its last node, and cut behind any of its nodes. -/

section
variable [DecidableEq α] {next : α → Option α} {o v : Option α} {t : α} {xs ys : List α}

instance Walk.decide : (o : Option α) → (l : List α) → Decidable (Walk next o l)
  | o, [] => inferInstanceAs (Decidable (o = none))
  | _, x :: xs => @instDecidableAnd _ _ _ (Walk.decide (next x) xs)

theorem Walk.update (h : Walk next o xs) (ht : t ∉ xs) : Walk (Function.update next t v) o xs :=
  h.congr fun _ hx => Function.update_of_ne (ne_of_mem_of_not_mem hx ht) ..

omit [DecidableEq α] in
theorem Walk.suffix (h : Walk next o (xs ++ t :: ys)) : Walk next (next t) ys := by
  obtain ⟨o', h'⟩ := Walk.of_append h
  exact h'.2

omit [DecidableEq α] in
theorem Walk.not_mem_mid (h : Walk next o (xs ++ t :: ys)) : t ∉ xs ∧ t ∉ ys ∧ ∀ x ∈ xs, x ∉ ys := by
  obtain ⟨-, hnd, hne⟩ := List.nodup_append.mp h.nodup
  exact ⟨fun hm => hne t hm t (by simp) rfl, (List.nodup_cons.mp hnd).1,
    fun x hx hm => hne x hx x (by simp [hm]) rfl⟩

/-- The nodes up to `t` stay, and what `t` is linked to comes after them. -/
theorem Walk.relink {zs : List α} (h : Walk next o (xs ++ t :: ys)) (hzs : Walk next v zs) (ht : t ∉ zs) :
    Walk (Function.update next t v) o (xs ++ t :: zs) := by
  have hxs := h.not_mem_mid.1
  induction xs generalizing o with
  | nil =>
      refine ⟨h.1, ?_⟩
      rw [Function.update_self]
      exact hzs.update ht
  | cons x xs ih =>
      obtain ⟨hne, hnot⟩ : t ≠ x ∧ t ∉ xs := by simpa using hxs
      refine ⟨h.1, ?_⟩
      rw [Function.update_of_ne (Ne.symm hne)]
      exact ih h.2 hnot

/-- The list is cut in two behind `t`. -/
theorem Walk.cut (h : Walk next o (xs ++ t :: ys)) :
    Walk (Function.update next t none) o (xs ++ [t]) ∧ Walk (Function.update next t none) (next t) ys :=
  ⟨h.relink rfl (by simp), h.suffix.update h.not_mem_mid.2.1⟩

end

/-! ## Operations -/

section
variable [DecidableEq α]

namespace Queue

/-- `x` becomes the new head. -/
def push_front (q : Queue α) (x : α) : Queue α where
  next := Function.update q.next x q.head
  prev := match q.head with
    | some y => Function.update (Function.update q.prev x none) y (some x)
    | none => Function.update q.prev x none
  head := some x
  tail := if q.tail = none then some x else q.tail

/-- `x` becomes the new tail. -/
def push_back (q : Queue α) (x : α) : Queue α where
  next := match q.tail with
    | some y => Function.update (Function.update q.next x none) y (some x)
    | none => Function.update q.next x none
  prev := Function.update q.prev x q.tail
  head := if q.head = none then some x else q.head
  tail := some x

/-- `x` is taken out; its own links stay. -/
def remove (q : Queue α) (x : α) : Queue α where
  next := match q.prev x with
    | some y => Function.update q.next y (q.next x)
    | none => q.next
  prev := match q.next x with
    | some y => Function.update q.prev y (q.prev x)
    | none => q.prev
  head := if q.head = some x then q.next x else q.head
  tail := if q.tail = some x then q.prev x else q.tail

/-- `x`, which follows `y`, is moved before it. -/
def swap (q : Queue α) (y x : α) : Queue α where
  next := Function.update (Function.update (match q.prev y with
    | some z => Function.update q.next z (some x)
    | none => q.next) y (q.next x)) x (some y)
  prev := Function.update (Function.update (match q.next x with
    | some z => Function.update q.prev z (some y)
    | none => q.prev) x (q.prev y)) y (some x)
  head := if q.head = some y then some x else q.head
  tail := if q.tail = some x then some y else q.tail

variable {q : Queue α} {l : List α} {x y : α}

omit [DecidableEq α] in
theorem Holds.congr {q' : Queue α} (h : q.Holds l) (hhead : q'.head = q.head) (htail : q'.tail = q.tail)
    (hnext : ∀ x ∈ l, q'.next x = q.next x) (hprev : ∀ x ∈ l, q'.prev x = q.prev x) : q'.Holds l :=
  ⟨h.nodup, hhead.trans h.head, htail.trans h.tail, h.chain.congr hnext hprev⟩

theorem Holds.push_front (h : q.Holds l) (hx : x ∉ l) : (q.push_front x).Holds (x :: l) := by
  have hnext (y) (hy : y ∈ l) : (q.push_front x).next y = q.next y :=
    Function.update_of_ne (ne_of_mem_of_not_mem hy hx) ..
  cases l with
  | nil => exact ⟨by simp, rfl, by simp [Queue.push_front, h.tail], by simp [Chain, Queue.push_front, h.head]⟩
  | cons y l =>
      have hhead : q.head = some y := h.head
      obtain ⟨-, hn, hc⟩ := h.chain
      obtain ⟨hy, hnd⟩ := List.nodup_cons.mp h.nodup
      have hxy : y ≠ x := fun he => hx (by simp [he])
      have hprev (z) (hz : z ∈ l) : (q.push_front x).prev z = q.prev z := by
        have hzy : z ≠ y := fun he => hy (he ▸ hz)
        have hzx : z ≠ x := fun he => hx (by simp [← he, hz])
        simp [Queue.push_front, hhead, hzy, hzx]
      refine ⟨List.nodup_cons.mpr ⟨hx, h.nodup⟩, rfl, ?_, ?_, ?_, ?_, ?_, ?_⟩
      · simp [Queue.push_front, h.tail]
      · simp [Queue.push_front, hhead, hxy.symm]
      · simp [Queue.push_front, hhead]
      · simp [Queue.push_front, hhead]
      · exact (hnext y (by simp)).trans hn
      · exact hc.congr (fun z hz => hnext z (by simp [hz])) hprev

/-- The queue read from the tail. -/
def flip (q : Queue α) : Queue α where
  next := q.prev
  prev := q.next
  head := q.tail
  tail := q.head

omit [DecidableEq α] in
theorem Holds.flip (h : q.Holds l) : q.flip.Holds l.reverse where
  nodup := List.nodup_reverse.mpr h.nodup
  head := by simp [Queue.flip, h.tail]
  tail := by simp [Queue.flip, h.head]
  chain := h.chain.reverse

theorem Holds.push_back (h : q.Holds l) (hx : x ∉ l) : (q.push_back x).Holds (l ++ [x]) := by
  have h' := (h.flip.push_front (x := x) (by simpa using hx)).flip
  rw [List.reverse_cons, List.reverse_reverse] at h'
  exact h'

omit [DecidableEq α] in
theorem Holds.walk_next (h : q.Holds l) : Walk q.next q.head l := by
  rw [h.head]
  exact h.chain.walk

omit [DecidableEq α] in
theorem Holds.walk_prev (h : q.Holds l) : Walk q.prev q.tail l.reverse := h.flip.walk_next

section
variable {pre post : List α}

omit [DecidableEq α] in
theorem Holds.mid (h : q.Holds (pre ++ x :: post)) : q.prev x = pre.getLast? ∧ q.next x = post.head? := by
  obtain ⟨-, hp, hn, -⟩ := chain_append.mp h.chain
  exact ⟨by simpa using hp, by simpa using hn⟩

omit [DecidableEq α] in
theorem Holds.not_mem_mid (h : q.Holds (pre ++ x :: post)) : x ∉ pre ∧ x ∉ post ∧ ∀ y ∈ pre, y ∉ post := by
  obtain ⟨-, hnd, hne⟩ := List.nodup_append.mp h.nodup
  exact ⟨fun hm => hne x hm x (by simp) rfl, (List.nodup_cons.mp hnd).1,
    fun y hy hm => hne y hy y (by simp [hm]) rfl⟩

omit [DecidableEq α] in
theorem Holds.prev_of_head (h : q.Holds l) (hx : q.head = some x) : q.prev x = none := by
  rw [h.head] at hx
  cases l with
  | nil => cases hx
  | cons y l =>
      obtain rfl := Option.some.inj hx
      exact h.chain.1

omit [DecidableEq α] in
theorem Holds.next_of_tail (h : q.Holds l) (hx : q.tail = some x) : q.next x = none := h.flip.prev_of_head hx

omit [DecidableEq α] in
theorem Holds.next_ne (h : q.Holds (pre ++ x :: post)) : q.next x ≠ some x := fun he =>
  h.not_mem_mid.2.1 (List.mem_of_mem_head? (h.mid.2 ▸ he))

omit [DecidableEq α] in
theorem Holds.prev_ne (h : q.Holds (pre ++ x :: post)) : q.prev x ≠ some x := fun he =>
  h.not_mem_mid.1 (List.mem_of_getLast? (h.mid.1 ▸ he))

theorem Holds.remove_left (h : q.Holds (pre ++ x :: post)) :
    Chain (q.remove x).next (q.remove x).prev none pre post.head? ∧
      (q.remove x).head = (pre ++ post).head? := by
  obtain ⟨hprev, hnext⟩ := h.mid
  obtain ⟨hxpre, hxpost, hdisj⟩ := h.not_mem_mid
  have hpre := (chain_append.mp h.chain).1
  have hkeep (y) (hy : y ∈ pre) : (q.remove x).prev y = q.prev y := by
    cases post with
    | nil => simp [Queue.remove, hnext]
    | cons z post =>
        have hyz : y ≠ z := fun he => hdisj y hy (by simp [he])
        simp [Queue.remove, hnext, hyz]
  obtain rfl | ⟨pre, z, rfl⟩ := List.eq_nil_or_concat pre
  · exact ⟨trivial, by simp [Queue.remove, h.head, hnext]⟩
  · rw [List.concat_eq_append] at *
    have hz : z ∉ pre := by
      have hnd := (List.nodup_append.mp h.nodup).1
      exact fun hm => (List.nodup_append.mp hnd).2.2 z hm z (by simp) rfl
    have hlast : q.prev x = some z := by simpa using hprev
    obtain ⟨hc, hzp, -⟩ := chain_append.mp hpre
    refine ⟨chain_append.mpr ⟨?_, ?_, ?_, trivial⟩, ?_⟩
    · refine hc.congr (fun y hy => ?_) fun y hy => hkeep y (by simp [hy])
      have hyz : y ≠ z := fun he => hz (he ▸ hy)
      simp [Queue.remove, hlast, hyz]
    · exact (hkeep z (by simp)).trans hzp
    · simp [Queue.remove, hlast, hnext]
    · have hne : q.head ≠ some x := by
        rw [h.head]
        cases pre with
        | nil => simpa using fun he => hxpre (by simp [he])
        | cons a pre => simpa using fun he => hxpre (by simp [he])
      rw [show (q.remove x).head = q.head from if_neg hne, h.head]
      cases pre <;> simp

theorem Holds.remove_self (h : q.Holds (pre ++ x :: post)) :
    (q.remove x).next x = q.next x ∧ (q.remove x).prev x = q.prev x := by
  constructor
  · cases hp : q.prev x with
    | none => simp [Queue.remove, hp]
    | some y =>
        have hy : x ≠ y := fun he => h.prev_ne (hp.trans (congrArg some he.symm))
        simp [Queue.remove, hp, hy]
  · cases hn : q.next x with
    | none => simp [Queue.remove, hn]
    | some y =>
        have hy : x ≠ y := fun he => h.next_ne (hn.trans (congrArg some he.symm))
        simp [Queue.remove, hn, hy]

theorem Holds.remove_mid (h : q.Holds (pre ++ x :: post)) : (q.remove x).Holds (pre ++ post) := by
  obtain ⟨hleft, hhead⟩ := h.remove_left
  have hflip : q.flip.Holds (post.reverse ++ x :: pre.reverse) := by simpa using h.flip
  obtain ⟨hright, htail⟩ := hflip.remove_left
  have hback := hright.reverse
  simp only [List.head?_reverse, List.reverse_reverse] at hback
  refine ⟨?_, hhead, ?_, chain_append.mpr ⟨?_, ?_⟩⟩
  · exact h.nodup.sublist (by simp)
  · rw [← List.head?_reverse, List.reverse_append]
    exact htail
  · simpa using hleft
  · rw [Option.or_none]
    exact hback

theorem Holds.swap_left (h : q.Holds (pre ++ y :: x :: post)) :
    Chain (q.swap y x).next (q.swap y x).prev none pre (some x) ∧
      (q.swap y x).head = (pre ++ x :: y :: post).head? := by
  obtain ⟨hprev, hnext⟩ := h.mid
  obtain ⟨hypre, hypost, hdisj⟩ := h.not_mem_mid
  obtain ⟨hpre, -, -, -, hxnext, -⟩ := chain_append.mp h.chain
  have hxpre : x ∉ pre := fun hm => hdisj x hm (by simp)
  have hkeep (z) (hz : z ∈ pre) : (q.swap y x).prev z = q.prev z := by
    have hzy : z ≠ y := ne_of_mem_of_not_mem hz hypre
    have hzx : z ≠ x := ne_of_mem_of_not_mem hz hxpre
    cases post with
    | nil => simp [Queue.swap, hxnext, hzy, hzx]
    | cons w post =>
        have hzw : z ≠ w := fun he => hdisj z hz (by simp [he])
        simp [Queue.swap, hxnext, hzy, hzx, hzw]
  obtain rfl | ⟨pre, z, rfl⟩ := List.eq_nil_or_concat pre
  · exact ⟨trivial, by simp [Queue.swap, h.head]⟩
  · rw [List.concat_eq_append] at *
    have hz : z ∉ pre := by
      have hnd := (List.nodup_append.mp h.nodup).1
      exact fun hm => (List.nodup_append.mp hnd).2.2 z hm z (by simp) rfl
    have hlast : q.prev y = some z := by simpa using hprev
    have hzy : z ≠ y := ne_of_mem_of_not_mem (by simp) hypre
    have hzx : z ≠ x := ne_of_mem_of_not_mem (by simp) hxpre
    obtain ⟨hc, hzp, -⟩ := chain_append.mp hpre
    refine ⟨chain_append.mpr ⟨?_, ?_, ?_, trivial⟩, ?_⟩
    · refine hc.congr (fun w hw => ?_) fun w hw => hkeep w (by simp [hw])
      have hwz : w ≠ z := fun he => hz (he ▸ hw)
      have hwy : w ≠ y := ne_of_mem_of_not_mem (List.mem_append_left _ hw) hypre
      have hwx : w ≠ x := ne_of_mem_of_not_mem (List.mem_append_left _ hw) hxpre
      simp [Queue.swap, hlast, hwz, hwy, hwx]
    · exact (hkeep z (by simp)).trans hzp
    · simp [Queue.swap, hlast, hzy, hzx]
    · have hne : q.head ≠ some y := by
        rw [h.head]
        cases pre with
        | nil => simpa using hzy
        | cons a pre => simpa using fun he => hypre (by simp [he])
      rw [show (q.swap y x).head = q.head from if_neg hne, h.head]
      cases pre <;> simp

theorem Holds.swap (h : q.Holds (pre ++ y :: x :: post)) : (q.swap y x).Holds (pre ++ x :: y :: post) := by
  obtain ⟨hprev, -⟩ := h.mid
  have hxy : x ≠ y := by
    have hnd := (List.nodup_append.mp h.nodup).2.1
    exact fun he => (List.nodup_cons.mp hnd).1 (by simp [he])
  obtain ⟨-, -, -, hxprev, hxnext, -⟩ := chain_append.mp h.chain
  obtain ⟨hleft, hhead⟩ := h.swap_left
  have hflip : q.flip.Holds (post.reverse ++ x :: y :: pre.reverse) := by simpa using h.flip
  obtain ⟨hright, htail⟩ := hflip.swap_left
  have hback := hright.reverse
  rw [List.reverse_reverse] at hback
  refine ⟨?_, hhead, ?_, chain_append.mpr ⟨hleft, ?_, ?_, ?_, ?_, hback⟩⟩
  · exact (List.Perm.append_left pre (List.Perm.swap y x post)).nodup_iff.mpr h.nodup
  · exact (show (q.swap y x).tail = _ from htail).trans (by simp [List.getLast?_cons])
  · simp [Queue.swap, hxy, hprev]
  · simp [Queue.swap]
  · simp [Queue.swap]
  · simpa [Queue.swap, hxy.symm] using hxnext

end

theorem Holds.remove (h : q.Holds l) (hx : x ∈ l) : (q.remove x).Holds (l.erase x) := by
  obtain ⟨pre, post, rfl⟩ := List.append_of_mem hx
  have hpre : x ∉ pre := fun hm => (List.nodup_append.mp h.nodup).2.2 x hm x (by simp) rfl
  rw [List.erase_append_right _ hpre, List.erase_cons_head]
  exact h.remove_mid

/-- The first node keeps its own links when it is removed, and so may be removed once more. -/
theorem Holds.remove_again (h : q.Holds (x :: y :: l)) : (q.remove x).remove x = q.remove x := by
  obtain ⟨hprev, hnext⟩ := Holds.mid (show q.Holds ([] ++ x :: y :: l) from h)
  have hhead : q.head = some x := h.head
  have hxy : y ≠ x := fun he => (List.nodup_cons.mp h.nodup).1 (by simp [he])
  have htail : q.tail ≠ some x := fun he =>
    (List.nodup_cons.mp h.nodup).1 (List.mem_of_getLast? (by rw [← List.getLast?_cons_cons, ← h.tail, he]))
  simp only [List.getLast?_nil, List.head?_cons] at hprev hnext
  ext z : 2 <;> simp [Queue.remove, Function.update_apply, hprev, hnext, hhead, hxy, htail]

/-! ## Frame

An operation relinks only nodes of the queue and the node it is about. -/

omit [DecidableEq α] in
theorem Holds.mem_of_next (h : q.Holds l) (hx : x ∈ l) (hy : q.next x = some y) : y ∈ l := by
  obtain ⟨pre, post, rfl⟩ := List.append_of_mem hx
  have hn := h.mid.2 ▸ hy
  simp [List.mem_of_mem_head? hn]

omit [DecidableEq α] in
theorem Holds.mem_of_prev (h : q.Holds l) (hx : x ∈ l) (hy : q.prev x = some y) : y ∈ l := by
  obtain ⟨pre, post, rfl⟩ := List.append_of_mem hx
  have hp := h.mid.1 ▸ hy
  simp [List.mem_of_getLast? hp]

variable {z : α}

theorem Holds.push_front_links (h : q.Holds l) (hz : z ∉ l) (hzx : z ≠ x) :
    (q.push_front x).next z = q.next z ∧ (q.push_front x).prev z = q.prev z := by
  refine ⟨by simp [Queue.push_front, hzx], ?_⟩
  cases hh : q.head with
  | none => simp [Queue.push_front, hh, hzx]
  | some y =>
      have hzy : z ≠ y := fun he => hz (List.mem_of_mem_head? (by rw [← h.head, hh, he]; rfl))
      simp [Queue.push_front, hh, hzx, hzy]

theorem Holds.push_back_links (h : q.Holds l) (hz : z ∉ l) (hzx : z ≠ x) :
    (q.push_back x).next z = q.next z ∧ (q.push_back x).prev z = q.prev z :=
  (h.flip.push_front_links (by simpa using hz) hzx).symm

theorem Holds.remove_links (h : q.Holds l) (hx : x ∈ l) (hz : z ∉ l) :
    (q.remove x).next z = q.next z ∧ (q.remove x).prev z = q.prev z := by
  constructor
  · cases hp : q.prev x with
    | none => simp [Queue.remove, hp]
    | some y => simp [Queue.remove, hp, (ne_of_mem_of_not_mem (h.mem_of_prev hx hp) hz).symm]
  · cases hn : q.next x with
    | none => simp [Queue.remove, hn]
    | some y => simp [Queue.remove, hn, (ne_of_mem_of_not_mem (h.mem_of_next hx hn) hz).symm]

theorem Holds.swap_links (h : q.Holds l) (hx : x ∈ l) (hy : y ∈ l) (hz : z ∉ l) :
    (q.swap y x).next z = q.next z ∧ (q.swap y x).prev z = q.prev z := by
  have hzx := (ne_of_mem_of_not_mem hx hz).symm
  have hzy := (ne_of_mem_of_not_mem hy hz).symm
  constructor
  · cases hp : q.prev y with
    | none => simp [Queue.swap, hp, hzx, hzy]
    | some w => simp [Queue.swap, hp, hzx, hzy, (ne_of_mem_of_not_mem (h.mem_of_prev hy hp) hz).symm]
  · cases hn : q.next x with
    | none => simp [Queue.swap, hn, hzx, hzy]
    | some w => simp [Queue.swap, hn, hzx, hzy, (ne_of_mem_of_not_mem (h.mem_of_next hx hn) hz).symm]

end Queue

end

end Linked

import Memcached.Lib.Linked
import Memcached.MemoryLru.Items

/-!
# The queues of a store

The links of all items, read through the ends of one LRU, are one doubly linked queue. The functions of the queues are
the operations on it, and leave all but the links of an item alone.
-/

namespace Memcached.MemoryLru

open Linked

/-- An item without its links. -/
def Item.core (i : Item) : Item := { i with next := none, prev := none }

theorem Item.core_congr {β : Type} (g : Item → β) (hg : ∀ i, g i.core = g i) {i j : Item} (h : i.core = j.core) :
    g i = g j := by
  rw [← hg i, h, hg j]

namespace Store

/-- The queue of an LRU. -/
def queue (s : Store) (id : UInt8) : Queue Ptr where
  next p := (s.heap p).next
  prev p := (s.heap p).prev
  head := s.heads id
  tail := s.tails id

/-- From `s` to `s'` the queue of `id` became `q`, and nothing but links and ends changed. -/
structure Requeued (s s' : Store) (id : UInt8) (q : Queue Ptr) : Prop where
  queue : s'.queue id = q
  heads : ∀ j, j ≠ id → s'.heads j = s.heads j
  tails : ∀ j, j ≠ id → s'.tails j = s.tails j
  core : ∀ p, (s'.heap p).core = (s.heap p).core
  rest : s' = { s with heap := s'.heap, heads := s'.heads, tails := s'.tails }

section
variable {s s' : Store} {it : Ptr}

theorem modify_core {p : Ptr} {f : Item → Item} (hf : ∀ i, (f i).core = i.core) (q : Ptr) :
    ((s.modify p f).heap q).core = (s.heap q).core := by
  by_cases hq : q = p
  · subst hq; simp [modify, hf]
  · simp [modify, hq]

theorem modify?_core {p : Option Ptr} {f : Item → Item} (hf : ∀ i, (f i).core = i.core) (q : Ptr) :
    ((s.modify? p f).heap q).core = (s.heap q).core := by
  cases p with
  | none => rfl
  | some p => exact modify_core hf q

@[simp] theorem modify?_heads {p : Option Ptr} {f : Item → Item} : (s.modify? p f).heads = s.heads := by cases p <;> rfl

@[simp] theorem modify?_tails {p : Option Ptr} {f : Item → Item} : (s.modify? p f).tails = s.tails := by cases p <;> rfl

/-! ## The functions of the queues -/

theorem push_head_requeued (h : s.push_head it = some s') :
    Requeued s s' (s.heap it).slabs_clsid ((s.queue (s.heap it).slabs_clsid).push_front it) := by
  unfold push_head at h
  dsimp only at h
  split at h
  · cases h
  · next hassert =>
    obtain rfl := Option.some.inj h
    constructor
    case queue =>
      cases hhead : s.heads (s.heap it).slabs_clsid <;> ext p : 2 <;>
        simp [queue, Queue.push_front, modify?, modify, Function.update_apply, hhead] <;> grind
    case heads => exact fun j hj => by simp [modify, hj]
    case tails => exact fun j hj => by simp [modify, hj]
    case core =>
      intro p
      refine (modify?_core ?_ p).trans (modify_core ?_ p) <;> exact fun _ => rfl
    case rest => cases s.heads (s.heap it).slabs_clsid <;> rfl

theorem do_item_unlinktail_q_requeued (h : s.do_item_unlinktail_q it = some s') :
    Requeued s s' (s.heap it).slabs_clsid ((s.queue (s.heap it).slabs_clsid).remove it) := by
  unfold do_item_unlinktail_q at h
  dsimp only at h
  split at h
  · cases h
  · next hassert =>
    obtain rfl := Option.some.inj h
    constructor
    case queue =>
      cases hnext : (s.heap it).next <;> cases hprev : (s.heap it).prev <;> ext p : 2 <;>
        simp [queue, Queue.remove, modify?, modify, Function.update_apply, hnext, hprev] <;> grind
    case heads => exact fun j hj => by simp [hj]
    case tails => exact fun j hj => by simp [hj]
    case core =>
      intro p
      refine (modify?_core ?_ p).trans (modify?_core ?_ p) <;> exact fun _ => rfl
    case rest => cases (s.heap it).next <;> cases (s.heap it).prev <;> rfl

theorem do_item_linktail_q_requeued (h : s.do_item_linktail_q it = some s') :
    (s.heap it).it_flags = .one ∧ (s.heap it).nbytes = 0 ∧
      Requeued s s' (s.heap it).slabs_clsid ((s.queue (s.heap it).slabs_clsid).push_back it) := by
  unfold do_item_linktail_q at h
  dsimp only at h
  split at h
  · cases h
  · next hassert =>
    obtain rfl := Option.some.inj h
    refine ⟨by grind, by grind, ?_⟩
    constructor
    case queue =>
      cases htail : s.tails (s.heap it).slabs_clsid <;> ext p : 2 <;>
        simp [queue, Queue.push_back, modify?, modify, Function.update_apply, htail] <;> grind
    case heads => exact fun j hj => by simp [modify, hj]
    case tails => exact fun j hj => by simp [modify, hj]
    case core =>
      intro p
      refine (modify?_core ?_ p).trans (modify_core ?_ p) <;> exact fun _ => rfl
    case rest => cases s.tails (s.heap it).slabs_clsid <;> rfl

/-- At the head the crawler is unlinked from its neighbour; elsewhere it changes places with the item before it. -/
theorem do_item_crawl_q_requeued {search : Option Ptr} (h : s.do_item_crawl_q it = some (s', search)) :
    (search = none ∧ s' = s ∧ (s.heap it).prev = none ∧ (s.heap it).next = none) ∨
      (search = none ∧ (s.heap it).prev = none ∧ (s.heap it).next ≠ none ∧
        (s.tails (s.heap it).slabs_clsid ≠ some it →
          Requeued s s' (s.heap it).slabs_clsid ((s.queue (s.heap it).slabs_clsid).remove it))) ∨
      ∃ p, search = some p ∧ (s.heap it).prev = some p ∧
        ((s.heap p).prev ≠ some p →
          Requeued s s' (s.heap it).slabs_clsid ((s.queue (s.heap it).slabs_clsid).swap p it)) := by
  unfold do_item_crawl_q at h
  dsimp only at h
  split at h
  · cases h
  split at h
  · next hprev =>
    split at h
    · cases h
    next hhead =>
    rw [not_not] at hhead
    split at h
    · next hnext =>
      obtain ⟨rfl, rfl⟩ := Prod.mk.inj (Option.some.inj h)
      exact .inl ⟨rfl, rfl, hprev, hnext⟩
    · next n hnext =>
      split at h
      · cases h
      obtain ⟨rfl, rfl⟩ := Prod.mk.inj (Option.some.inj h)
      refine .inr (.inl ⟨rfl, hprev, by simp [hnext], fun htail => ?_⟩)
      constructor
      case queue =>
        ext p : 2 <;> simp [queue, Queue.remove, modify, Function.update_apply, hnext, hprev, hhead, htail] <;> grind
      case heads => exact fun j hj => by simp [modify, hj]
      case tails => exact fun j hj => rfl
      case core => exact fun p => by refine modify_core ?_ p; exact fun _ => rfl
      case rest => rfl
  · next p hprev =>
    split at h
    · cases h
    next hassert =>
    split at h
    · cases h
    next hbefore =>
    obtain ⟨rfl, rfl⟩ := Prod.mk.inj (Option.some.inj h)
    refine .inr (.inr ⟨p, rfl, hprev, fun hself => ?_⟩)
    clear h
    constructor
    case queue =>
      cases hnext : (s.heap it).next <;> cases hb : (s.heap p).prev <;> ext q : 2 <;>
        simp [queue, Queue.swap, modify?, modify, Function.update_apply, hnext, hb] <;> grind
    case heads => exact fun j hj => by simp [modify, hj]
    case tails => exact fun j hj => by simp [modify, hj]
    case core =>
      intro q
      refine (modify?_core ?_ q).trans ((modify_core ?_ q).trans ((modify_core ?_ q).trans (modify?_core ?_ q))) <;>
        exact fun _ => rfl
    case rest => cases (s.heap it).next <;> cases (s.heap p).prev <;> rfl

end

end Store

end Memcached.MemoryLru

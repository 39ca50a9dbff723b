import Mathlib.Data.UInt
import Mathlib.Data.FinEnum
import Mathlib.Algebra.BigOperators.Group.Finset.Piecewise
import Mathlib.Tactic.Abel
import Memcached.MemoryLru.Lemmas.ItemQueues

/-!
# Consistency of the queues, the hash table and the counters

The lists `l` that the queues hold, the `ITEM_LINKED` bits, the hash table and the counters all say the same. Between
the parts of a function only the queues and their sizes do (`Counted`).
-/

namespace Memcached.MemoryLru

open Linked

/-- An item, not a crawler. -/
def Ptr.is_item : Ptr → Bool
  | .item _ => true
  | .crawler _ => false

@[simp] theorem Ptr.is_item_item (n : Nat) : (Ptr.item n).is_item = true := rfl

@[simp] theorem Ptr.is_item_crawler (id : UInt8) : (Ptr.crawler id).is_item = false := rfl

/-- An item without its links, its LRU, its clocks and its references. -/
def Item.shape (i : Item) : Item :=
  { i with
    next := none, prev := none, time := 0, exptime := 0, refcount := 0, slabs_clsid := 0, cas := 0
    it_flags := { i.it_flags with fetched := false, active := false } }

theorem Item.shape_congr {β : Type} (g : Item → β) (hg : ∀ i, g i.shape = g i) {i j : Item} (h : i.shape = j.shape) :
    g i = g j := by
  rw [← hg i, h, hg j]

theorem Item.shape_of_core {i j : Item} (h : i.core = j.core) : i.shape = j.shape :=
  Item.core_congr Item.shape (fun _ => rfl) h

namespace Store

/-- The items of a queue, without the crawler. -/
def items (l : List Ptr) : List Ptr := l.filter Ptr.is_item

/-- The bytes that `f` counts for the items of a queue. -/
def bytes (s : Store) (f : Item → UInt64) (l : List Ptr) : UInt64 := ((items l).map fun p => f (s.heap p)).sum

structure Counted (s : Store) (l : UInt8 → List Ptr) : Prop where
  holds : ∀ id, (s.queue id).Holds (l id)
  clsid : ∀ id, ∀ p ∈ l id, (s.heap p).slabs_clsid = id
  sizes : ∀ id, s.sizes id = .ofNat (items (l id)).length
  sizes_bytes : ∀ id, s.sizes_bytes id = s.bytes Item.accounted (l id)

/-- What each item and each crawler must be like. -/
def Item.Kind (i : Item) : Ptr → Prop
  | .item _ => (¬ i.it_flags.slabbed → 2 ≤ i.nbytes) ∧ (i.it_flags.linked → ¬ i.it_flags.slabbed)
  | .crawler id => (i.it_flags = .zero ∨ i.it_flags = .one ∧ i.slabs_clsid = id) ∧ i.nbytes = 0 ∧ i.key = []

/-- What is linked is in the queue of its LRU and, if it is an item, in the hash table; all else is in neither. -/
structure Placed (s : Store) (l : UInt8 → List Ptr) (p : Ptr) : Prop where
  linked : p ∈ l (s.heap p).slabs_clsid ↔ (s.heap p).it_flags.linked
  table : ∀ k, s.table k = some p ↔ p.is_item ∧ (s.heap p).it_flags.linked ∧ (s.heap p).key = k
  kind : Item.Kind (s.heap p) p

/-- What `f` counts for the items of all queues. -/
def total (s : Store) (f : Item → UInt64) (l : UInt8 → List Ptr) : UInt64 := ∑ id, s.bytes f (l id)

structure Consistent (s : Store) (l : UInt8 → List Ptr) : Prop extends Counted s l where
  placed : ∀ p, Placed s l p
  curr_items : s.curr_items = s.total (fun _ => 1) l
  curr_bytes : s.curr_bytes = s.total Item.ntotal l

section
variable {s s' : Store} {l : UInt8 → List Ptr} {it p : Ptr} {id : UInt8}

/-! ## Queues and sizes -/

theorem bytes_congr {f : Item → UInt64} {xs : List Ptr} (h : ∀ p ∈ xs, f (s'.heap p) = f (s.heap p)) :
    s'.bytes f xs = s.bytes f xs := by
  have h' : (items xs).map (fun p => f (s'.heap p)) = (items xs).map fun p => f (s.heap p) :=
    List.map_congr_left fun p hp => h p (List.mem_of_mem_filter hp)
  simp only [bytes, h']

theorem bytes_cons {f : Item → UInt64} {xs : List Ptr} (hit : it.is_item) :
    s.bytes f (it :: xs) = f (s.heap it) + s.bytes f xs := by
  simp [bytes, items, hit]

theorem bytes_erase {f : Item → UInt64} {xs : List Ptr} (hit : it.is_item) (hmem : it ∈ xs) :
    s.bytes f (xs.erase it) = s.bytes f xs - f (s.heap it) := by
  have hperm := ((List.perm_cons_erase hmem).filter Ptr.is_item).map fun p => f (s.heap p)
  have h := hperm.sum_eq
  simp only [List.filter_cons, hit, ↓reduceIte, List.map_cons, List.sum_cons] at h
  simp only [bytes, items, h]
  abel

theorem length_erase {xs : List Ptr} (hit : it.is_item) (hmem : it ∈ xs) :
    (items xs).length = (items (xs.erase it)).length + 1 := by
  have h := ((List.perm_cons_erase hmem).filter Ptr.is_item).length_eq
  simpa [items, List.filter_cons, hit] using h

theorem total_update {f : Item → UInt64} {xs : List Ptr} :
    s.total f (Function.update l id xs) = s.total f l - s.bytes f (l id) + s.bytes f xs := by
  have hf : (fun j => s.bytes f (Function.update l id xs j)) =
      Function.update (fun j => s.bytes f (l j)) id (s.bytes f xs) := by
    funext j
    by_cases hj : j = id
    · subst hj; simp
    · simp [hj]
  have hsum := Finset.sum_update_of_mem (Finset.mem_univ id) (fun j => s.bytes f (l j)) (s.bytes f xs)
  have hsplit := Finset.add_sum_erase Finset.univ (fun j => s.bytes f (l j)) (Finset.mem_univ id)
  rw [total, hf, hsum, total, ← hsplit, Finset.sdiff_singleton_eq_erase]
  abel

theorem total_congr {f : Item → UInt64} (h : ∀ id, ∀ p ∈ l id, f (s'.heap p) = f (s.heap p)) :
    s'.total f l = s.total f l :=
  Finset.sum_congr rfl fun id _ => bytes_congr (h id)

theorem total_cons {f : Item → UInt64} (hit : it.is_item) :
    s.total f (Function.update l id (it :: l id)) = s.total f l + f (s.heap it) := by
  rw [total_update, bytes_cons hit]
  abel

theorem total_erase {f : Item → UInt64} (hit : it.is_item) (hmem : it ∈ l id) :
    s.total f (Function.update l id ((l id).erase it)) = s.total f l - f (s.heap it) := by
  rw [total_update, bytes_erase hit hmem]
  abel

theorem Counted.unique (hc : Counted s l) {i j : UInt8} (hi : p ∈ l i) (hj : p ∈ l j) : i = j :=
  (hc.clsid i p hi).symm.trans (hc.clsid j p hj)

theorem Counted.mem_clsid (hc : Counted s l) (h : p ∈ l id) : p ∈ l (s.heap p).slabs_clsid := by rwa [hc.clsid id p h]

theorem Requeued.counted {q : Queue Ptr} {xs : List Ptr} (hc : Counted s l) (h : Requeued s s' id q) (hq : q.Holds xs)
    (hxs : ∀ p ∈ xs, (s.heap p).slabs_clsid = id)
    (hlinks : ∀ p, p ∉ l id → p ∉ xs → q.next p = (s.heap p).next ∧ q.prev p = (s.heap p).prev) :
    (∀ j, (s'.queue j).Holds (Function.update l id xs j)) ∧
      ∀ j, ∀ p ∈ Function.update l id xs j, (s'.heap p).slabs_clsid = j := by
  have hclsid (p) : (s'.heap p).slabs_clsid = (s.heap p).slabs_clsid := Item.core_congr Item.slabs_clsid (fun _ => rfl) (h.core p)
  refine ⟨fun j => ?_, fun j p hp => ?_⟩
  · by_cases hj : j = id
    · subst hj
      simpa [h.queue] using hq
    · rw [Function.update_of_ne hj]
      have hother (p) (hp : p ∈ l j) : q.next p = (s.heap p).next ∧ q.prev p = (s.heap p).prev :=
        hlinks p (fun hp' => hj (hc.unique hp hp')) fun hp' => hj ((hc.clsid j p hp).symm.trans (hxs p hp'))
      exact (hc.holds j).congr (h.heads j hj) (h.tails j hj)
        (fun p hp => (congrFun (congrArg Queue.next h.queue) p).trans (hother p hp).1)
        fun p hp => (congrFun (congrArg Queue.prev h.queue) p).trans (hother p hp).2
  · rw [hclsid]
    by_cases hj : j = id
    · subst hj
      exact hxs p (by simpa using hp)
    · exact hc.clsid j p (by simpa [hj] using hp)

/-- A change to one item that, if it is queued, keeps its links, its LRU and its size. -/
theorem Counted.modify {f : Item → Item} (hc : Counted s l)
    (hkeep : ∀ id, p ∈ l id → (f (s.heap p)).next = (s.heap p).next ∧ (f (s.heap p)).prev = (s.heap p).prev ∧
      (f (s.heap p)).slabs_clsid = (s.heap p).slabs_clsid ∧ (f (s.heap p)).accounted = (s.heap p).accounted) :
    Counted (s.modify p f) l := by
  have hsame {β : Type} (g : Item → β) (hg : ∀ id, p ∈ l id → g (f (s.heap p)) = g (s.heap p)) (id q) (hq : q ∈ l id) :
      g ((s.modify p f).heap q) = g (s.heap q) := by
    by_cases hqp : q = p
    · subst hqp; simpa [Store.modify] using hg id hq
    · simp [Store.modify, hqp]
  refine ⟨fun id => ?_, fun id q hq => ?_, hc.sizes, fun id => ?_⟩
  · exact (hc.holds id).congr rfl rfl (hsame Item.next (fun id h => (hkeep id h).1) id)
      (hsame Item.prev (fun id h => (hkeep id h).2.1) id)
  · rw [hsame Item.slabs_clsid (fun id h => (hkeep id h).2.2.1) id q hq]
    exact hc.clsid id q hq
  · rw [bytes_congr (hsame Item.accounted (fun id h => (hkeep id h).2.2.2) id)]
    exact hc.sizes_bytes id

/-- Nothing but links, ends and sizes changed. -/
structure SameCore (s s' : Store) : Prop where
  core : ∀ p, (s'.heap p).core = (s.heap p).core
  rest : s' = { s with
    heap := s'.heap, heads := s'.heads, tails := s'.tails, sizes := s'.sizes, sizes_bytes := s'.sizes_bytes }

theorem SameCore.accounted (h : SameCore s s') (p : Ptr) : (s'.heap p).accounted = (s.heap p).accounted :=
  Item.core_congr Item.accounted (fun _ => rfl) (h.core p)

theorem SameCore.trans {s'' : Store} (h : SameCore s s') (h' : SameCore s' s'') : SameCore s s'' := by
  refine ⟨fun p => (h'.core p).trans (h.core p), ?_⟩
  rw [h'.rest, h.rest]

theorem do_item_link_q_core (h : s.do_item_link_q it = some s') : SameCore s s' := by
  simp only [do_item_link_q] at h
  split at h
  · cases h
  obtain ⟨s₁, hpush, h⟩ := Option.bind_eq_some_iff.mp h
  obtain rfl := Option.some.inj h
  have hre := push_head_requeued hpush
  exact ⟨hre.core, by rw [hre.rest]⟩

theorem do_item_unlink_q_core (h : s.do_item_unlink_q it = some s') : SameCore s s' := by
  simp only [do_item_unlink_q] at h
  obtain ⟨s₁, hunlink, h⟩ := Option.bind_eq_some_iff.mp h
  obtain rfl := Option.some.inj h
  have hre := do_item_unlinktail_q_requeued hunlink
  exact ⟨hre.core, by rw [hre.rest]⟩

theorem do_item_link_q_counted (hc : Counted s l) (hit : it.is_item) (hnew : ∀ id, it ∉ l id)
    (h : s.do_item_link_q it = some s') :
    Counted s' (Function.update l (s.heap it).slabs_clsid (it :: l (s.heap it).slabs_clsid)) := by
  have hsame := do_item_link_q_core h
  simp only [do_item_link_q] at h
  split at h
  · cases h
  obtain ⟨s₁, hpush, h⟩ := Option.bind_eq_some_iff.mp h
  obtain rfl := Option.some.inj h
  have hre := push_head_requeued hpush
  have hsizes : s₁.sizes = s.sizes := by rw [hre.rest]
  have hbytes : s₁.sizes_bytes = s.sizes_bytes := by rw [hre.rest]
  generalize hid : (s.heap it).slabs_clsid = id at *
  have hholds := hc.holds id
  obtain ⟨hq, hclsid⟩ := hre.counted hc (hholds.push_front (hnew id)) (by
      simp only [List.mem_cons, forall_eq_or_imp]
      exact ⟨hid, hc.clsid id⟩)
    fun p hp hp' => hholds.push_front_links hp fun he => hp' (by simp [he])
  refine ⟨hq, hclsid, fun j => ?_, fun j => ?_⟩
  · by_cases hj : j = id
    · subst hj
      simp [hsizes, hc.sizes, items, hit]
    · simp [hj, hsizes, hc.sizes]
  · rw [bytes_congr fun p _ => hsame.accounted p]
    by_cases hj : j = id
    · subst hj
      simp [hbytes, hc.sizes_bytes, bytes_cons hit, add_comm]
    · simp [hj, hbytes, hc.sizes_bytes]

theorem do_item_unlink_q_counted (hc : Counted s l) (hit : it.is_item) (hmem : it ∈ l (s.heap it).slabs_clsid)
    (h : s.do_item_unlink_q it = some s') :
    Counted s' (Function.update l (s.heap it).slabs_clsid ((l (s.heap it).slabs_clsid).erase it)) := by
  have hsame := do_item_unlink_q_core h
  simp only [do_item_unlink_q] at h
  obtain ⟨s₁, hunlink, h⟩ := Option.bind_eq_some_iff.mp h
  obtain rfl := Option.some.inj h
  have hre := do_item_unlinktail_q_requeued hunlink
  have hsizes : s₁.sizes = s.sizes := by rw [hre.rest]
  have hbytes : s₁.sizes_bytes = s.sizes_bytes := by rw [hre.rest]
  generalize hid : (s.heap it).slabs_clsid = id at *
  have hholds := hc.holds id
  obtain ⟨hq, hclsid⟩ := hre.counted hc (hholds.remove hmem) (fun p hp => hc.clsid id p (List.mem_of_mem_erase hp))
    fun p hp _ => hholds.remove_links hmem hp
  refine ⟨hq, hclsid, fun j => ?_, fun j => ?_⟩
  · by_cases hj : j = id
    · subst hj
      simp [hsizes, hc.sizes, length_erase hit hmem]
    · simp [hj, hsizes, hc.sizes]
  · rw [bytes_congr fun p _ => hsame.accounted p]
    by_cases hj : j = id
    · subst hj
      simp [hbytes, hc.sizes_bytes, bytes_erase hit hmem]
    · simp [hj, hbytes, hc.sizes_bytes]

/-! ## Changes that keep the store consistent -/

/-- All that can tell two states of one item apart, for `Placed`, is the same. -/
theorem Placed.congr {l' : UInt8 → List Ptr} (h : Placed s l p) (hcore : (s'.heap p).core = (s.heap p).core)
    (hmem : ∀ id, p ∈ l' id ↔ p ∈ l id) (htable : ∀ k, s'.table k = some p ↔ s.table k = some p) : Placed s' l' p := by
  have hflags : (s'.heap p).it_flags = (s.heap p).it_flags := Item.core_congr Item.it_flags (fun _ => rfl) hcore
  have hclsid : (s'.heap p).slabs_clsid = (s.heap p).slabs_clsid := Item.core_congr Item.slabs_clsid (fun _ => rfl) hcore
  have hkey : (s'.heap p).key = (s.heap p).key := Item.core_congr Item.key (fun _ => rfl) hcore
  have hnbytes : (s'.heap p).nbytes = (s.heap p).nbytes := Item.core_congr Item.nbytes (fun _ => rfl) hcore
  refine ⟨by rw [hmem, hflags, hclsid]; exact h.linked, fun k => by rw [htable, hflags, hkey]; exact h.table k, ?_⟩
  have hkind := h.kind
  cases p with
  | item n => simpa only [Item.Kind, hflags, hnbytes] using hkind
  | crawler i => simpa only [Item.Kind, hflags, hnbytes, hclsid, hkey] using hkind

/-- An item may change its LRU and its clocks, if it stays in a queue. -/
theorem Placed.of_shape {l' : UInt8 → List Ptr} {n : Nat} (h : Placed s l (.item n))
    (hshape : (s'.heap (.item n)).shape = (s.heap (.item n)).shape)
    (hmem : .item n ∈ l' (s'.heap (.item n)).slabs_clsid ↔ .item n ∈ l (s.heap (.item n)).slabs_clsid)
    (htable : ∀ k, s'.table k = some (.item n) ↔ s.table k = some (.item n)) : Placed s' l' (.item n) := by
  have hlinked := Item.shape_congr (·.it_flags.linked) (fun _ => rfl) hshape
  have hslabbed := Item.shape_congr (·.it_flags.slabbed) (fun _ => rfl) hshape
  have hkey := Item.shape_congr Item.key (fun _ => rfl) hshape
  have hnbytes := Item.shape_congr Item.nbytes (fun _ => rfl) hshape
  refine ⟨by rw [hmem, hlinked]; exact h.linked, fun k => by rw [htable, hlinked, hkey]; exact h.table k, ?_⟩
  simpa only [Item.Kind, hlinked, hslabbed, hnbytes] using h.kind

theorem Consistent.of_one {q : Ptr} {l' : UInt8 → List Ptr} (hc : Consistent s l) (hcount : Counted s' l')
    (hplaced : Placed s' l' q) (hcore : ∀ p, p ≠ q → (s'.heap p).core = (s.heap p).core)
    (hmem : ∀ p, p ≠ q → ∀ id, p ∈ l' id ↔ p ∈ l id)
    (htable : ∀ p, p ≠ q → ∀ k, s'.table k = some p ↔ s.table k = some p)
    (hitems : s'.curr_items = s'.total (fun _ => 1) l') (hbytes : s'.curr_bytes = s'.total Item.ntotal l') :
    Consistent s' l' := by
  refine { hcount with placed := fun p => ?_, curr_items := hitems, curr_bytes := hbytes }
  by_cases hp : p = q
  · subst hp; exact hplaced
  · exact (hc.placed p).congr (hcore p hp) (hmem p hp) (htable p hp)

variable {n : Nat}

theorem Consistent.not_mem (hc : Consistent s l) (h : ¬ (s.heap p).it_flags.linked) (id : UInt8) : p ∉ l id :=
  fun hm => h ((hc.placed p).linked.mp (hc.mem_clsid hm))

@[simp] theorem modify_self {f : Item → Item} : (s.modify p f).heap p = f (s.heap p) := by simp [Store.modify]

theorem modify_of_ne {f : Item → Item} {q : Ptr} (h : q ≠ p) : (s.modify p f).heap q = s.heap q := by
  simp [Store.modify, h]

/-- A change to the clocks, the references or the hit markers of an item. -/
theorem Consistent.modify {f : Item → Item} (hc : Consistent s l)
    (hf : ∀ i, (f i).shape = i.shape ∧ (f i).next = i.next ∧ (f i).prev = i.prev ∧ (f i).slabs_clsid = i.slabs_clsid) :
    Consistent (s.modify (.item n) f) l := by
  obtain ⟨hs, hnext, hprev, hclsid⟩ := hf (s.heap (.item n))
  have hcount : Counted (s.modify (.item n) f) l :=
    hc.toCounted.modify fun _ _ => ⟨hnext, hprev, hclsid, Item.shape_congr Item.accounted (fun _ => rfl) hs⟩
  have hntotal (p) : ((s.modify (.item n) f).heap p).ntotal = (s.heap p).ntotal := by
    by_cases hp : p = .item n
    · subst hp
      rw [modify_self]
      exact Item.shape_congr Item.ntotal (fun _ => rfl) hs
    · rw [modify_of_ne hp]
  refine hc.of_one (q := .item n) hcount ?_ (fun p hp => by rw [modify_of_ne hp]) (fun _ _ _ => Iff.rfl) (fun _ _ _ => Iff.rfl)
    hc.curr_items ?_
  · refine (hc.placed _).of_shape ?_ ?_ fun _ => Iff.rfl
    · rw [modify_self, hs]
    · rw [modify_self, hclsid]
  · rw [total_congr fun id p _ => hntotal p]
    exact hc.curr_bytes

end

end Store

end Memcached.MemoryLru

import Memcached.Lib.Linked
import Memcached.MemoryHash.Assoc

/-!
# What an insert and a delete change
-/

namespace Memcached.MemoryHash

open Linked

namespace Assoc

/-- The items of the chain of a hash value. -/
def Chain (a : Assoc) (hv : UInt32) (l : List Nat) : Prop := Walk (fun p => (a.heap p).h_next) (a.read (a.bucket hv)) l

/-- Nothing but `h_next` links and the heads of buckets changed. -/
structure OnlyChains (a a' : Assoc) : Prop where
  items : ∀ p, { a'.heap p with h_next := (a.heap p).h_next } = a.heap p
  rest : a' = { a with
    heap := a'.heap, primary_hashtable := a'.primary_hashtable, old_hashtable := a'.old_hashtable }

/-- The item that a delete of `key` takes out of the chain `l`. -/
def found (a : Assoc) (key : Key) (l : List Nat) : Option Nat := l.find? fun p => (a.heap p).key = key

/-- Only the chain changed: it lost `it`, and the link of `it` is cleared. -/
structure Removed (a : Assoc) (hv : UInt32) (l : List Nat) (it : Nat) (a' : Assoc) : Prop where
  only : OnlyChains a a'
  chain : a'.Chain hv (l.erase it)
  cleared : (a'.heap it).h_next = none

/-- An insert of `it` and a delete of `key` touch only the hash chains. -/
def TouchesChains (a : Assoc) (it : Nat) (key : Key) (hv : UInt32) (l : List Nat) (fuel : Nat) : Prop :=
  OnlyChains a (a.assoc_insert it hv) ∧
    ∀ p, a.found key l = some p → ∃ a', a.assoc_delete fuel key hv = some a' ∧ Removed a hv l p a'

variable {a a' : Assoc} {key : Key} {hv : UInt32} {l : List Nat} {fuel it : Nat} {pos : Slot}

theorem modify_self {f : Item → Item} : (a.modify it f).heap it = f (a.heap it) := Function.update_self ..

theorem modify_of_ne {f : Item → Item} {p : Nat} (h : p ≠ it) : (a.modify it f).heap p = a.heap p :=
  Function.update_of_ne h ..

theorem OnlyChains.refl (a : Assoc) : OnlyChains a a := ⟨fun _ => rfl, rfl⟩

theorem OnlyChains.trans {a'' : Assoc} (h : OnlyChains a a') (h' : OnlyChains a' a'') : OnlyChains a a'' where
  items p := by
    rw [← h.items p, ← h'.items p]
  rest := by rw [h'.rest, h.rest]

theorem OnlyChains.bucket (h : OnlyChains a a') : a'.bucket hv = a.bucket hv := by
  rw [h.rest]
  rfl

theorem only_link (it : Nat) (p : Option Nat) : OnlyChains a (a.modify it fun i => { i with h_next := p }) where
  items q := by
    by_cases hq : q = it
    · subst hq
      rw [modify_self]
    · rw [modify_of_ne hq]
  rest := rfl

theorem only_write (pos : Slot) (p : Option Nat) : OnlyChains a (a.write pos p) := by
  cases pos with
  | primary b => exact ⟨fun _ => rfl, rfl⟩
  | old b => exact ⟨fun _ => rfl, rfl⟩
  | h_next it => exact only_link it p

theorem assoc_insert_only : OnlyChains a (a.assoc_insert it hv) := (only_link it _).trans (only_write _ _)

/-! ## The walk -/

/-- The slot before the first item of `l` with the key. -/
def slot_before (a : Assoc) (key : Key) : Slot → List Nat → Slot
  | pos, [] => pos
  | pos, p :: l => if (a.heap p).key = key then pos else slot_before a key (.h_next p) l

theorem hashitem_walk_eq (h : Walk (fun p => (a.heap p).h_next) (a.read pos) l) (hfuel : l.length < fuel) :
    a.hashitem_walk key fuel pos = some (a.slot_before key pos l) := by
  induction l generalizing fuel pos with
  | nil =>
      obtain ⟨fuel, rfl⟩ := Nat.exists_eq_add_of_lt hfuel
      have hnone : a.read pos = none := h
      simp [hashitem_walk, hnone, slot_before]
  | cons p l ih =>
      obtain ⟨hp, hl⟩ := h
      obtain _ | fuel := fuel
      · cases hfuel
      simp only [hashitem_walk, hp, slot_before]
      split
      · rfl
      · exact ih hl (Nat.lt_of_succ_lt_succ hfuel)

theorem read_write (a : Assoc) (pos : Slot) (p : Option Nat) : (a.write pos p).read pos = p := by
  cases pos with
  | primary b => exact Function.update_self ..
  | old b => exact Function.update_self ..
  | h_next it => simp [write, read, modify_self]

theorem read_write_of_ne {pos' : Slot} {p : Option Nat} (h : pos' ≠ pos) : (a.write pos p).read pos' = a.read pos' := by
  cases pos with
  | primary b =>
      cases pos' with
      | primary b' => exact Function.update_of_ne (fun he => h (by rw [he])) ..
      | old _ => rfl
      | h_next _ => rfl
  | old b =>
      cases pos' with
      | primary _ => rfl
      | old b' => exact Function.update_of_ne (fun he => h (by rw [he])) ..
      | h_next _ => rfl
  | h_next it =>
      cases pos' with
      | primary _ => rfl
      | old _ => rfl
      | h_next it' =>
          have hne : it' ≠ it := fun he => h (by rw [he])
          simp only [write, read, modify_of_ne hne]

theorem slot_before_mem (pos : Slot) (l : List Nat) :
    a.slot_before key pos l = pos ∨ ∃ p ∈ l, (a.heap p).key ≠ key ∧ a.slot_before key pos l = .h_next p := by
  induction l generalizing pos with
  | nil => exact .inl rfl
  | cons p l ih =>
      simp only [slot_before]
      split
      · exact .inl rfl
      · next hkey =>
        obtain h | ⟨q, hq, hne, h⟩ := ih (.h_next p)
        · exact .inr ⟨p, by simp, hkey, h⟩
        · exact .inr ⟨q, by simp [hq], hne, h⟩

/-- The slot before the item points to it, and a write of the next item there takes it out of the chain. -/
theorem walk_unlink (h : Walk (fun p => (a.heap p).h_next) (a.read pos) l) (hpos : ∀ p ∈ l, pos ≠ .h_next p)
    (hit : a.found key l = some it) :
    a.read (a.slot_before key pos l) = some it ∧
      Walk (fun p => (a.write (a.slot_before key pos l) (a.heap it).h_next).read (.h_next p))
        ((a.write (a.slot_before key pos l) (a.heap it).h_next).read pos) (l.erase it) := by
  induction l generalizing pos with
  | nil => cases hit
  | cons p l ih =>
      have hnodup := h.nodup
      obtain ⟨hp, hl⟩ := h
      by_cases hkey : (a.heap p).key = key
      · have hpit : p = it := by simpa [found, hkey] using hit
        subst hpit
        simp only [slot_before, hkey, ↓reduceIte, List.erase_cons_head, read_write]
        refine ⟨hp, hl.congr fun q hq => ?_⟩
        exact read_write_of_ne (hpos q (by simp [hq])).symm
      · have hit₁ : a.found key l = some it := by simpa [found, hkey] using hit
        have hmem : it ∈ l := List.mem_of_find?_eq_some hit₁
        have hnot : p ∉ l := (List.nodup_cons.mp hnodup).1
        have hne : p ≠ it := fun he => hnot (he ▸ hmem)
        obtain ⟨hread, hwalk⟩ := @ih (.h_next p) hl
          (fun q hq he => hnot (by injection he with he; rwa [he])) hit₁
        have hslot : pos ≠ a.slot_before key (.h_next p) l := by
          obtain he | ⟨q, hq, -, he⟩ := @slot_before_mem a key (.h_next p) l
          · rw [he]; exact hpos p (by simp)
          · rw [he]; exact hpos q (by simp [hq])
        have herase : (p :: l).erase it = p :: l.erase it := by simp [hne]
        rw [slot_before, if_neg hkey, herase]
        exact ⟨hread, (read_write_of_ne hslot).trans hp, hwalk⟩

/-! ## A delete -/

theorem bucket_ne_link (p : Nat) : a.bucket hv ≠ .h_next p := by
  simp only [bucket]
  split <;> simp

theorem assoc_delete_eq (h : a.Chain hv l) (hfuel : l.length < fuel) (hit : a.found key l = some it) :
    a.assoc_delete fuel key hv = some ((a.modify it fun i => { i with next := none }).write
      (a.slot_before key (a.bucket hv) l) (a.heap it).h_next) := by
  have hwalk := walk_unlink h (fun p _ => bucket_ne_link p) hit
  simp only [assoc_delete, _hashitem_before, hashitem_walk_eq h hfuel]
  simp [hwalk.1]

/-- A delete keeps to the hash chains exactly if the item is the last of its chain and of its LRU. -/
theorem removed_iff (h : a.Chain hv l) (hit : a.found key l = some it) :
    Removed a hv l it ((a.modify it fun i => { i with next := none }).write (a.slot_before key (a.bucket hv) l)
      (a.heap it).h_next) ↔ (a.heap it).next = none ∧ (a.heap it).h_next = none := by
  have hkey : (a.heap it).key = key := by simpa using List.find?_some hit
  have hslot : a.slot_before key (a.bucket hv) l ≠ .h_next it := by
    obtain he | ⟨q, -, hne, he⟩ := @slot_before_mem a key (a.bucket hv) l
    · rw [he]; exact bucket_ne_link it
    · rw [he]
      intro hq
      injection hq with hq
      exact hne (hq ▸ hkey)
  have hread : ((a.modify it fun i => { i with next := none }).write (a.slot_before key (a.bucket hv) l)
      (a.heap it).h_next).read (.h_next it) = (a.heap it).h_next := by
    rw [read_write_of_ne hslot.symm]
    simp [read, modify_self]
  constructor
  · rintro ⟨honly, -, hcleared⟩
    have hnext := congrArg Item.next (honly.items it)
    have hwritten := congrArg Item.next ((only_write (a := a.modify it fun i => { i with next := none })
      (a.slot_before key (a.bucket hv) l) (a.heap it).h_next).items it)
    rw [modify_self] at hwritten
    exact ⟨hnext.symm.trans hwritten, hread.symm.trans hcleared⟩
  · rintro ⟨hnext, hlink⟩
    have hsame : (a.modify it fun i => { i with next := none }) = a := by
      have hitem : ({ a.heap it with next := none } : Item) = a.heap it := by rw [← hnext]
      simp [modify, hitem]
    rw [hsame] at hread ⊢
    have hbucket : (a.write (a.slot_before key (a.bucket hv) l) (a.heap it).h_next).bucket hv = a.bucket hv :=
      (only_write _ _).bucket
    refine ⟨only_write _ _, ?_, hread.trans hlink⟩
    rw [Chain, hbucket]
    exact (walk_unlink h (fun p _ => bucket_ne_link p) hit).2

/-- Inserts and deletes touch only the hash chains, except that a delete keeps the `h_next` of its item, and clears the
`next` of the LRU: this shows unless both are null. -/
theorem touches_chains_iff (a : Assoc) (it : Nat) (key : Key) (hv : UInt32) (l : List Nat) (fuel : Nat)
    (h : a.Chain hv l) (hfuel : l.length < fuel) :
    TouchesChains a it key hv l fuel ↔
      ∀ p, a.found key l = some p → (a.heap p).next = none ∧ (a.heap p).h_next = none := by
  constructor
  · rintro ⟨-, hdelete⟩ p hp
    obtain ⟨a', ha', hremoved⟩ := hdelete p hp
    rw [assoc_delete_eq h hfuel hp] at ha'
    obtain rfl := Option.some.inj ha'
    exact (removed_iff h hp).mp hremoved
  · intro hlast
    exact ⟨assoc_insert_only, fun p hp => ⟨_, assoc_delete_eq h hfuel hp, (removed_iff h hp).mpr (hlast p hp)⟩⟩

/-- Two items in one LRU and in one chain: the delete of the first cuts the LRU in two. -/
def two_items : Assoc where
  heap p := if p = 0 then ⟨some 1, none, some 1, [97]⟩ else ⟨none, some 0, none, [98]⟩
  hashpower := 16
  primary_hashtable b := if b = 5 then some 0 else none
  old_hashtable _ := none
  expanding := false
  expand_bucket := 0

theorem two_items_chain : two_items.Chain 5 [0, 1] := ⟨rfl, rfl, rfl⟩

theorem touches_chains_iff_witness :
    TouchesChains two_items 2 [98] 5 [0, 1] 3 ↔
      ∀ p, two_items.found [98] [0, 1] = some p → (two_items.heap p).next = none ∧ (two_items.heap p).h_next = none :=
  touches_chains_iff two_items 2 [98] 5 [0, 1] 3 two_items_chain (by decide)

theorem delete_cuts_lru : ¬ TouchesChains two_items 2 [97] 5 [0, 1] 3 ∧
    ((two_items.assoc_delete 3 [97] 5).map fun a => ((a.heap 0).next, (a.heap 0).h_next)) = some (none, some 1) := by
  refine ⟨fun h => ?_, by decide⟩
  obtain ⟨a', ha', hremoved⟩ := h.2 0 (by decide)
  have hlink : ((two_items.assoc_delete 3 [97] 5).map fun a => (a.heap 0).h_next) = some (some 1) := by decide
  rw [ha'] at hlink
  have hkept : (a'.heap 0).h_next = some 1 := Option.some.inj hlink
  rw [hremoved.cleared] at hkept
  cases hkept

end Assoc

end Memcached.MemoryHash

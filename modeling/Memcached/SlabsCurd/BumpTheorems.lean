import Mathlib.Algebra.BigOperators.Group.Finset.Basic
import Memcached.SlabsCurd.Bump
import Memcached.SlabsCurd.Lemmas.Numbers

/-!
# Who owns the reference of a queued entry

An entry is queued if the bip buffer has room for it. The result of `lru_bump_async` starts as false and is not set, so
the reference is given back even where the entry that has it is queued.
-/

namespace Memcached.SlabsCurd

open MemoryLru
open Function (update_self update_of_ne)

variable {t : Nat} {cfg : Settings} {s s' : Bumps t} {b : Fin t} {it q : UInt64} {hv : UInt32} {me : Bipbuf}
  {bytes be : List UInt8}

/-- From `s` to `s'`, an entry for the item was put at the end of buffer `b`. -/
def Queued (s s' : Bumps t) (b : Fin t) (it : UInt64) (hv : UInt32) : Prop := s'.queued b = s.queued b ++ [(it, hv)]

/-- How many entries wait for the item, in all buffers. -/
def waiting (s : Bumps t) (it : UInt64) : Nat := ∑ b, (s.queued b).countP fun e => e.1 = it

/-- The references to the item once every entry is taken out, and gives back the one it has. -/
def drained (s : Bumps t) (it : UInt64) : UInt16 := (s.item it).refcount - .ofNat (waiting s it)

structure HandsOff (s : Bumps t) (b : Fin t) (it : UInt64) (hv : UInt32) : Prop where
  result : (lru_bump_async s b it hv).1 = true ↔ Queued s (lru_bump_async s b it hv).2 b it hv
  owned : Queued s (lru_bump_async s b it hv).2 b it hv →
    ((lru_bump_async s b it hv).2.item it).refcount = (s.item it).refcount + 1
  kept : ¬Queued s (lru_bump_async s b it hv).2 b it hv →
    ((lru_bump_async s b it hv).2.item it).refcount = (s.item it).refcount
  active : ∀ cfg : Settings, cfg.lru_segmented = true → (s.item it).it_flags.active = false →
    (s.item it).it_flags.fetched = true → (s.item it).lruid = Lru.COLD_LRU.bits →
    ∃ s', mark_fetched cfg s b it hv = some s' ∧ ((s'.item it).it_flags.active = true ↔ Queued s s' b it hv)
  drained : ∀ q, drained (lru_bump_async s b it hv).2 q = drained s q

/-! ## Entries -/

theorem of_le_bytes_append (h : 4 ≤ be.length) : of_le_bytes (be ++ bytes) = of_le_bytes be := by
  match be, h with
  | _ :: _ :: _ :: _ :: _, _ => rfl

theorem read_entry_append (h : 12 ≤ be.length) : read_entry (be ++ bytes) = read_entry be := by
  unfold read_entry
  rw [List.drop_append_of_le_length (by omega), List.drop_append_of_le_length (by omega), of_le_bytes_append (by omega),
    of_le_bytes_append (by rw [List.length_drop]; omega), of_le_bytes_append (by rw [List.length_drop]; omega)]

theorem length_le_bytes (v : UInt32) : (le_bytes v).length = 4 := by
  simp [le_bytes]

theorem of_le_bytes_front (v : UInt32) : of_le_bytes (le_bytes v ++ bytes) = v := by
  rw [of_le_bytes_append (Nat.le_of_eq (length_le_bytes v).symm), of_le_bytes_le_bytes]

theorem drop_le_bytes (v : UInt32) : (le_bytes v ++ bytes).drop 4 = bytes :=
  List.drop_left' (length_le_bytes v)

theorem halves (v : UInt64) : v.toUInt32.toUInt64 + (v >>> 32).toUInt32.toUInt64 <<< 32 = v := by
  rw [← UInt64.toNat_inj]
  have hlt := v.toNat_lt
  simp only [UInt64.toNat_add, UInt32.toNat_toUInt64, UInt64.toNat_toUInt32, UInt64.toNat_shiftLeft,
    UInt64.toNat_shiftRight, UInt64.reduceToNat, Nat.shiftLeft_eq, Nat.shiftRight_eq_div_pow, Nat.reduceMod,
    Nat.reducePow]
  omega

theorem length_entry_bytes : (entry_bytes it hv).length = 12 := by
  simp [entry_bytes, length_le_bytes]

theorem read_entry_le_bytes (low high hv : UInt32) : read_entry (le_bytes low ++ le_bytes high ++ le_bytes hv) =
    (low.toUInt64 + high.toUInt64 <<< 32, hv) := by
  generalize hbe : le_bytes low ++ le_bytes high ++ le_bytes hv = be
  have hlow : of_le_bytes be = low := by rw [← hbe, List.append_assoc, of_le_bytes_front]
  have hdrop : be.drop 4 = le_bytes high ++ le_bytes hv := by rw [← hbe, List.append_assoc, drop_le_bytes]
  have hhigh : of_le_bytes (be.drop 4) = high := by rw [hdrop, of_le_bytes_front]
  have hhv : of_le_bytes (be.drop 8) = hv := by
    rw [show be.drop 8 = (be.drop 4).drop 4 by rw [List.drop_drop], hdrop, drop_le_bytes, of_le_bytes_le_bytes]
  rw [read_entry, hlow, hhigh, hhv]

theorem read_entry_bytes : read_entry (entry_bytes it hv) = (it, hv) := by
  rw [entry_bytes, read_entry_le_bytes, halves]

theorem entries_append (h : sizeof_lru_bump_entry ∣ bytes.length) (hbe : be.length = sizeof_lru_bump_entry) :
    entries (bytes ++ be) = entries bytes ++ [read_entry be] := by
  obtain ⟨m, hm⟩ := h
  have hsize : sizeof_lru_bump_entry = 16 := rfl
  have hcount : (bytes ++ be).length / sizeof_lru_bump_entry = m + 1 := by
    rw [List.length_append, hm, hbe, hsize]
    omega
  have hbefore : bytes.length / sizeof_lru_bump_entry = m := by
    rw [hm, hsize]
    omega
  have hfront : ∀ k ∈ List.range m, read_entry ((bytes ++ be).drop (sizeof_lru_bump_entry * k)) =
      read_entry (bytes.drop (sizeof_lru_bump_entry * k)) := by
    intro k hk
    have hlt := List.mem_range.mp hk
    rw [List.drop_append_of_le_length (by rw [hm, hsize]; omega), read_entry_append]
    rw [List.length_drop, hm, hsize]
    omega
  rw [entries, hcount, List.range_succ, List.map_append, List.map_congr_left hfront, entries, hbefore, List.map_singleton,
    ← hm, List.drop_left]

/-! ## Buffers -/

theorem Fed.inv (h : Fed me) : me.Inv := by
  induction h with
  | create data => exact .new (by decide)
  | push h hr it hv ih => exact (push_spec ih.copy_in (hr : bipbuf_request (copy_in _ _ _) _ = _) (Nat.le_refl _)).1
  | @poll me k h hk ih =>
      cases hp : bipbuf_poll me (sizeof_lru_bump_entry * k) with
      | mk shown buf =>
      cases shown with
      | none =>
          rw [poll_eq ih hk] at hp
          split at hp
          · obtain ⟨-, rfl⟩ := Prod.mk.inj hp
            exact ih
          · cases hp
      | some at_ => exact (poll_spec ih hk hp).1

theorem Fed.push_queue {at_ : Nat} (it : UInt64) (hv : UInt32) (h : Fed me) (hr : bipbuf_request me sizeof_lru_bump_entry = some at_) :
    ∃ pad : List UInt8, pad.length = 4 ∧
      (bipbuf_push (copy_in me at_ (entry_bytes it hv)) sizeof_lru_bump_entry).2.queue =
        me.queue ++ (entry_bytes it hv ++ pad) := by
  have hgranted : bipbuf_request (copy_in me at_ (entry_bytes it hv)) sizeof_lru_bump_entry = some at_ := hr
  obtain ⟨-, hqueue⟩ := push_spec h.inv.copy_in hgranted (Nat.le_refl _)
  have hfit : (copy_in me at_ (entry_bytes it hv)).queue = me.queue :=
    queue_copy_in h.inv hr (by rw [length_entry_bytes]; decide)
  refine ⟨Memory.read (copy_in me at_ (entry_bytes it hv)).data (at_ + 12) 4, by simp, ?_⟩
  have hentry : Memory.read (copy_in me at_ (entry_bytes it hv)).data at_ 12 = entry_bytes it hv :=
    Memory.read_write_self
  rw [hqueue, hfit, show sizeof_lru_bump_entry = 12 + 4 by rfl, Memory.read_add, hentry]

theorem Fed.whole (h : Fed me) : sizeof_lru_bump_entry ∣ me.queue.length := by
  induction h with
  | create data => exact ⟨0, rfl⟩
  | push h hr it hv ih =>
      obtain ⟨pad, hpad, hqueue⟩ := h.push_queue it hv hr
      rw [hqueue, List.length_append, List.length_append, length_entry_bytes, hpad]
      exact Nat.dvd_add ih (Nat.dvd_refl _)
  | @poll me k h hk ih =>
      cases hp : bipbuf_poll me (sizeof_lru_bump_entry * k) with
      | mk shown buf =>
      cases shown with
      | none =>
          rw [poll_eq h.inv hk] at hp
          split at hp
          · obtain ⟨-, rfl⟩ := Prod.mk.inj hp
            exact ih
          · cases hp
      | some at_ =>
          obtain ⟨-, hqueue, -⟩ := poll_spec h.inv hk hp
          rw [hqueue, List.length_append, Memory.length_read] at ih
          exact (Nat.dvd_add_right (Nat.dvd_mul_right _ _)).mp ih

/-! ## The call -/

theorem LruBumpBuf.add_none {b : LruBumpBuf} (it : UInt64) (hv : UInt32)
    (hr : bipbuf_request b.buf sizeof_lru_bump_entry = none) :
    b.add it hv = (false, { b with dropped := b.dropped + 1 }) := by
  unfold LruBumpBuf.add
  split
  next h => rw [hr] at h; cases h
  next => rfl

theorem LruBumpBuf.add_some {b : LruBumpBuf} {at_ : Nat} (it : UInt64) (hv : UInt32)
    (hr : bipbuf_request b.buf sizeof_lru_bump_entry = some at_) :
    (b.add it hv).1 = false ∧ entries (b.add it hv).2.buf.queue = entries b.buf.queue ++ [(it, hv)] := by
  obtain ⟨pad, hpad, hqueue⟩ := b.fed.push_queue it hv hr
  have hentries : entries (bipbuf_push (copy_in b.buf at_ (entry_bytes it hv)) sizeof_lru_bump_entry).2.queue =
      entries b.buf.queue ++ [(it, hv)] := by
    have hlen : (entry_bytes it hv ++ pad).length = sizeof_lru_bump_entry := by
      rw [List.length_append, length_entry_bytes, hpad]
      rfl
    rw [hqueue, entries_append b.fed.whole hlen, read_entry_append (Nat.le_of_eq length_entry_bytes.symm),
      read_entry_bytes]
  unfold LruBumpBuf.add
  split
  next at' h =>
      obtain rfl : at_ = at' := Option.some.inj (hr.symm.trans h)
      dsimp only
      split
      · exact ⟨rfl, hentries⟩
      · exact ⟨rfl, hentries⟩
  next h => rw [hr] at h; cases h

theorem lru_bump_async_some {at_ : Nat} (it : UInt64) (hv : UInt32)
    (hr : bipbuf_request (s.bufs b).buf sizeof_lru_bump_entry = some at_) :
    (lru_bump_async s b it hv).1 = false ∧ Queued s (lru_bump_async s b it hv).2 b it hv := by
  obtain ⟨hret, hentries⟩ := LruBumpBuf.add_some it hv hr
  constructor
  · exact hret
  · simpa [Queued, Bumps.queued, lru_bump_async] using hentries

theorem lru_bump_async_none (s : Bumps t) (b : Fin t) (it : UInt64) (hv : UInt32)
    (hr : bipbuf_request (s.bufs b).buf sizeof_lru_bump_entry = none) :
    (lru_bump_async s b it hv).1 = false ∧ (∀ c, (lru_bump_async s b it hv).2.queued c = s.queued c) ∧
      (lru_bump_async s b it hv).2.store = s.store := by
  have hadd := LruBumpBuf.add_none it hv hr
  refine ⟨by simp [lru_bump_async, hadd], ?_, ?_⟩
  · intro c
    by_cases hc : c = b
    · subst hc
      simp [lru_bump_async, hadd, Bumps.queued]
    · simp [lru_bump_async, Bumps.queued, update_of_ne hc]
  · simp [lru_bump_async, hadd, Store.refcount_incr, Store.refcount_decr, Store.modify]

/-- With `ITEM_ACTIVE` set, and with it cleared. -/
def Bumps.marked (s : Bumps t) (it : UInt64) : Bumps t := { s with store := s.store.set_active (.item it.toNat) true }

def Bumps.unmarked (s : Bumps t) (it : UInt64) : Bumps t := { s with store := s.store.set_active (.item it.toNat) false }

theorem mark_fetched_cold (hseg : cfg.lru_segmented = true) (hactive : (s.item it).it_flags.active = false)
    (hfetched : (s.item it).it_flags.fetched = true) (hcold : (s.item it).lruid = Lru.COLD_LRU.bits)
    (hret : (lru_bump_async (s.marked it) b it hv).1 = false) :
    mark_fetched cfg s b it hv = some ((lru_bump_async (s.marked it) b it hv).2.unmarked it) := by
  have hcold' : ((s.marked it).item it).lruid = Lru.COLD_LRU.bits := by
    simpa [Bumps.marked, Bumps.item, Store.set_active, Store.modify, Item.lruid] using hcold
  unfold mark_fetched
  simp only [hseg, hactive, hfetched, if_true, Bool.not_false, Bool.not_true, Bool.false_eq_true, if_false]
  rw [if_neg (by simpa [Bumps.marked] using hcold')]
  cases hcall : lru_bump_async (s.marked it) b it hv with
  | mk ret s' =>
      rw [hcall] at hret
      obtain rfl : ret = false := hret
      simp only [Bumps.marked] at hcall
      simp [hcall, Bumps.unmarked]

theorem hands_off_iff : HandsOff s b it hv ↔ bipbuf_request (s.bufs b).buf sizeof_lru_bump_entry = none := by
  constructor
  · intro h
    cases hr : bipbuf_request (s.bufs b).buf sizeof_lru_bump_entry with
    | none => rfl
    | some at_ =>
        obtain ⟨hret, hqueued⟩ := lru_bump_async_some it hv hr
        have htrue := h.result.mpr hqueued
        rw [hret] at htrue
        cases htrue
  · intro hr
    obtain ⟨hret, hsame, hstore⟩ := lru_bump_async_none s b it hv hr
    have hnot : ¬Queued s (lru_bump_async s b it hv).2 b it hv := by
      intro hq
      have heq := hsame b
      rw [hq] at heq
      simpa using congrArg List.length heq
    refine ⟨by simp [hret, hnot], fun hq => absurd hq hnot, fun _ => by rw [Bumps.item, hstore, Bumps.item], ?_, ?_⟩
    · intro cfg hseg hactive hfetched hcold
      obtain ⟨hret', hsame', -⟩ := lru_bump_async_none (s.marked it) b it hv hr
      refine ⟨_, mark_fetched_cold hseg hactive hfetched hcold hret', ?_⟩
      have hcleared : (((lru_bump_async (s.marked it) b it hv).2.unmarked it).item it).it_flags.active = false := by
        simp [Bumps.unmarked, Bumps.item, Store.set_active, Store.modify]
      have hnot' : ¬Queued s ((lru_bump_async (s.marked it) b it hv).2.unmarked it) b it hv := by
        intro hq
        have heq : ((lru_bump_async (s.marked it) b it hv).2.unmarked it).queued b = s.queued b := hsame' b
        rw [hq] at heq
        simpa using congrArg List.length heq
      simp [hcleared, hnot']
    · intro q
      simp only [SlabsCurd.drained, waiting, hsame, Bumps.item, hstore]

/-- One worker with a new buffer, and an item of the COLD queue that was fetched before; a client has it. -/
def fetched_once : Bumps 1 where
  store := Store.empty.modify (.item 4096) fun i =>
    { i with it_flags := { Flags.zero with linked := true, fetched := true }, slabs_clsid := 129, key := [97], nbytes := 3,
             refcount := 2 }
  bufs _ := { buf := bipbuf_new (sizeof_lru_bump_entry * LRU_BUMP_BUF_SIZE) fun _ => 0, dropped := 0, fed := .create _ }

theorem not_hands_off : ¬HandsOff fetched_once 0 4096 7 := by
  intro h
  have hr : bipbuf_request (fetched_once.bufs 0).buf sizeof_lru_bump_entry = some 0 := by decide
  obtain ⟨hret, hqueued⟩ := lru_bump_async_some 4096 7 hr
  have htrue := h.result.mpr hqueued
  rw [hret] at htrue
  cases htrue

end Memcached.SlabsCurd

import Memcached.Exstore.Readback
import Memcached.Lib.Run
import Memcached.MemoryLru.ItemTheorems
import Memcached.MemoryLru.Lemmas.ItemFates

/-!
# Which headers the compactor may repoint

A header always names an object of its own key. Whether it is left alone while clients hold it hangs on a reference
count that was written with the object.
-/

namespace Memcached.Exstore

open MemoryLru Transition
open MemoryLru.Store (Plain SameHeaders)
open Function (update)

namespace Compaction

/-! ## What is to hold -/

/-- Objects of the key are at the place, and no others. -/
def Names (objects : List (ItemHdr × Key)) (loc : ItemHdr) (key : Key) : Prop :=
  (loc, key) ∈ objects ∧ ∀ k, (loc, k) ∈ objects → k = key

/-- A read at the place is a miss. -/
def Misses (s : Compaction) (loc : ItemHdr) : Prop := s.pages loc.page_id ≠ some loc.page_version

structure Safe (s : Compaction) : Prop where
  /-- Only the table and the compactor held the headers that were changed in place. -/
  unshared : ∀ h ∈ s.handled, h.after ≠ h.before → h.refcount = 2
  named : ∀ n, (s.store.heap (.item n)).it_flags.linked → (s.store.heap (.item n)).it_flags.hdr →
    Names s.objects (s.hdrs (.item n)) (s.store.heap (.item n)).key ∨ s.Misses (s.hdrs (.item n))

/-- The test of the reference count is reached for the header. -/
structure Tests (s : Compaction) (r : Readback) (requests : List (Option ItemHdr)) (hdr_it : Ptr) : Prop where
  more : r.at_end = false
  found : s.store.table r.key = some hdr_it
  valid : s.still_valid r hdr_it
  keeps : r.drops (s.store.heap hdr_it) = false
  granted : write_tries requests ≠ none

/-- Where the copy in the buffer says that there are two references to the header, there is one, and the compactor's. -/
def Agrees (s : Compaction) : Event → Prop
  | .object requests => ∀ r hdr_it, s.readback = some r → s.Tests r requests hdr_it →
      it_refcount r.readback_buf r.offset = 2 → (s.store.heap hdr_it).refcount + 1 = 2
  | _ => True

/-! ## Every header names an object of its key -/

structure Consistent (s : Compaction) : Prop where
  sound : s.store.Sound
  plain : ∀ n, Plain (s.store.heap (.item n))
  named : ∀ n, (s.store.heap (.item n)).it_flags.hdr →
    Names s.objects (s.hdrs (.item n)) (s.store.heap (.item n)).key

variable {cfg : Settings} {s s' t : Compaction} {r : Readback} {requests : List (Option ItemHdr)} {hdr_it : Ptr}
  {loc loc' : ItemHdr} {key : Key} {e : Event} {es : List Event}

theorem vacant_iff : s.vacant loc ↔ s.pages loc.page_id = some loc.page_version ∧ ∀ k, (loc, k) ∉ s.objects := by
  simp only [vacant, decide_eq_true_eq]
  refine and_congr_right fun _ => ⟨fun h k hk => h _ hk rfl, fun h o ho he => ?_⟩
  subst he
  exact h o.2 ho

theorem Names.cons {k : Key} (h : Names s.objects loc key) (hvacant : s.vacant loc') :
    Names ((loc', k) :: s.objects) loc key := by
  obtain ⟨hmem, hunique⟩ := h
  have hne : loc ≠ loc' := by
    rintro rfl
    exact (vacant_iff.mp hvacant).2 key hmem
  refine ⟨List.mem_cons_of_mem _ hmem, fun k' hk => ?_⟩
  rcases List.mem_cons.mp hk with he | hk
  · exact absurd (congrArg Prod.fst he) hne
  · exact hunique k' hk

theorem Names.new (hvacant : s.vacant loc) : Names ((loc, key) :: s.objects) loc key := by
  refine ⟨List.mem_cons_self, fun k hk => ?_⟩
  rcases List.mem_cons.mp hk with he | hk
  · exact congrArg Prod.snd he
  · exact absurd hk ((vacant_iff.mp hvacant).2 k)

theorem Consistent.item {store : Store} {e : MemoryLru.Event} (h : s.Consistent)
    (hstep : MemoryLru.Step cfg s.store e store) : Consistent { s with store := store } where
  sound := h.sound.step hstep
  plain := (Store.plain_rule cfg).step h.sound hstep h.plain
  named n hn := by
    obtain ⟨hhdr, hkey⟩ := SameHeaders.step h.sound h.plain hstep n hn
    rw [hkey]
    exact h.named n hhdr

theorem Consistent.fill {n m : Nat} (h : s.Consistent) (hfill : s.fillable n m) (hvacant : s.vacant loc) :
    (s.fill n m loc).Consistent := by
  simp only [fillable, Bool.not_eq_true', decide_eq_true_eq] at hfill
  obtain ⟨hlinked, -, hnot, hslabbed, hkey⟩ := hfill
  have hnbytes : 2 ≤ (s.store.heap (.item n)).nbytes := by
    obtain ⟨l, hc⟩ := h.sound
    have hkind := (hc.placed (.item n)).kind
    exact hkind.1 (hkind.2 hlinked)
  have hsound : (s.store.modify (.item m) fun i =>
      { i with it_flags := { i.it_flags with hdr := true }, nbytes := (s.store.heap (.item n)).nbytes }).Sound := by
    apply h.sound.modify_unlinked
    · simp [hnot]
    · simp [hnot]
    · exact fun _ => hnbytes
  refine ⟨hsound, fun k => ?_, fun k hk => ?_⟩
  · by_cases hk : k = m
    · subst hk
      simp [Compaction.fill, Plain, hslabbed]
    · have hne : Ptr.item k ≠ .item m := by simpa using hk
      simpa [Compaction.fill, Store.modify_of_ne hne] using h.plain k
  · by_cases hkm : k = m
    · subst hkm
      simp only [Compaction.fill, Function.update_self, Store.modify_self, hkey]
      exact .new hvacant
    · have hne : Ptr.item k ≠ .item m := by simpa using hkm
      simp only [Compaction.fill, Function.update_of_ne hne, Store.modify_of_ne hne] at hk ⊢
      exact (h.named k hk).cons hvacant

theorem Consistent.copy_cas {m : Nat} {v : UInt64} (cfg : Settings) (h : s.Consistent) :
    Consistent { s with store := s.store.modify (.item m) fun i => i.set_cas v } := by
  have hshape : ∀ i : Item, (i.set_cas v).shape = i.shape ∧ (i.set_cas v).next = i.next ∧
      (i.set_cas v).prev = i.prev ∧ (i.set_cas v).slabs_clsid = i.slabs_clsid := by
    intro i
    unfold Item.set_cas
    split <;> exact ⟨rfl, rfl, rfl, rfl⟩
  have hsound : (s.store.modify (.item m) fun i => i.set_cas v).Sound := h.sound.modify hshape
  have hsame : ∀ k, ((s.store.modify (.item m) fun i => i.set_cas v).heap (.item k)).shape =
      (s.store.heap (.item k)).shape := by
    intro k
    by_cases hk : Ptr.item k = .item m
    · rw [hk, Store.modify_self, (hshape _).1]
    · rw [Store.modify_of_ne hk]
  refine ⟨hsound, fun k => (Store.plain_rule cfg).shape (hsame k) (h.plain k), fun k hk => ?_⟩
  have hhdr := Item.shape_congr (·.it_flags.hdr) (fun _ => rfl) (hsame k)
  have hkey := Item.shape_congr Item.key (fun _ => rfl) (hsame k)
  rw [hhdr] at hk
  simp only [hkey]
  exact h.named k hk

/-! ## One object of the buffer -/

/-- The place and the copy of the header change only where the test is reached. -/
inductive Handles (s : Compaction) (r : Readback) (requests : List (Option ItemHdr)) (hdr_it : Ptr) : Compaction → Prop
  | left {deletes : List (Nat × Nat × Nat)} {lost skipped : Nat}
      (hnot : ¬(s.still_valid r hdr_it ∧ r.drops (s.store.heap hdr_it) = false ∧ write_tries requests ≠ none)) :
      Handles s r requests hdr_it { s with deletes := deletes, lost := lost, skipped := skipped }
  | tested {deletes : List (Nat × Nat × Nat)} {rescues lost : Nat} {loc : ItemHdr} (hvalid : s.still_valid r hdr_it)
      (hkeeps : r.drops (s.store.heap hdr_it) = false) (hgranted : write_tries requests = some loc) :
      Handles s r requests hdr_it { s with
        hdrs := if it_refcount r.readback_buf r.offset = 2 then update s.hdrs hdr_it loc else s.hdrs
        objects := (loc, r.key) :: s.objects, deletes := deletes, rescues := rescues, lost := lost }

theorem compact_header_handles : s.Handles r requests hdr_it (s.compact_header r hdr_it requests) := by
  simp only [compact_header]
  split
  · next hvalid =>
    split
    · next hdrops => exact .left fun h => by simp [h.2.1] at hdrops
    · next hdrops =>
      rw [Bool.not_eq_true] at hdrops
      split
      · next loc hgranted =>
        have htested := @Handles.tested s r requests hdr_it ((r.page_id, r.page_version, r.ntotal) :: s.deletes)
          (if it_refcount r.readback_buf r.offset = 2 then s.rescues + 1 else s.rescues)
          (if it_refcount r.readback_buf r.offset = 2 then s.lost else s.lost + 1) loc hvalid hdrops hgranted
        simp only [rescue]
        split <;> simpa [*] using htested
      · next hnone => exact .left fun h => h.2.2 hnone
  · next hvalid => exact .left fun h => hvalid h.1

theorem still_valid_incr {p : Ptr} :
    { s with store := s.store.refcount_incr p }.still_valid r hdr_it = s.still_valid r hdr_it := by
  have hheap : ∀ f : Item → Bool, (∀ i : Item, f { i with refcount := i.refcount + 1 } = f i) →
      f ((s.store.refcount_incr p).heap hdr_it) = f (s.store.heap hdr_it) := by
    intro f hf
    by_cases hp : hdr_it = p
    · subst hp
      simp [Store.refcount_incr, hf]
    · rw [Store.refcount_incr, Store.modify_of_ne hp]
  exact hheap (fun i => decide (i.it_flags.hdr ∧ !s.store.item_is_flushed i ∧
    (i.exptime = 0 ∨ i.exptime > s.store.current_time) ∧ (s.hdrs hdr_it).page_id = r.page_id ∧
    (s.hdrs hdr_it).page_version = r.page_version)) fun _ => rfl

theorem compact_object_cases (h : s.compact_object r requests = some t) :
    (s.store.table r.key = none ∧ t = s) ∨ ∃ hdr_it store s₁, s.store.table r.key = some hdr_it ∧
      (s.store.refcount_incr hdr_it).do_item_remove hdr_it = some store ∧ s.Handles r requests hdr_it s₁ ∧
      t = { s₁ with
        store := store
        handled := ⟨hdr_it, (s.store.heap hdr_it).refcount + 1, s.hdrs hdr_it, s₁.hdrs hdr_it⟩ :: s.handled } := by
  simp only [compact_object] at h
  split at h
  · next hnone => exact .inl ⟨hnone, (Option.some.inj h).symm⟩
  next hdr_it hfound =>
  obtain ⟨store, hremove, h⟩ := Option.bind_eq_some_iff.mp h
  obtain rfl := Option.some.inj h
  have hhandles : Handles { s with store := s.store.refcount_incr hdr_it } r requests hdr_it _ :=
    compact_header_handles
  generalize { s with store := s.store.refcount_incr hdr_it }.compact_header r hdr_it requests = s₁ at *
  have hlruid : ((s.store.refcount_incr hdr_it).heap hdr_it).lruid = (s.store.heap hdr_it).lruid := by
    simp [Store.refcount_incr, Item.lruid]
  have hdrops : r.drops ((s.store.refcount_incr hdr_it).heap hdr_it) = r.drops (s.store.heap hdr_it) := by
    simp only [Readback.drops, hlruid]
  cases hhandles with
  | @left deletes lost skipped hnot =>
      simp only [still_valid_incr, hdrops] at hnot
      exact .inr ⟨hdr_it, store, _, hfound, hremove, @Handles.left s r requests hdr_it deletes lost skipped hnot,
        by simp [Store.refcount_incr]⟩
  | @tested deletes rescues lost loc hvalid hkeeps hgranted =>
      rw [still_valid_incr] at hvalid
      rw [hdrops] at hkeeps
      exact .inr ⟨hdr_it, store, _, hfound, hremove,
        @Handles.tested s r requests hdr_it deletes rescues lost loc hvalid hkeeps hgranted,
        by simp [Store.refcount_incr]⟩

theorem Consistent.object (cfg : Settings) (h : s.Consistent) (hobject : s.compact_object r requests = some t)
    (hvacant : ∀ loc, write_tries requests = some loc → s.vacant loc) : t.Consistent := by
  obtain ⟨-, rfl⟩ | ⟨hdr_it, store, s₁, hfound, hremove, hhandles, rfl⟩ := compact_object_cases hobject
  · exact h
  obtain ⟨n, rfl⟩ := h.sound.is_item hfound
  have hkey : (s.store.heap (.item n)).key = r.key := by
    obtain ⟨l, hc⟩ := h.sound
    exact (((hc.placed (.item n)).table r.key).mp hfound).2.2
  have hincr : s.store.SameHeaders (s.store.refcount_incr (.item n)) := .of_evolved (.modify rfl)
  have hsame := hincr.trans (.of_evolved (.do_item_remove hremove))
  have hplain := ((Store.plain_rule cfg).kept Store.refcount_incr_kept).trans
    ((Store.plain_rule cfg).do_item_remove hremove)
  refine ⟨h.sound.refcount_incr.do_item_remove hremove, hplain h.plain, fun k hk => ?_⟩
  obtain ⟨hhdr, hkey'⟩ := hsame k hk
  have hnamed := h.named k hhdr
  simp only [hkey']
  cases hhandles with
  | left _ => exact hnamed
  | tested hvalid hkeeps hgranted =>
      have hfree := hvacant _ hgranted
      split
      · by_cases hkn : k = n
        · subst hkn
          simp only [hkey, Function.update_self]
          exact .new hfree
        · have hne : Ptr.item k ≠ .item n := by simpa using hkn
          simp only [Function.update_of_ne hne]
          exact hnamed.cons hfree
      · exact hnamed.cons hfree

/-! ## Steps -/

theorem step_object_cases (h : Step cfg s (.object requests) t) : ∃ r, s.readback = some r ∧
    (r.at_end ∧ t = { s with readback := none } ∨
      r.at_end = false ∧ (∀ loc, write_tries requests = some loc → s.vacant loc) ∧
        ∃ s₁, s.compact_object r requests = some s₁ ∧ t = { s₁ with readback := r.advance }) := by
  simp only [Step, Compaction.step] at h
  split at h
  · cases h
  next r hr =>
  refine ⟨r, hr, ?_⟩
  split at h
  · next hend => exact .inl ⟨hend, (Option.some.inj h).symm⟩
  next hmore =>
  split at h
  · next hguard =>
    obtain ⟨s₁, hobject, rfl⟩ := Option.map_eq_some_iff.mp h
    refine .inr ⟨by simpa using hmore, fun loc hloc => ?_, s₁, hobject, rfl⟩
    simpa [hloc] using hguard.2
  · cases h

theorem Consistent.step (h : s.Consistent) (hstep : Step cfg s e t) : t.Consistent := by
  cases e with
  | item e =>
      obtain ⟨store, hitem, rfl⟩ := Option.map_eq_some_iff.mp hstep
      exact h.item hitem
  | fill n m loc =>
      simp only [Step, Compaction.step] at hstep
      split at hstep
      · next hguard =>
        obtain rfl := Option.some.inj hstep
        exact h.fill hguard.1 hguard.2
      · cases hstep
  | copy_cas n m =>
      obtain rfl := Option.some.inj hstep
      exact h.copy_cas cfg
  | open_page page_id page_version =>
      simp only [Step, Compaction.step] at hstep
      split at hstep
      · obtain rfl := Option.some.inj hstep
        exact { h with }
      · cases hstep
  | close_page page_id page_version =>
      simp only [Step, Compaction.step] at hstep
      split at hstep
      · obtain rfl := Option.some.inj hstep
        exact { h with }
      · obtain rfl := Option.some.inj hstep
        exact h
  | readback r =>
      simp only [Step, Compaction.step] at hstep
      split at hstep
      · obtain rfl := Option.some.inj hstep
        exact { h with }
      · cases hstep
  | object requests =>
      obtain ⟨r, -, ⟨-, rfl⟩ | ⟨-, hvacant, s₁, hobject, rfl⟩⟩ := step_object_cases hstep
      · exact { h with }
      · exact { h.object cfg hobject hvacant with }

/-- What a step adds to the headers so far. -/
def Adds (s t : Compaction) (new : List Handled) : Prop := t.handled = new ++ s.handled

def Unshared (hs : List Handled) : Prop := ∀ h ∈ hs, h.after ≠ h.before → h.refcount = 2

theorem step_adds (h : s.Consistent) (hstep : Step cfg s e t) : ∃ new, Adds s t new ∧ (s.Agrees e ↔ Unshared new) := by
  have hnone (he : s.Agrees e) (ht : t.handled = s.handled) : ∃ new, Adds s t new ∧ (s.Agrees e ↔ Unshared new) :=
    ⟨[], ht, iff_of_true he fun _ hm => (nomatch hm)⟩
  cases e with
  | object requests =>
      obtain ⟨r, hr, ⟨hend, rfl⟩ | ⟨hmore, hvacant, s₁, hobject, rfl⟩⟩ := step_object_cases hstep
      · refine hnone (fun r' hdr_it hr' htests => ?_) rfl
        obtain rfl : r = r' := Option.some.inj (hr.symm.trans hr')
        exact absurd hend (by simp [htests.more])
      obtain ⟨hmiss, rfl⟩ | ⟨hdr_it, store, s₂, hfound, -, hhandles, rfl⟩ := compact_object_cases hobject
      · refine hnone (fun r' hdr_it hr' htests => ?_) rfl
        obtain rfl : r = r' := Option.some.inj (hr.symm.trans hr')
        have hfound := htests.found
        rw [hmiss] at hfound
        cases hfound
      refine ⟨[⟨hdr_it, (s.store.heap hdr_it).refcount + 1, s.hdrs hdr_it, s₂.hdrs hdr_it⟩], rfl, ?_⟩
      simp only [Unshared, List.mem_singleton, forall_eq]
      cases hhandles with
      | left hnot =>
          refine iff_of_true (fun r' hdr_it' hr' htests => ?_) fun hne => absurd rfl hne
          obtain rfl : r = r' := Option.some.inj (hr.symm.trans hr')
          obtain rfl : hdr_it = hdr_it' := Option.some.inj (hfound.symm.trans htests.found)
          exact absurd ⟨htests.valid, htests.keeps, htests.granted⟩ hnot
      | @tested _ _ _ loc hvalid hkeeps hgranted =>
          obtain ⟨n, rfl⟩ := h.sound.is_item hfound
          have hhdr : (s.store.heap (.item n)).it_flags.hdr := by
            simp only [still_valid, decide_eq_true_eq] at hvalid
            exact hvalid.1
          have hne : loc ≠ s.hdrs (.item n) := by
            rintro rfl
            exact (vacant_iff.mp (hvacant _ hgranted)).2 _ (h.named n hhdr).1
          constructor
          · intro hagrees hchanged
            apply hagrees r (.item n) hr ⟨hmore, hfound, hvalid, hkeeps, by simp [hgranted]⟩
            by_contra hcopy
            simp [hcopy] at hchanged
          · intro hrefs r' hdr_it' hr' htests hcopy
            obtain rfl : r = r' := Option.some.inj (hr.symm.trans hr')
            obtain rfl : Ptr.item n = hdr_it' := Option.some.inj (hfound.symm.trans htests.found)
            apply hrefs
            simpa [hcopy] using hne
  | item e =>
      obtain ⟨store, -, rfl⟩ := Option.map_eq_some_iff.mp hstep
      exact hnone trivial rfl
  | copy_cas n m =>
      obtain rfl := Option.some.inj hstep
      exact hnone trivial rfl
  | close_page page_id page_version =>
      simp only [Step, Compaction.step] at hstep
      split at hstep <;> cases hstep <;> exact hnone trivial rfl
  | fill n m loc =>
      simp only [Step, Compaction.step] at hstep
      split at hstep <;> cases hstep
      exact hnone trivial rfl
  | open_page page_id page_version =>
      simp only [Step, Compaction.step] at hstep
      split at hstep <;> cases hstep
      exact hnone trivial rfl
  | readback r =>
      simp only [Step, Compaction.step] at hstep
      split at hstep <;> cases hstep
      exact hnone trivial rfl

/-! ## Runs -/

theorem run_adds (h : s.Consistent) (hrun : Run (Step cfg) s es t) :
    t.Consistent ∧ ∃ new, Adds s t new ∧ (Run (fun s e s' => Step cfg s e s' ∧ s.Agrees e) s es t ↔ Unshared new) := by
  induction hrun with
  | nil s => exact ⟨h, [], rfl, iff_of_true (.nil s) fun _ hm => (nomatch hm)⟩
  | @cons s s' t e es hstep hrest ih =>
      obtain ⟨new, hnew, hagrees⟩ := step_adds h hstep
      obtain ⟨hcons, news, hnews, hiff⟩ := ih (h.step hstep)
      refine ⟨hcons, news ++ new, by rw [Adds, hnews, hnew, List.append_assoc], ?_⟩
      have hsplit : Unshared (news ++ new) ↔ Unshared new ∧ Unshared news := by
        simp only [Unshared, List.mem_append, or_imp, forall_and, and_comm]
      rw [hsplit, ← hagrees, ← hiff, run_cons]
      constructor
      · rintro ⟨s'', ⟨hstep', hagrees'⟩, hrest'⟩
        obtain rfl : s' = s'' := Option.some.inj (hstep.symm.trans hstep')
        exact ⟨hagrees', hrest'⟩
      · rintro ⟨hagrees', hrest'⟩
        exact ⟨s', ⟨hstep, hagrees'⟩, hrest'⟩

theorem start_consistent (pages : Nat → Option Nat) : (start pages).Consistent where
  sound := Store.sound_empty
  plain n := by simp [start, Store.empty, Plain, Flags.zero]
  named n hn := by simp [start, Store.empty, Flags.zero] at hn

/-- A run is safe just if the copies agree with their headers in each of its steps. -/
theorem compaction_safe_iff {pages : Nat → Option Nat} (h : Run (Step cfg) (start pages) es s) :
    s.Safe ↔ Run (fun s e s' => Step cfg s e s' ∧ s.Agrees e) (start pages) es s := by
  obtain ⟨hcons, new, hnew, hiff⟩ := run_adds (start_consistent pages) h
  have hhandled : s.handled = new := by rw [hnew, start, List.append_nil]
  rw [hiff, ← hhandled]
  constructor
  · exact Safe.unshared
  · exact fun hunshared => ⟨hunshared, fun n _ hhdr => .inl (hcons.named n hhdr)⟩

/-! ## One object -/

/-- The copy of an item with the key `a` and four bytes, which was written while it had two references. -/
def copy : Nat → UInt8
  | 32 => 4
  | 36 => 2
  | 39 => 2
  | 41 => 1
  | 56 => 97
  | _ => 0

/-- An item is moved to page 0, maybe a client gets the header, and page 0 is compacted into page 1. -/
def move_and_compact (gets : List Event) : List Event :=
  [.item (.alloc ⟨[97], 0, 0, 4⟩ [⟨some (.item 0), 0, [], [], []⟩]), .item (.link 0), .item (.remove 0),
    .item (.alloc ⟨[97], 0, 0, sizeof_item_hdr⟩ [⟨some (.item 1), 0, [], [], []⟩]), .fill 0 1 ⟨1, 0, 0⟩,
    .item (.replace 0 1), .item (.remove 1)] ++ gets ++ [.readback ⟨copy, 100, 0, 1, false, 0⟩, .object [some ⟨2, 0, 1⟩]]

def two_pages (page_id : Nat) : Option Nat := if page_id < 2 then some (page_id + 1) else none

theorem alone_runs : ((move_and_compact []).foldlM (Compaction.step Store.settings) (start two_pages)).isSome := by
  decide +kernel

theorem compaction_safe_alone : Safe (Option.get _ alone_runs) ↔
    Run (fun s e s' => Step Store.settings s e s' ∧ s.Agrees e) (start two_pages) (move_and_compact [])
      (Option.get _ alone_runs) :=
  compaction_safe_iff (.of_foldlM (Option.some_get alone_runs).symm)

def client_get : List Event := [.item (.get [97] false false)]

theorem shared_runs :
    ((move_and_compact client_get).foldlM (Compaction.step Store.settings) (start two_pages)).isSome := by decide +kernel

/-- The client has a reference to the header, which is repointed all the same. -/
theorem not_compaction_safe : ∃ s, Run (Step Store.settings) (start two_pages) (move_and_compact client_get) s ∧
    s.handled = [⟨.item 1, 3, ⟨1, 0, 0⟩, ⟨2, 0, 1⟩⟩] ∧ ¬ s.Safe := by
  have hhandled : (Option.get _ shared_runs).handled = [⟨.item 1, 3, ⟨1, 0, 0⟩, ⟨2, 0, 1⟩⟩] := by decide +kernel
  refine ⟨_, .of_foldlM (Option.some_get shared_runs).symm, hhandled, fun hsafe => ?_⟩
  have hrefs := hsafe.unshared
  rw [hhandled] at hrefs
  exact absurd (hrefs _ List.mem_cons_self (by decide)) (by decide)

end Compaction

end Memcached.Exstore

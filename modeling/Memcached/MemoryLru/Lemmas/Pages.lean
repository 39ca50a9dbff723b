import Mathlib
import Memcached.MemoryLru.Slabs

/-!
# Where the pages are

`owned` is the multiset of all pages in `slab_list[0 .. slabs)` of all classes. Each function on page lists is
described by what it does to `owned` and to the capacity of the lists. Chunk counts do not matter here:
`erase` forgets them.
-/

namespace Memcached.MemoryLru.Slabs

variable {s s' : Slabs}

/-! ## Forgetting chunk counts -/

/-- The state without the numbers of free chunks and the bytes requested. -/
def erase (s : Slabs) : Slabs :=
  { s with slabclass := fun i => { s.slabclass i with sl_curr := 0, requested := 0 } }

theorem erase_setClass (s : Slabs) (id : Nat) (c : Slabclass) (hslabs : c.slabs = (s.slabclass id).slabs)
    (hlist : c.slab_list = (s.slabclass id).slab_list) (hsize : c.list_size = (s.slabclass id).list_size)
    (hs : c.size = (s.slabclass id).size) (hp : c.perslab = (s.slabclass id).perslab) :
    (s.setClass id c).erase = s.erase := by
  simp only [erase, setClass]
  congr 1
  funext i
  by_cases hi : i = id
  · subst hi; simp [hslabs, hlist, hsize, hs, hp]
  · simp [hi]

theorem erase_put_chunk (s : Slabs) (id size : Nat) : (s.put_chunk id size).erase = s.erase :=
  erase_setClass s id _ rfl rfl rfl rfl rfl

theorem erase_do_slabs_free (s : Slabs) (it : FreedItem) (size id : Nat) :
    (s.do_slabs_free it size id).erase = s.erase := by
  unfold do_slabs_free
  split
  · rfl
  · cases it with
    | plain => exact erase_put_chunk ..
    | hdr nbytes => exact erase_put_chunk ..
    | chunked orig_clsid header chunks =>
        have hfold : ∀ (cs : List (Nat × Nat)) (s : Slabs),
            (cs.foldl (fun s c => s.put_chunk c.1 (c.2 + sizeof_item_chunk)) s).erase = s.erase := by
          intro cs
          induction cs with
          | nil => intro s; rfl
          | cons c cs ih => intro s; rw [List.foldl_cons, ih, erase_put_chunk]
        simp only [hfold, erase_put_chunk]

theorem erase_split (s : Slabs) (id : Nat) : (s.split_slab_page_into_freelist id).erase = s.erase := by
  unfold split_slab_page_into_freelist
  generalize (s.slabclass id).perslab = n
  induction n generalizing s with
  | zero => rfl
  | succ n ih => rw [Nat.iterate, ih, erase_do_slabs_free]

/-! ## Owned pages -/

/-- The pages in the lists of all classes. Irreducible, lest unification evaluates the sum over 64 classes. -/
@[irreducible] def owned (s : Slabs) : Multiset (Option Page) :=
  ∑ i ∈ Finset.range MAX_NUMBER_OF_SLAB_CLASSES, ((s.slabclass i).pages : Multiset (Option Page))

/-- The pages `memory_allocate` returned so far. -/
def obtainedPages (s : Slabs) : Multiset (Option Page) := (s.obtained.map fun e => some e.1 : List _)

/-- The pages `memory_release` freed so far. -/
def freedPages (s : Slabs) : Multiset (Option Page) := (s.freed.map fun e => some e.1 : List _)

theorem owned_setClass (s : Slabs) {id : Nat} (hid : id < MAX_NUMBER_OF_SLAB_CLASSES) (c : Slabclass) :
    (s.setClass id c).owned + (s.slabclass id).pages = s.owned + c.pages := by
  unfold owned
  generalize MAX_NUMBER_OF_SLAB_CLASSES = n at hid ⊢
  have hmem : id ∈ Finset.range n := Finset.mem_range.mpr hid
  have hupd : ∀ i, (((s.setClass id c).slabclass i).pages : Multiset (Option Page)) =
      Function.update (fun i => ((s.slabclass i).pages : Multiset (Option Page))) id c.pages i := by
    intro i
    by_cases hi : i = id
    · subst hi; simp [setClass]
    · simp [setClass, hi]
  rw [Finset.sum_congr rfl fun i _ => hupd i, Finset.sum_update_of_mem hmem,
    ← Finset.add_sum_erase (Finset.range n) (fun i => ((s.slabclass i).pages : Multiset (Option Page))) hmem,
    Finset.sdiff_singleton_eq_erase]
  abel

theorem pages_le_owned (s : Slabs) {i : Nat} (hi : i < MAX_NUMBER_OF_SLAB_CLASSES) :
    ((s.slabclass i).pages : Multiset (Option Page)) ≤ s.owned := by
  unfold owned
  generalize MAX_NUMBER_OF_SLAB_CLASSES = n at hi ⊢
  exact Finset.single_le_sum (f := fun i => ((s.slabclass i).pages : Multiset (Option Page)))
    (fun _ _ => Multiset.zero_le _) (Finset.mem_range.mpr hi)

theorem owned_unique (hnd : s.owned.Nodup) {i j : Nat} (hi : i < MAX_NUMBER_OF_SLAB_CLASSES)
    (hj : j < MAX_NUMBER_OF_SLAB_CLASSES) {p : Option Page} (hpi : p ∈ (s.slabclass i).pages)
    (hpj : p ∈ (s.slabclass j).pages) : i = j := by
  by_contra hij
  have hsub : ({i, j} : Finset Nat) ⊆ Finset.range MAX_NUMBER_OF_SLAB_CLASSES := by
    intro x hx
    rcases Finset.mem_insert.mp hx with rfl | hx
    · exact Finset.mem_range.mpr hi
    · rw [Finset.mem_singleton.mp hx]; exact Finset.mem_range.mpr hj
  have hle : ((s.slabclass i).pages : Multiset (Option Page)) + (s.slabclass j).pages ≤ s.owned := by
    rw [← Finset.sum_pair (f := fun i => ((s.slabclass i).pages : Multiset (Option Page))) hij]
    unfold owned
    generalize MAX_NUMBER_OF_SLAB_CLASSES = n at hsub ⊢
    exact Finset.sum_le_sum_of_subset hsub
  have hsum := Multiset.nodup_of_le hle hnd
  exact Multiset.disjoint_left.mp (Multiset.nodup_add.mp hsum).2.2 hpi hpj

/-! ## Lists of a class -/

theorem decr_of_pos {n : Nat} (h : 0 < n) (hn : n < 2 ^ 32) : decr n = n - 1 := by
  unfold decr
  rw [show n + (2 ^ 32 - 1) = (n - 1) + 2 ^ 32 by omega, Nat.add_mod_right, Nat.mod_eq_of_lt (by omega)]

theorem realloc_length (l : List (Option Page)) (n : Nat) : (realloc l n).length = n := by
  rw [realloc, List.length_take, List.length_append, List.length_replicate]
  omega

theorem realloc_take {l : List (Option Page)} {n k : Nat} (hk : k ≤ l.length) (hn : l.length ≤ n) :
    (realloc l n).take k = l.take k := by
  rw [realloc, List.take_take, Nat.min_eq_left (by omega), List.take_append_of_le_length hk]

theorem take_set_self (l : List (Option Page)) {n : Nat} (hn : n < l.length) (p : Option Page) :
    (l.set n p).take (n + 1) = l.take n ++ [p] := by
  rw [List.take_add_one, List.take_set_of_le (Nat.le_refl n)]
  simp [hn]

/-- The shuffling loop of `slab_rebalance_finish` drops cell `x` and keeps the order of the next `n`. -/
theorem shift_list_spec (n : Nat) : ∀ (l : List (Option Page)) (x : Nat), x + n < l.length →
    (shift_list l x n).length = l.length ∧
      (shift_list l x n).take (x + n) = l.take x ++ (l.drop (x + 1)).take n := by
  induction n with
  | zero => intro l x hx; simp [shift_list]
  | succ n ih =>
      intro l x hx
      have hx1 : x + 1 < l.length := by omega
      obtain ⟨hlen, htake⟩ := ih (l.set x (l.getD (x + 1) none)) (x + 1) (by rw [List.length_set]; omega)
      refine ⟨by rw [shift_list, hlen, List.length_set], ?_⟩
      rw [shift_list, show x + (n + 1) = x + 1 + n by omega, htake, take_set_self l (by omega),
        List.drop_set_of_lt (by omega), List.append_assoc, List.drop_eq_getElem_cons hx1, List.take_succ_cons]
      simp [List.getD_eq_getElem?_getD, hx1]

end Memcached.MemoryLru.Slabs

import Memcached.Exstore.Lemmas.Copies

/-!
# What is written is what the scan decodes

The objects in a write buffer lie one behind the other, each with the length that its own header gives. Behind the last
one there are too few bytes for a header, or zeros.
-/

namespace Memcached.Exstore

open MemoryLru (sizeof_item)
open Memory (read write)

variable {crc32c : List UInt8 → Nat} {m m' buf : Nat → UInt8} {p q size fuel : Nat} {it : Source} {its : List Source}
  {w w' : Wbuf}

/-- The visits of objects that lie one behind the other, from `p` on. -/
def visits : Nat → List Source → List Visit
  | _, [] => []
  | p, it :: its => ⟨p, it.ntotal, ITEM_key it.mem 0, it.hv.toNat⟩ :: visits (p + it.ntotal) its

/-- The copies of the items lie one behind the other, from `p` up to `q`. -/
def Packed (crc32c : List UInt8 → Nat) (m : Nat → UInt8) : Nat → List Source → Nat → Prop
  | p, [], q => p = q
  | p, it :: its, q => Image crc32c m p it ∧ Packed crc32c m (p + it.ntotal) its q

theorem Packed.le (h : Packed crc32c m p its q) : p ≤ q := by
  induction its generalizing p with
  | nil => exact Nat.le_of_eq h
  | cons it its ih =>
      have hrest := ih h.2
      omega

theorem Packed.congr (h : Packed crc32c m p its q) (heq : ∀ i, p ≤ i → i < q → m' i = m i) :
    Packed crc32c m' p its q := by
  induction its generalizing p with
  | nil => exact h
  | cons it its ih =>
      obtain ⟨himage, hrest⟩ := h
      have hle := hrest.le
      constructor
      · exact himage.congr fun i hlo hhi => heq i hlo (by omega)
      · exact ih hrest fun i hlo hhi => heq i (by omega) hhi

theorem Packed.snoc (h : Packed crc32c m p its q) (himage : Image crc32c m q it) :
    Packed crc32c m p (its ++ [it]) (q + it.ntotal) := by
  induction its generalizing p with
  | nil =>
      obtain rfl : p = q := h
      exact ⟨himage, rfl⟩
  | cons it its ih => exact ⟨h.1, ih h.2⟩

/-! ## The write buffer -/

/-- The items that were written are packed up to `buf_pos`, and the rest of the buffer is free. -/
structure Filled (crc32c : List UInt8 → Nat) (size : Nat) (its : List Source) (w : Wbuf) : Prop where
  packed : Packed crc32c w.buf 0 its w.buf_pos
  free : w.buf_pos + w.free = size
  size : w.size = size

theorem Filled.write_object (h : Filled crc32c size its w) (hw : write_object crc32c w it = some w') :
    Filled crc32c size (its ++ [it]) w' := by
  unfold Exstore.write_object at hw
  split at hw
  · cases hw
  next hroom =>
      rw [not_or, Nat.not_lt] at hroom
      have hcopy : ∃ m, copy_object crc32c it w.buf_pos w.buf = some m ∧ Image crc32c m w.buf_pos it ∧
          ∀ i, i < w.buf_pos ∨ w.buf_pos + it.ntotal ≤ i → m i = w.buf i := copy_object_spec
      obtain ⟨m, hm, himage, hframe⟩ := hcopy
      rw [hm, Option.bind_eq_bind, Option.bind_some, Option.some.injEq] at hw
      subst hw
      have hfree := h.free
      refine ⟨?_, ?_, h.size⟩
      · exact (h.packed.congr fun i _ hi => hframe i (.inl hi)).snoc himage
      · simp only
        omega

theorem Filled.run {done : List Source} (h : Filled crc32c size done w)
    (hw : its.foldlM (Exstore.write_object crc32c) w = some w') : Filled crc32c size (done ++ its) w' := by
  induction its generalizing done w with
  | nil =>
      obtain rfl := Option.some.inj hw
      simpa using h
  | cons it its ih =>
      rw [List.foldlM_cons] at hw
      obtain ⟨w₁, hone, hrest⟩ := Option.bind_eq_some_iff.mp hw
      simpa using ih (h.write_object hone) hrest

theorem Filled.zero_end (h : Filled crc32c size its w) : Packed crc32c w.zero_end.buf 0 its w.buf_pos ∧
    ∀ i, w.buf_pos ≤ i → i < size → w.zero_end.buf i = 0 := by
  have hfree := h.free
  have hsize := h.size
  constructor
  · apply h.packed.congr
    intro i _ hi
    exact Memory.write_apply_of_apart (.inl (by omega))
  · intro i hlo hhi
    obtain ⟨j, rfl⟩ := Nat.exists_eq_add_of_le hlo
    have hstart : w.size - w.free = w.buf_pos := by omega
    simp only [Wbuf.zero_end, hstart]
    rw [Memory.write_apply_of_lt (by simp; omega)]
    simp

/-! ## The scan -/

theorem scan_packed (h : Packed crc32c m p its q) (hq : q ≤ size) (hzero : ∀ i, q ≤ i → i < size → m i = 0)
    (hend : sizeof_item ≤ size - p ∨ size ≤ p) (hfuel : its.length < fuel) : scan m size fuel p = some (visits p its) := by
  induction its generalizing p fuel with
  | nil =>
      obtain rfl : p = q := h
      obtain ⟨fuel, rfl⟩ := Nat.exists_eq_succ_of_ne_zero (Nat.ne_of_gt hfuel)
      by_cases hdone : size ≤ p
      · simp [scan, hdone, visits]
      · have hsize : sizeof_item = 48 := rfl
        have hnkey : it_nkey m p = 0 := by
          rw [it_nkey, hzero _ (by omega) (by omega)]
          rfl
        rw [scan, if_neg hdone, if_neg (by omega), if_pos hnkey, visits]
  | cons it its ih =>
      obtain ⟨himage, hrest⟩ := h
      obtain ⟨fuel, rfl⟩ := Nat.exists_eq_succ_of_ne_zero (Nat.ne_of_gt (Nat.lt_of_le_of_lt (Nat.zero_le _) hfuel))
      have hle := hrest.le
      have hlt := it.lt_hdrtotal
      have htotal := it.ntotal_eq
      have hnkey := it.nkey_pos
      rw [scan, if_neg (by omega), if_neg (by omega), himage.nkey, if_neg (by omega), himage.ntotal,
        Nat.mod_eq_of_lt it.ntotal_lt]
      simp only
      rw [if_neg (by omega), himage.key, himage.time]
      by_cases hshort : size - (p + it.ntotal) < sizeof_item
      · -- no object is that short, so this was the last one
        cases its with
        | nil => rw [if_pos hshort, visits, visits]
        | cons it' its =>
            have hle' := hrest.2.le
            have hlt' := it'.lt_hdrtotal
            have htotal' := it'.ntotal_eq
            omega
      · rw [if_neg hshort, ih hrest (.inl (by omega)) (by simpa using hfuel)]
        rfl

theorem Filled.fresh {offset : Nat} : Filled crc32c size [] (Wbuf.fresh buf size offset) where
  packed := rfl
  free := Nat.zero_add _
  size := rfl

/-- A buffer has room for a header; its size is a multiple of 2 MB. -/
theorem scan_written {offset : Nat} (hsize : sizeof_item ≤ size)
    (hw : its.foldlM (write_object crc32c) (Wbuf.fresh buf size offset) = some w) (hfuel : its.length < fuel) :
    scan w.zero_end.buf size fuel 0 = some (visits 0 its) := by
  have hfilled : Filled crc32c size ([] ++ its) w := Filled.fresh.run hw
  obtain ⟨hpacked, hzero⟩ := hfilled.zero_end
  have hfree := hfilled.free
  exact scan_packed hpacked (by omega) hzero (.inl hsize) hfuel

/-- An item with the key `a`, a CAS value and a value of three bytes. -/
def plain_source : Source where
  mem := write (fun _ => 0) 32 [3, 0, 0, 0, 2, 0, 0, 3, 129, 1, 0, 0, 0, 0, 0, 0, 9, 0, 0, 0, 0, 0, 0, 0, 97, 0, 120, 13, 10]
  chunks := []
  hv := 7
  nkey_pos := by decide
  nbytes_lt := by decide
  used := by decide

/-- A chunked item with the key `bc` and a value of five bytes in two chunks. -/
def chunked_source : Source where
  mem := write (fun _ => 0) 32 [5, 0, 0, 0, 2, 0, 0, 33, 130, 2, 0, 0, 0, 0, 0, 0, 98, 99, 0]
  chunks := [[49, 50], [51, 13, 10]]
  hv := 8
  nkey_pos := by decide
  nbytes_lt := by decide
  used := by decide

/-- The two fill a buffer of 117 bytes. -/
theorem scan_written_full : ∃ w, [plain_source, chunked_source].foldlM (write_object fun _ => 5)
      (Wbuf.fresh (fun _ => 255) 117 0) = some w ∧ w.free = 0 ∧
    scan w.zero_end.buf 117 3 0 = some [⟨0, 61, [97], 7⟩, ⟨61, 56, [98, 99], 8⟩] := by
  refine ⟨_, rfl, rfl, ?_⟩
  have hscan := scan_written (by decide) (rfl : [plain_source, chunked_source].foldlM (write_object fun _ => 5)
    (Wbuf.fresh (fun _ => 255) 117 0) = some _) (by decide : [plain_source, chunked_source].length < 3)
  exact hscan

end Memcached.Exstore

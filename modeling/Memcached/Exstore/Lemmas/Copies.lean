import Memcached.Exstore.Storage

/-!
# The copy of an item in a write buffer

Whether an item is chunked or not, what is copied is its header from `nbytes` on, and behind it the value.
-/

namespace Memcached.Exstore

open MemoryLru (sizeof_item)
open Memory (read write le of_le)

variable {crc32c : List UInt8 → Nat} {m m' : Nat → UInt8} {p buf remain pos i : Nat} {it : Source}
  {sch : List (List UInt8)}

/-- The item at `p` is the copy that `storage_write` makes. -/
structure Image (crc32c : List UInt8 → Nat) (m : Nat → UInt8) (p : Nat) (it : Source) : Prop where
  header : ∀ i, STORE_OFFSET ≤ i → i < it.hdrtotal → i ≠ 39 → m (p + i) = it.mem i
  flags : it_flags m p = it_flags it.mem 0 &&& ~~~ITEM_LINKED
  value : read m (p + it.hdrtotal) (it_nbytes it.mem 0) = it.value
  time : it_time m p = it.hv.toNat
  crc : it_exptime m p = crc32c (read m (p + STORE_OFFSET) (it.ntotal - STORE_OFFSET)) % 2 ^ 32

/-! ## Sizes -/

theorem Source.hdrtotal_eq (it : Source) :
    it.hdrtotal = sizeof_item + it_nkey it.mem 0 + 1 + it_nsuffix it.mem 0 + sizeof_cas it.mem 0 := by
  unfold hdrtotal ntotal ITEM_ntotal
  omega

theorem Source.ntotal_eq (it : Source) : it.ntotal = it.hdrtotal + it_nbytes it.mem 0 := by
  rw [hdrtotal_eq]
  unfold ntotal ITEM_ntotal
  omega

theorem Source.lt_hdrtotal (it : Source) : sizeof_item < it.hdrtotal := by
  rw [hdrtotal_eq]
  omega

theorem sizeof_cas_le : sizeof_cas m p ≤ 8 := by
  unfold sizeof_cas
  split <;> omega

theorem Source.ntotal_lt (it : Source) : it.ntotal < 2 ^ 32 := by
  have hnbytes := it.nbytes_lt
  have hkey := (it.mem (0 + 41)).toNat_lt
  have hsuffix := (it.mem (0 + 38)).toNat_lt
  have hcas : sizeof_cas it.mem 0 ≤ 8 := sizeof_cas_le
  simp only [Source.ntotal, ITEM_ntotal, it_nkey, it_nsuffix, sizeof_item]
  omega

theorem Source.length_value (it : Source) : it.value.length = it_nbytes it.mem 0 := by
  unfold value
  split
  next hchunked => exact it.used hchunked
  next => exact Memory.length_read

/-! ## Fields of a copy -/

theorem cas_of_unlinked (f : UInt8) : f &&& ~~~ITEM_LINKED &&& ITEM_CAS = f &&& ITEM_CAS := by
  rw [UInt8.and_assoc]
  rfl

namespace Image

theorem nkey (h : Image crc32c m p it) : it_nkey m p = it_nkey it.mem 0 := by
  have hlt := it.lt_hdrtotal
  have hbyte := h.header 41 (by decide) (Nat.lt_of_le_of_lt (by decide) hlt) (by decide)
  simp [it_nkey, hbyte]

theorem nsuffix (h : Image crc32c m p it) : it_nsuffix m p = it_nsuffix it.mem 0 := by
  have hlt := it.lt_hdrtotal
  have hbyte := h.header 38 (by decide) (Nat.lt_of_le_of_lt (by decide) hlt) (by decide)
  simp [it_nsuffix, hbyte]

theorem nbytes (h : Image crc32c m p it) : it_nbytes m p = it_nbytes it.mem 0 := by
  have hlt := it.lt_hdrtotal
  have hsize : sizeof_item = 48 := rfl
  unfold it_nbytes
  congr 1
  apply Memory.read_congr
  intro i hi
  rw [Nat.add_assoc, h.header (32 + i) (by simp [STORE_OFFSET]) (by omega) (by omega), Nat.zero_add]

theorem sizeof_cas (h : Image crc32c m p it) : sizeof_cas m p = sizeof_cas it.mem 0 := by
  unfold Exstore.sizeof_cas
  rw [h.flags, cas_of_unlinked]

theorem ntotal (h : Image crc32c m p it) : ITEM_ntotal m p = it.ntotal := by
  unfold Source.ntotal ITEM_ntotal
  rw [h.nkey, h.nsuffix, h.nbytes, h.sizeof_cas]

theorem key (h : Image crc32c m p it) : ITEM_key m p = ITEM_key it.mem 0 := by
  have hhdr := it.hdrtotal_eq
  have hsize : sizeof_item = 48 := rfl
  unfold ITEM_key
  rw [h.nkey, h.sizeof_cas]
  apply Memory.read_congr
  intro i hi
  rw [Nat.add_assoc, Nat.add_assoc, h.header _ (by simp only [STORE_OFFSET]; omega) (by omega) (by omega)]
  congr 1
  omega

theorem congr (h : Image crc32c m p it) (heq : ∀ i, p ≤ i → i < p + it.ntotal → m' i = m i) : Image crc32c m' p it := by
  have hlt := it.lt_hdrtotal
  have htotal := it.ntotal_eq
  have hsize : sizeof_item = 48 := rfl
  have hread : ∀ a n, p ≤ a → a + n ≤ p + it.ntotal → read m' a n = read m a n := by
    intro a n hlo hhi
    apply Memory.read_congr
    intro i hi
    exact heq _ (by omega) (by omega)
  refine ⟨?_, ?_, ?_, ?_, ?_⟩
  · intro i hlo hhi hne
    rw [heq _ (by omega) (by omega), h.header i hlo hhi hne]
  · rw [it_flags, heq _ (by omega) (by omega)]
    exact h.flags
  · rw [hread _ _ (by omega) (by omega)]
    exact h.value
  · rw [it_time, hread _ _ (by omega) (by omega)]
    exact h.time
  · rw [it_exptime, hread _ _ (by omega) (by omega), hread _ _ (by omega) (by simp only [STORE_OFFSET]; omega)]
    exact h.crc

end Image

/-! ## The copy -/

theorem copy_chunks_eq (h : sch.flatten.length < remain) :
    copy_chunks buf sch remain pos m = some (write m (buf + pos) sch.flatten) := by
  induction sch generalizing remain pos m with
  | nil =>
      have hnone : write m (buf + pos) [] = m := funext fun i => Memory.write_apply_of_apart (by simp; omega)
      simp [copy_chunks, hnone]
  | cons data sch ih =>
      rw [List.flatten_cons, List.length_append] at h
      rw [copy_chunks, if_neg (by omega), if_neg (by omega), ih (by omega), ← Nat.add_assoc, Memory.write_append,
        List.flatten_cons]

/-- What is copied from `nbytes` on. -/
def Source.body (it : Source) : List UInt8 := read it.mem STORE_OFFSET (it.hdrtotal - STORE_OFFSET) ++ it.value

theorem Source.length_body (it : Source) : it.body.length = it.ntotal - STORE_OFFSET := by
  have hlt := it.lt_hdrtotal
  have htotal := it.ntotal_eq
  have hsize : sizeof_item = 48 := rfl
  rw [body, List.length_append, Memory.length_read, it.length_value]
  simp only [STORE_OFFSET]
  omega

/-- The buffer with the bytes of the item in it, but for the last two stores. -/
def copied_to (m : Nat → UInt8) (buf : Nat) (it : Source) : Nat → UInt8 :=
  write (write m (buf + 24) (le 4 it.hv.toNat)) (buf + STORE_OFFSET) it.body

/-- And with `ITEM_LINKED` cleared. -/
def unlinked_in (m : Nat → UInt8) (buf : Nat) : Nat → UInt8 := write m (buf + 39) [it_flags m buf &&& ~~~ITEM_LINKED]

theorem copy_object_eq : copy_object crc32c it buf m =
    some (write (unlinked_in (copied_to m buf it) buf) (buf + 28)
      (le 4 (crc32c (read (unlinked_in (copied_to m buf it) buf) (buf + STORE_OFFSET) (it.ntotal - STORE_OFFSET))))) := by
  have hlt := it.lt_hdrtotal
  have htotal := it.ntotal_eq
  have hsize : sizeof_item = 48 := rfl
  have hoffset : STORE_OFFSET = 32 := rfl
  by_cases hchunked : it_flags it.mem 0 &&& ITEM_CHUNKED ≠ 0
  · have hused := it.used hchunked
    have hvalue : it.value = it.chunks.flatten := if_pos hchunked
    have hcopy : copy_chunks buf it.chunks it.ntotal it.hdrtotal
        (write (write m (buf + 24) (le 4 it.hv.toNat)) (buf + STORE_OFFSET)
          (read it.mem STORE_OFFSET (it.hdrtotal - STORE_OFFSET))) = some (copied_to m buf it) := by
      have hat : buf + it.hdrtotal = buf + STORE_OFFSET + (it.hdrtotal - STORE_OFFSET) := by omega
      rw [copy_chunks_eq (by omega), copied_to, Source.body, ← Memory.write_append, Memory.length_read, hvalue, hat]
    simp only [copy_object, if_pos hchunked, hcopy, Option.bind_eq_bind, Option.bind_some, unlinked_in]
  · have hvalue : it.value = read it.mem it.hdrtotal (it_nbytes it.mem 0) := if_neg hchunked
    have hcopy : read it.mem STORE_OFFSET (it.ntotal - STORE_OFFSET) = it.body := by
      have hsplit : it.ntotal - STORE_OFFSET = (it.hdrtotal - STORE_OFFSET) + it_nbytes it.mem 0 := by omega
      rw [Source.body, hvalue, hsplit, Memory.read_add]
      congr 2
      omega
    simp only [copy_object, if_neg hchunked, hcopy, Option.bind_eq_bind, Option.bind_some, unlinked_in, copied_to]

theorem copied_to_header (hlo : STORE_OFFSET ≤ i) (hhi : i < it.hdrtotal) : copied_to m buf it (buf + i) = it.mem i := by
  obtain ⟨j, rfl⟩ := Nat.exists_eq_add_of_le hlo
  have hbody := it.length_body
  have htotal := it.ntotal_eq
  have hj : j < (read it.mem STORE_OFFSET (it.hdrtotal - STORE_OFFSET)).length := by
    rw [Memory.length_read]
    omega
  rw [copied_to, ← Nat.add_assoc, Memory.write_apply_of_lt (by omega)]
  simp only [Source.body]
  rw [List.getElem_append_left hj]
  simp [Memory.read]

theorem copied_to_value : read (copied_to m buf it) (buf + it.hdrtotal) (it_nbytes it.mem 0) = it.value := by
  have hlt := it.lt_hdrtotal
  have hsize : sizeof_item = 48 := rfl
  have hoffset : STORE_OFFSET = 32 := rfl
  have hat : buf + it.hdrtotal = buf + STORE_OFFSET + (read it.mem STORE_OFFSET (it.hdrtotal - STORE_OFFSET)).length := by
    rw [Memory.length_read]
    omega
  rw [copied_to, Source.body, ← Memory.write_append, ← hat, ← it.length_value, Memory.read_write_self]

theorem copy_object_spec : ∃ m', copy_object crc32c it buf m = some m' ∧ Image crc32c m' buf it ∧
    ∀ i, i < buf ∨ buf + it.ntotal ≤ i → m' i = m i := by
  have hlt := it.lt_hdrtotal
  have htotal := it.ntotal_eq
  have hsize : sizeof_item = 48 := rfl
  have hoffset : STORE_OFFSET = 32 := rfl
  refine ⟨_, copy_object_eq, ?_, ?_⟩
  · have hcopied : ∀ {c : Nat} i, i < 28 ∨ 32 ≤ i → i ≠ 39 →
        write (unlinked_in (copied_to m buf it) buf) (buf + 28) (le 4 c) (buf + i) = copied_to m buf it (buf + i) := by
      intro c i hi hne
      rw [Memory.write_apply_of_apart (by simp; omega), unlinked_in, Memory.write_apply_of_apart (by simp; omega)]
    refine ⟨?_, ?_, ?_, ?_, ?_⟩
    · intro i hlo hhi hne
      rw [hcopied i (by omega) hne, copied_to_header hlo hhi]
    · have hflags : it_flags (copied_to m buf it) buf = it_flags it.mem 0 := by
        rw [it_flags, copied_to_header (by decide) (by omega), it_flags]
      rw [it_flags, Memory.write_apply_of_apart (by simp), unlinked_in, Memory.write_singleton, hflags]
    · have hread : ∀ {c : Nat}, read (write (unlinked_in (copied_to m buf it) buf) (buf + 28) (le 4 c))
          (buf + it.hdrtotal) (it_nbytes it.mem 0) = it.value := by
        intro c
        have hvalue : read (copied_to m buf it) (buf + it.hdrtotal) (it_nbytes it.mem 0) = it.value := copied_to_value
        rw [← hvalue]
        apply Memory.read_congr
        intro i hi
        rw [Nat.add_assoc, hcopied _ (by omega) (by omega)]
      exact hread
    · have htime : ∀ {c : Nat}, read (write (unlinked_in (copied_to m buf it) buf) (buf + 28) (le 4 c)) (buf + 24) 4 =
          le 4 it.hv.toNat := by
        intro c
        rw [Memory.read_write_of_apart (by omega), unlinked_in, Memory.read_write_of_apart (by omega), copied_to,
          Memory.read_write_of_apart (by omega)]
        rw [Memory.read_write_take (by simp), List.take_of_length_le (by simp)]
      rw [it_time, htime, Memory.of_le_le]
      exact Nat.mod_eq_of_lt it.hv.toNat_lt
    · have hbehind : ∀ {c : Nat} {n : Nat}, read (write (unlinked_in (copied_to m buf it) buf) (buf + 28) (le 4 c))
          (buf + STORE_OFFSET) n = read (unlinked_in (copied_to m buf it) buf) (buf + STORE_OFFSET) n := by
        intro c n
        rw [Memory.read_write_of_apart (by rw [Memory.length_le]; omega)]
      have hself : ∀ {c : Nat}, read (write (unlinked_in (copied_to m buf it) buf) (buf + 28) (le 4 c)) (buf + 28) 4 =
          le 4 c := by
        intro c
        rw [Memory.read_write_take (by simp), List.take_of_length_le (by simp)]
      have hword : (256 : Nat) ^ 4 = 2 ^ 32 := by decide
      rw [it_exptime, hself, Memory.of_le_le, hbehind, hword]
  · intro i hi
    have hbody := it.length_body
    rw [Memory.write_apply_of_apart (by simp; omega), unlinked_in, Memory.write_apply_of_apart (by simp; omega), copied_to,
      Memory.write_apply_of_apart (by omega), Memory.write_apply_of_apart (by simp; omega)]

end Memcached.Exstore

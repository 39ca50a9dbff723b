import Mathlib.Data.List.Basic
import Mathlib.Data.UInt

/-!
# Memory as a function of addresses

Runs of cells that are read, written and moved. A write or a move changes the cells of its destination, and what is read
elsewhere is what was there.
-/

namespace Memory

universe u

variable {α : Type u}

/-- The `n` cells from `a` on. -/
def read (mem : Nat → α) (a n : Nat) : List α := (List.range n).map fun i => mem (a + i)

def write (mem : Nat → α) (a : Nat) (xs : List α) : Nat → α := fun p => if a ≤ p then xs.getD (p - a) (mem p) else mem p

/-- The `n` cells from `src` on are copied to `dst`; the two may overlap. -/
def move (mem : Nat → α) (dst src n : Nat) : Nat → α := fun p => if dst ≤ p ∧ p < dst + n then mem (src + (p - dst)) else mem p

/-- The `n` cells from `a` on, turned round where they stand. -/
def reverse (mem : Nat → α) (a n : Nat) : Nat → α := fun p => if a ≤ p ∧ p < a + n then mem (a + (a + n - 1 - p)) else mem p

variable {mem mem' : Nat → α} {a b n m dst src : Nat} {xs : List α}

@[simp] theorem length_read : (read mem a n).length = n := by simp [read]

@[simp] theorem read_zero : read mem a 0 = [] := rfl

theorem read_congr (h : ∀ i, i < n → mem' (b + i) = mem (a + i)) : read mem' b n = read mem a n :=
  List.map_congr_left fun i hi => h i (List.mem_range.mp hi)

theorem read_eq_iff : read mem' b n = read mem a n ↔ ∀ i, i < n → mem' (b + i) = mem (a + i) := by
  simp [read, List.map_inj_left]

theorem read_add : read mem a (n + m) = read mem a n ++ read mem (a + n) m := by
  apply List.ext_getElem
  · simp
  intro i hi hi'
  by_cases hn : i < n
  · rw [List.getElem_append_left (by simpa using hn)]
    simp [read]
  · rw [List.getElem_append_right (by simpa using hn)]
    simp only [read, List.getElem_map, List.getElem_range, List.length_map, List.length_range]
    congr 1
    omega

theorem drop_read (h : m ≤ n) : (read mem a n).drop m = read mem (a + m) (n - m) := by
  obtain ⟨k, rfl⟩ := Nat.exists_eq_add_of_le h
  rw [read_add, List.drop_append_of_le_length (by simp), List.drop_of_length_le (by simp), List.nil_append,
    Nat.add_sub_cancel_left]

/-! ## Numbers in memory -/

/-- The `n` lowest bytes of a number, the lowest first. -/
def le : Nat → Nat → List UInt8
  | 0, _ => []
  | n + 1, v => .ofNat v :: le n (v / 256)

def of_le : List UInt8 → Nat
  | [] => 0
  | b :: bs => b.toNat + 256 * of_le bs

@[simp] theorem length_le {v : Nat} : (le n v).length = n := by
  induction n generalizing v with
  | zero => rfl
  | succ n ih => simp [le, ih]

theorem of_le_le {v : Nat} : of_le (le n v) = v % 256 ^ n := by
  induction n generalizing v with
  | zero => simp [le, of_le, Nat.mod_one]
  | succ n ih =>
      have hbyte : (UInt8.ofNat v).toNat = v % 256 := by simp
      rw [le, of_le, ih, hbyte, Nat.pow_succ, Nat.mul_comm (256 ^ n), Nat.mod_mul]

/-! ## Writes and moves -/

theorem write_apply_of_lt {i : Nat} (h : i < xs.length) : write mem a xs (a + i) = xs[i] := by
  simp [write, h]

theorem write_singleton {x : α} : write mem a [x] a = x := by
  simp [write]

theorem write_apply_of_apart {p : Nat} (h : p < a ∨ a + xs.length ≤ p) : write mem a xs p = mem p := by
  simp only [write]
  split
  · rw [List.getD_eq_getElem?_getD, List.getElem?_eq_none (by omega), Option.getD_none]
  · rfl

theorem write_append {ys : List α} : write (write mem a xs) (a + xs.length) ys = write mem a (xs ++ ys) := by
  funext p
  by_cases hlo : p < a
  · rw [write_apply_of_apart (.inl (by omega)), write_apply_of_apart (.inl hlo), write_apply_of_apart (.inl hlo)]
  obtain ⟨i, rfl⟩ := Nat.exists_eq_add_of_le (Nat.le_of_not_lt hlo)
  by_cases hx : i < xs.length
  · rw [write_apply_of_apart (.inl (by omega)), write_apply_of_lt hx, write_apply_of_lt (by simp; omega),
      List.getElem_append_left hx]
  by_cases hy : i < xs.length + ys.length
  · obtain ⟨j, rfl⟩ := Nat.exists_eq_add_of_le (Nat.le_of_not_lt hx)
    rw [← Nat.add_assoc, write_apply_of_lt (by omega), Nat.add_assoc, write_apply_of_lt (by simp; omega),
      List.getElem_append_right (by omega)]
    simp
  · rw [write_apply_of_apart (.inr (by omega)), write_apply_of_apart (.inr (by omega)),
      write_apply_of_apart (.inr (by simp; omega))]

theorem read_write_self : read (write mem a xs) a xs.length = xs := by
  apply List.ext_getElem
  · simp
  intro i hi hi'
  simp [read, write, hi']

theorem read_write_take (h : n ≤ xs.length) : read (write mem a xs) a n = xs.take n := by
  have hall : read (write mem a xs) a xs.length = xs := read_write_self
  obtain ⟨k, hk⟩ := Nat.exists_eq_add_of_le h
  rw [hk, read_add] at hall
  calc read (write mem a xs) a n
      = (read (write mem a xs) a n ++ read (write mem a xs) (a + n) k).take n := by
        rw [List.take_append_of_le_length (by simp), List.take_of_length_le (by simp)]
    _ = xs.take n := by rw [hall]

theorem read_write_of_apart (h : b + n ≤ a ∨ a + xs.length ≤ b) : read (write mem a xs) b n = read mem b n := by
  refine read_congr fun i hi => ?_
  simp only [write]
  split
  · rw [List.getD_eq_getElem?_getD, List.getElem?_eq_none (by omega), Option.getD_none]
  · rfl

theorem read_move_self (h : m ≤ n) : read (move mem dst src n) dst m = read mem src m := by
  refine read_congr fun i hi => ?_
  simp only [move]
  rw [if_pos (by omega)]
  congr 1
  omega

theorem reverse_of_apart {p : Nat} (h : p < a ∨ a + n ≤ p) : reverse mem a n p = mem p := if_neg (by omega)

end Memory

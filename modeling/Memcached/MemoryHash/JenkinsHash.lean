import Memcached.Lib.ByteOrder

/-!
# The hash of keys: memory_hash/jenkins_hash.c

`ENDIAN_BIG` and `ENDIAN_LITTLE` choose how the hash is built. The machine reads words in a byte order of its own. A key is a
place in memory: the aligned reads go beyond its end. The paths for VALGRIND are left out.
-/

namespace Memcached.MemoryHash

/-- The internal state. -/
structure Abc where
  a : UInt32
  b : UInt32
  c : UInt32
  deriving DecidableEq

def rot (x k : UInt32) : UInt32 := (x <<< k) ^^^ (x >>> (32 - k))

def mix (s : Abc) : Abc :=
  let a := (s.a - s.c) ^^^ rot s.c 4
  let c := s.c + s.b
  let b := (s.b - a) ^^^ rot a 6
  let a := a + c
  let c := (c - b) ^^^ rot b 8
  let b := b + a
  let a := (a - c) ^^^ rot c 16
  let c := c + b
  let b := (b - a) ^^^ rot a 19
  let a := a + c
  let c := (c - b) ^^^ rot b 4
  let b := b + a
  ⟨a, b, c⟩

/-- `final(a,b,c)`, of which `c` is returned. -/
def final (s : Abc) : UInt32 :=
  let c := (s.c ^^^ s.b) - rot s.b 14
  let a := (s.a ^^^ c) - rot c 11
  let b := (s.b ^^^ a) - rot a 25
  let c := (c ^^^ b) - rot b 16
  let a := (a ^^^ c) - rot c 4
  let b := (b ^^^ a) - rot a 14
  (c ^^^ b) - rot b 24

/-! ## Reads -/

section
variable (machine : ByteOrder) (mem : Nat → UInt8) (p : Nat)

def k8 (i : Nat) : UInt32 := (mem (p + i)).toUInt32

def k16 (i : Nat) : UInt32 := machine.half (mem (p + 2 * i)) (mem (p + 2 * i + 1))

def k32 (i : Nat) : UInt32 :=
  machine.word (mem (p + 4 * i)) (mem (p + 4 * i + 1)) (mem (p + 4 * i + 2)) (mem (p + 4 * i + 3))

/-! ## Blocks of 12 bytes -/

def block32 (s : Abc) : Abc := ⟨s.a + k32 machine mem p 0, s.b + k32 machine mem p 1, s.c + k32 machine mem p 2⟩

def block16 (s : Abc) : Abc where
  a := s.a + (k16 machine mem p 0 + (k16 machine mem p 1 <<< 16))
  b := s.b + (k16 machine mem p 2 + (k16 machine mem p 3 <<< 16))
  c := s.c + (k16 machine mem p 4 + (k16 machine mem p 5 <<< 16))

def block8_little (s : Abc) : Abc where
  a := s.a + k8 mem p 0 + (k8 mem p 1 <<< 8) + (k8 mem p 2 <<< 16) + (k8 mem p 3 <<< 24)
  b := s.b + k8 mem p 4 + (k8 mem p 5 <<< 8) + (k8 mem p 6 <<< 16) + (k8 mem p 7 <<< 24)
  c := s.c + k8 mem p 8 + (k8 mem p 9 <<< 8) + (k8 mem p 10 <<< 16) + (k8 mem p 11 <<< 24)

def block8_big (s : Abc) : Abc where
  a := s.a + (k8 mem p 0 <<< 24) + (k8 mem p 1 <<< 16) + (k8 mem p 2 <<< 8) + k8 mem p 3
  b := s.b + (k8 mem p 4 <<< 24) + (k8 mem p 5 <<< 16) + (k8 mem p 6 <<< 8) + k8 mem p 7
  c := s.c + (k8 mem p 8 <<< 24) + (k8 mem p 9 <<< 16) + (k8 mem p 10 <<< 8) + k8 mem p 11

/-! ## The last block -/

/-- The masks of the words of which one, two and three bytes are left. -/
def masks : ByteOrder → UInt32 × UInt32 × UInt32
  | .little => (0xff, 0xffff, 0xffffff)
  | .big => (0xff000000, 0xffff0000, 0xffffff00)

def last32 (build : ByteOrder) (length : Nat) (s : Abc) : Abc :=
  let k := k32 machine mem p
  let (one, two, three) := masks build
  match length with
  | 12 => ⟨s.a + k 0, s.b + k 1, s.c + k 2⟩
  | 11 => ⟨s.a + k 0, s.b + k 1, s.c + (k 2 &&& three)⟩
  | 10 => ⟨s.a + k 0, s.b + k 1, s.c + (k 2 &&& two)⟩
  | 9 => ⟨s.a + k 0, s.b + k 1, s.c + (k 2 &&& one)⟩
  | 8 => ⟨s.a + k 0, s.b + k 1, s.c⟩
  | 7 => ⟨s.a + k 0, s.b + (k 1 &&& three), s.c⟩
  | 6 => ⟨s.a + k 0, s.b + (k 1 &&& two), s.c⟩
  | 5 => ⟨s.a + k 0, s.b + (k 1 &&& one), s.c⟩
  | 4 => ⟨s.a + k 0, s.b, s.c⟩
  | 3 => ⟨s.a + (k 0 &&& three), s.b, s.c⟩
  | 2 => ⟨s.a + (k 0 &&& two), s.b, s.c⟩
  | 1 => ⟨s.a + (k 0 &&& one), s.b, s.c⟩
  | _ => s

def last16 (length : Nat) (s : Abc) : Abc :=
  let k := k16 machine mem p
  let a := s.a + (k 0 + (k 1 <<< 16))
  let b := s.b + (k 2 + (k 3 <<< 16))
  match length with
  | 12 => ⟨a, b, s.c + (k 4 + (k 5 <<< 16))⟩
  | 11 => ⟨a, b, s.c + (k8 mem p 10 <<< 16) + k 4⟩
  | 10 => ⟨a, b, s.c + k 4⟩
  | 9 => ⟨a, b, s.c + k8 mem p 8⟩
  | 8 => ⟨a, b, s.c⟩
  | 7 => ⟨a, s.b + (k8 mem p 6 <<< 16) + k 2, s.c⟩
  | 6 => ⟨a, s.b + k 2, s.c⟩
  | 5 => ⟨a, s.b + k8 mem p 4, s.c⟩
  | 4 => ⟨a, s.b, s.c⟩
  | 3 => ⟨s.a + (k8 mem p 2 <<< 16) + k 0, s.b, s.c⟩
  | 2 => ⟨s.a + k 0, s.b, s.c⟩
  | 1 => ⟨s.a + k8 mem p 0, s.b, s.c⟩
  | _ => s

/-- "all the case statements fall through": the byte `i` is added where there are more than `i`, the last one first. -/
def fall_through (shift : Nat → UInt32) (length : Nat) (x : UInt32) (i : Nat) : UInt32 :=
  let x := if i + 3 < length then x + (k8 mem p (i + 3) <<< shift 3) else x
  let x := if i + 2 < length then x + (k8 mem p (i + 2) <<< shift 2) else x
  let x := if i + 1 < length then x + (k8 mem p (i + 1) <<< shift 1) else x
  if i < length then x + (k8 mem p i <<< shift 0) else x

def shifts : ByteOrder → Nat → UInt32
  | .little, i => .ofNat (8 * i)
  | .big, i => .ofNat (24 - 8 * i)

def last8 (build : ByteOrder) (length : Nat) (s : Abc) : Abc where
  a := fall_through mem p (shifts build) length s.a 0
  b := fall_through mem p (shifts build) length s.b 4
  c := fall_through mem p (shifts build) length s.c 8

end

/-! ## The hash -/

/-- `while (length > 12)`: the place and the length of the last block. The fuel is the length. -/
def hash_loop (block : Nat → Abc → Abc) : Nat → Nat → Nat → Abc → Nat × Nat × Abc
  | 0, k, length, s => (k, length, s)
  | fuel + 1, k, length, s =>
      if 12 < length then hash_loop block fuel (k + 12) (length - 12) (mix (block k s)) else (k, length, s)

def hash_by (block : Nat → Abc → Abc) (last : Nat → Nat → Abc → Abc) (key length : Nat) : UInt32 :=
  let init := 0xdeadbeef + .ofNat length + 0
  let (k, n, s) := hash_loop block length key length ⟨init, init, init⟩
  if n = 0 then s.c else final (last k n s)

def jenkins_hash (build machine : ByteOrder) (mem : Nat → UInt8) (key length : Nat) : UInt32 :=
  match build with
  | .little =>
      if key % 4 = 0 then hash_by (block32 machine mem) (fun p => last32 machine mem p .little) key length
      else if key % 2 = 0 then hash_by (block16 machine mem) (last16 machine mem) key length
      else hash_by (block8_little mem) (fun p => last8 mem p .little) key length
  | .big =>
      if key % 4 = 0 then hash_by (block32 machine mem) (fun p => last32 machine mem p .big) key length
      else hash_by (block8_big mem) (fun p => last8 mem p .big) key length

end Memcached.MemoryHash

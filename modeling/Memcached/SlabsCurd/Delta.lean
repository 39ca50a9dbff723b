import Mathlib.Algebra.Order.Ring.Int
import Memcached.Lib.Decimal
import Memcached.MemoryLru.Items

/-!
# Arithmetic on stored numbers: slabs_curd/memcached.c and slabs_curd/util.c

The functions of slabs_curd/items.c are those of memory_lru/items.c, so the items are in its store; here they have their
bytes as well. Statistics are left out. A function returns `none` where an assertion of the code fails.
-/

namespace Memcached.SlabsCurd

open MemoryLru Decimal

/-! ## util.c -/

def isspace (b : UInt8) : Bool := b = 32 ∨ 9 ≤ b ∧ b ≤ 13

/-- The text at a `char *`, up to its NUL. -/
def c_str (mem : List UInt8) : List UInt8 := mem.takeWhile (· ≠ 0)

/-- An optional sign, and what follows it. -/
def sign : List UInt8 → Bool × List UInt8
  | 45 :: str => (true, str)
  | 43 :: str => (false, str)
  | str => (false, str)

/-- `strtoull` in base 10: the number, the text from `endptr` on, and whether `errno` is `ERANGE`. -/
def strtoull (str : List UInt8) : UInt64 × List UInt8 × Bool :=
  let (negative, rest) := sign (str.dropWhile isspace)
  let number := value (rest.takeWhile isdigit)
  if rest.takeWhile isdigit = [] then (0, str, false)
  else if number ≥ 2 ^ 64 then (.ofNat (2 ^ 64 - 1), rest.dropWhile isdigit, true)
  else (if negative then 0 - .ofNat number else .ofNat number, rest.dropWhile isdigit, false)

/-- `(long long) ull < 0`. -/
def is_negative (ull : UInt64) : Bool := ull.toNat ≥ 2 ^ 63

/-- `safe_strtoull`, on what memory holds from `str` on. -/
def safe_strtoull (mem : List UInt8) : Option UInt64 :=
  let str := c_str mem
  let (ull, endptr, erange) := strtoull str
  if erange ∨ endptr = str then none
  else if endptr = [] ∨ endptr.head?.any isspace then
    if is_negative ull ∧ 45 ∈ str then none else some ull
  else none

/-! ## Items with their bytes -/

structure Cache where
  store : Store
  /-- The bytes from `ITEM_data` on. -/
  data : Ptr → Nat → UInt8
  /-- The bytes from `ITEM_suffix` on. -/
  suffix : Ptr → List UInt8
  /-- What memory holds after an item. -/
  beyond : Ptr → List UInt8

namespace Cache

/-- The `nbytes` bytes of an item. -/
def bytes (c : Cache) (it : Ptr) : List UInt8 := (List.range (c.store.heap it).nbytes).map (c.data it)

/-- What a pointer to `ITEM_data` reads. -/
def memory (c : Cache) (it : Ptr) : List UInt8 := c.bytes it ++ c.beyond it

/-- `memcpy(ITEM_data(it) + off, text, strlen(text))`. -/
def write (c : Cache) (it : Ptr) (off : Nat) (text : List UInt8) : Cache :=
  { c with data := Function.update c.data it fun i =>
      if off ≤ i ∧ i < off + text.length then text.getD (i - off) 0 else c.data it i }

end Cache

/-- The bytes of an `uint32_t`, the lowest first. -/
def le_bytes (v : UInt32) : List UInt8 :=
  [.ofNat v.toNat, .ofNat (v.toNat / 2 ^ 8), .ofNat (v.toNat / 2 ^ 16), .ofNat (v.toNat / 2 ^ 24)]

def of_le_bytes (bs : List UInt8) : UInt32 :=
  .ofNat ((bs.getD 0 0).toNat + (bs.getD 1 0).toNat * 2 ^ 8 + (bs.getD 2 0).toNat * 2 ^ 16 + (bs.getD 3 0).toNat * 2 ^ 24)

/-- What `do_item_alloc` writes to `ITEM_suffix`, where it writes: `" %u %d\\r\\n"`, or the flags. -/
def item_suffix (cfg : Settings) (a : NewItem) (old : List UInt8) : List UInt8 :=
  if cfg.inline_ascii_response then 32 :: digits a.flags.toNat ++ 32 :: digits (a.nbytes - 2) ++ [13, 10]
  else if a.flags = 0 then old
  else le_bytes a.flags

namespace Cache

/-- The flags of the client, from the suffix. -/
def flags (cfg : Settings) (c : Cache) (it : Ptr) : UInt32 :=
  if cfg.inline_ascii_response then (strtoull (c_str (c.suffix it))).1.toUInt32
  else if (c.store.heap it).nsuffix > 0 then of_le_bytes (c.suffix it)
  else 0

def do_item_alloc (cfg : Settings) (c : Cache) (a : NewItem) (rounds : List Round) : Option (Cache × Option Ptr) := do
  let (s, it) ← c.store.do_item_alloc cfg a rounds
  match it with
  | none => some ({ c with store := s }, none)
  | some it =>
      some ({ c with store := s, suffix := Function.update c.suffix it (item_suffix cfg a (c.suffix it)) }, some it)

/-- `do_item_remove`, of a reference that `do_item_get` or `do_item_alloc` gave. -/
def do_item_remove (c : Cache) (it : Ptr) : Option Cache := do
  let s ← c.store.release it
  some { c with store := s }

end Cache

/-! ## memcached.c -/

inductive DeltaResult
  | OK
  | NON_NUMERIC
  | EOM
  | DELTA_ITEM_NOT_FOUND
  | DELTA_ITEM_CAS_MISMATCH
  deriving DecidableEq

/-- What `do_add_delta` returns, with the text in `buf` and the value of `*cas`. -/
structure Reply where
  cache : Cache
  result : DeltaResult
  buf : List UInt8
  cas : Option UInt64

def INCR_MAX_STORAGE_LEN : Nat := 24

/-- The new value; the delta is read as an `uint64_t`. -/
def apply_delta (incr : Bool) (delta : Int64) (value : UInt64) : UInt64 :=
  if incr then value + delta.toUInt64
  else if delta.toUInt64 > value then 0
  else value - delta.toUInt64

namespace Cache

/-- The item is too short for a number, or is in chunks or in external storage. -/
def not_a_number (c : Cache) (it : Ptr) : Bool :=
  (c.store.heap it).nbytes ≤ 2 ∨ (c.store.heap it).it_flags.chunked ∨ (c.store.heap it).it_flags.hdr

/-- The caller gave a CAS, and it is not that of the item. -/
def cas_mismatch (c : Cache) (it : Ptr) (cas : Option UInt64) : Bool :=
  cas.any fun v => v ≠ 0 ∧ (c.store.heap it).get_cas ≠ v

/-- "replace in-place". -/
def replace_in_place (cfg : Settings) (c : Cache) (it : Ptr) (buf : List UInt8) : Option Cache := do
  let s := c.store
  let s := if cfg.use_cas then { s with cas_id := s.cas_id + 1 } else s
  let s := s.modify it fun i => i.set_cas (if cfg.use_cas then s.cas_id else 0)
  let c := { c with store := s }
  let c := c.write it 0 buf
  let c := c.write it buf.length (List.replicate ((c.store.heap it).nbytes - buf.length - 2) 32)
  let s ← c.store.do_item_update cfg it
  some { c with store := s }

/-- The number goes into a new item, which replaces `it`; `none` inside if there is no memory for it. -/
def replace_item (cfg : Settings) (c : Cache) (it : Ptr) (buf : List UInt8) (rounds : List Round) :
    Option (Cache × Bool) := do
  let i := c.store.heap it
  let (c, new_it) ← c.do_item_alloc cfg ⟨i.key, c.flags cfg it, i.exptime, buf.length + 2⟩ rounds
  match new_it with
  | none => some (c, false)
  | some new_it =>
      let c := c.write new_it 0 buf
      let c := c.write new_it buf.length [13, 10]
      let s ← c.store.do_item_replace cfg it new_it
      let new_cas := (s.heap new_it).get_cas
      let s := s.modify it fun i => i.set_cas (if cfg.use_cas then new_cas else 0)
      let c ← { c with store := s }.do_item_remove new_it
      some (c, true)

/-- The end of a successful `do_add_delta`. -/
def finish_delta (c : Cache) (it : Ptr) (buf : List UInt8) (cas : Option UInt64) : Option Reply := do
  let cas := cas.map fun _ => (c.store.heap it).get_cas
  let c ← c.do_item_remove it
  some ⟨c, .OK, buf, cas⟩

/-- From the number in `it` on. -/
def store_delta (cfg : Settings) (c : Cache) (it : Ptr) (value : UInt64) (cas : Option UInt64) (rounds : List Round) :
    Option Reply := do
  let buf := (digits value.toNat).take (INCR_MAX_STORAGE_LEN - 1)
  let i := c.store.heap it
  if buf.length + 2 ≤ i.nbytes ∧ i.refcount = 2 then
    let c ← c.replace_in_place cfg it buf
    c.finish_delta it buf cas
  else if i.refcount > 1 then
    let (c, replaced) ← c.replace_item cfg it buf rounds
    if replaced then c.finish_delta it buf cas
    else
      let c ← c.do_item_remove it
      some ⟨c, .EOM, buf, cas⟩
  else
    -- "Should never get here"
    let c ← if i.refcount = 1 then c.do_item_remove it else some c
    some ⟨c, .DELTA_ITEM_NOT_FOUND, buf, cas⟩

/-- `do_add_delta` from the item on that `do_item_get` returned. -/
def delta_item (cfg : Settings) (c : Cache) (it : Ptr) (incr : Bool) (delta : Int64) (buf : List UInt8)
    (cas : Option UInt64) (rounds : List Round) : Option Reply := do
  if c.not_a_number it then some ⟨c, .NON_NUMERIC, buf, cas⟩
  else if c.cas_mismatch it cas then
    let c ← c.do_item_remove it
    some ⟨c, .DELTA_ITEM_CAS_MISMATCH, buf, cas⟩
  else
    match safe_strtoull (c.memory it) with
    | none =>
        let c ← c.do_item_remove it
        some ⟨c, .NON_NUMERIC, buf, cas⟩
    | some value => c.store_delta cfg it (apply_delta incr delta value) cas rounds

end Cache

/-- `cas` is none for a null pointer; the rounds are those of the allocation, where there is one. -/
def do_add_delta (cfg : Settings) (c : Cache) (key : MemoryLru.Key) (incr : Bool) (delta : Int64) (buf : List UInt8)
    (cas : Option UInt64) (rounds : List Round) : Option Reply := do
  let (s, it) ← c.store.do_item_get cfg key false false
  match it with
  | none => some ⟨{ c with store := s }, .DELTA_ITEM_NOT_FOUND, buf, cas⟩
  | some it => Cache.delta_item cfg { c with store := s } it incr delta buf cas rounds

end Memcached.SlabsCurd

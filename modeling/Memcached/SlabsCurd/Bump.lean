import Memcached.MemoryLru.Lemmas.Bipbuf
import Memcached.SlabsCurd.Delta

/-!
# Asynchronous bumps in slabs_curd/items.c

Each worker has a bump buffer. The bip buffer is that of memory_lru, and so are the other functions on items; what takes
entries out of the buffers is `lru_maintainer_bumps` there. An item is named by its address.
-/

namespace Memcached.SlabsCurd

open MemoryLru

/-! ## Entries -/

/-- `lru_bump_entry`: a pointer, four bytes of `hv`, and four of padding. -/
def sizeof_lru_bump_entry : Nat := 16

def LRU_BUMP_BUF_SIZE : Nat := 8192

/-- `be->it = it; be->hv = hv`. -/
def entry_bytes (it : UInt64) (hv : UInt32) : List UInt8 :=
  le_bytes it.toUInt32 ++ le_bytes (it >>> 32).toUInt32 ++ le_bytes hv

/-- `be->it` and `be->hv`. -/
def read_entry (be : List UInt8) : UInt64 × UInt32 :=
  ((of_le_bytes be).toUInt64 + (of_le_bytes (be.drop 4)).toUInt64 <<< 32, of_le_bytes (be.drop 8))

/-- The entries in a run of bytes. -/
def entries (bytes : List UInt8) : List (UInt64 × UInt32) :=
  (List.range (bytes.length / sizeof_lru_bump_entry)).map fun k => read_entry (bytes.drop (sizeof_lru_bump_entry * k))

/-! ## Buffers -/

/-- A bip buffer that whole entries are put in and taken out of. -/
inductive Fed : Bipbuf → Prop
  | create (data : Nat → UInt8) : Fed (bipbuf_new (sizeof_lru_bump_entry * LRU_BUMP_BUF_SIZE) data)
  | push {me : Bipbuf} {at_ : Nat} (h : Fed me) (hr : bipbuf_request me sizeof_lru_bump_entry = some at_)
      (it : UInt64) (hv : UInt32) : Fed (bipbuf_push (copy_in me at_ (entry_bytes it hv)) sizeof_lru_bump_entry).2
  | poll {me : Bipbuf} {k : Nat} (h : Fed me) (hk : sizeof_lru_bump_entry * k ≤ me.a_end - me.a_start) :
      Fed (bipbuf_poll me (sizeof_lru_bump_entry * k)).2

/-- `lru_bump_buf`. -/
structure LruBumpBuf where
  buf : Bipbuf
  dropped : UInt64
  fed : Fed buf

/-- The items, and the bump buffers of `t` workers. -/
structure Bumps (t : Nat) where
  store : Store
  bufs : Fin t → LruBumpBuf

variable {t : Nat}

def Bumps.item (s : Bumps t) (it : UInt64) : MemoryLru.Item := s.store.heap (.item it.toNat)

/-- The entries that wait in buffer `b`. -/
def Bumps.queued (s : Bumps t) (b : Fin t) : List (UInt64 × UInt32) := entries (s.bufs b).buf.queue

/-! ## items.c -/

/-- The part of `lru_bump_async` up to the test of `ret`, which starts as false. -/
def LruBumpBuf.add (b : LruBumpBuf) (it : UInt64) (hv : UInt32) : Bool × LruBumpBuf :=
  let ret := false
  match hr : bipbuf_request b.buf sizeof_lru_bump_entry with
  | some at_ =>
      let pushed := bipbuf_push (copy_in b.buf at_ (entry_bytes it hv)) sizeof_lru_bump_entry
      let b' : LruBumpBuf := { buf := pushed.2, dropped := b.dropped, fed := .push b.fed hr it hv }
      if pushed.1 = 0 then (false, { b' with dropped := b.dropped + 1 }) else (ret, b')
  | none => (false, { b with dropped := b.dropped + 1 })

def lru_bump_async (s : Bumps t) (b : Fin t) (it : UInt64) (hv : UInt32) : Bool × Bumps t :=
  let store := s.store.refcount_incr (.item it.toNat)
  let (ret, buf) := (s.bufs b).add it hv
  let store := if !ret then store.refcount_decr (.item it.toNat) else store
  (ret, { store := store, bufs := Function.update s.bufs b buf })

/-- The hit markers that `do_item_get` sets when it is to update the item it found. -/
def mark_fetched (cfg : Settings) (s : Bumps t) (b : Fin t) (it : UInt64) (hv : UInt32) : Option (Bumps t) :=
  let p := Ptr.item it.toNat
  let fetched := s.store.modify p fun i => { i with it_flags := { i.it_flags with fetched := true } }
  if cfg.lru_segmented then
    if !(s.item it).it_flags.active then
      if !(s.item it).it_flags.fetched then some { s with store := fetched }
      else
        let s := { s with store := s.store.set_active p true }
        if (s.item it).lruid ≠ Lru.COLD_LRU.bits then do
          let store ← s.store.do_item_update cfg p
          some { s with store := store }
        else
          let (bumped, s) := lru_bump_async s b it hv
          -- add flag before async bump to avoid race
          some (if !bumped then { s with store := s.store.set_active p false } else s)
    else some s
  else do
    let store ← fetched.do_item_update cfg p
    some { s with store := store }

end Memcached.SlabsCurd

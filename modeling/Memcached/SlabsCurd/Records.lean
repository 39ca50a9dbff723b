import Memcached.Lib.Lossy
import Memcached.MemoryLru.Lemmas.Fading
import Memcached.SlabsCurd.Lemmas.Copies

/-!
# The cache as a map

What clients may rely on: a map from keys to values that loses entries when it likes, and the storage commands over it. The
cache of items, with its LRUs, its references and its chunks, is to be such a map.
-/

namespace Memcached.SlabsCurd

open MemoryLru Lossy

/-! ## The map -/

/-- A value, with its CRLF, and what is kept beside it. -/
structure Record where
  value : List UInt8
  flags : UInt32
  exptime : UInt32
  cas : UInt64
  deriving DecidableEq

namespace Record

/-- The first value without its CRLF, then the second. -/
def join (first second : List UInt8) : List UInt8 := first.take (first.length - 2) ++ second

/-- What a command answers where `old` is there, and what it stores. The CAS of `new` is the one that the client gave. -/
def answer (comm : Comm) (old : Option Record) (new : Record) : StoreItemType × Option Record :=
  match comm, old with
  | .NREAD_SET, _ | .NREAD_ADD, none | .NREAD_REPLACE, some _ => (.STORED, some new)
  | .NREAD_ADD, some _ | .NREAD_REPLACE, none | .NREAD_APPEND, none | .NREAD_PREPEND, none => (.NOT_STORED, none)
  | .NREAD_CAS, none => (.NOT_FOUND, none)
  | .NREAD_CAS, some old => if new.cas = old.cas then (.STORED, some new) else (.EXISTS, none)
  | .NREAD_APPEND, some old =>
      if new.cas ≠ 0 ∧ new.cas ≠ old.cas then (.EXISTS, none)
      else (.STORED, some { old with value := join old.value new.value })
  | .NREAD_PREPEND, some old =>
      if new.cas ≠ 0 ∧ new.cas ≠ old.cas then (.EXISTS, none)
      else (.STORED, some { old with value := join new.value old.value })

end Record

/-- What clients see of a step. -/
inductive Seen
  | nothing
  | get (key : MemoryLru.Key) (reply : Option Record)
  | touch (key : MemoryLru.Key) (exptime : UInt32) (reply : Option Record)
  | store (comm : Comm) (key : MemoryLru.Key) (new : Record) (reply : StoreItemType) (cas : UInt64)
  deriving DecidableEq

structure RecordMap where
  entries : MemoryLru.Key → Option Record
  /-- The CAS that was given last. -/
  cas_id : UInt64

namespace RecordMap

/-- The counter after a value is stored. -/
def next_cas (cfg : Settings) (m : RecordMap) : UInt64 := if cfg.use_cas then m.cas_id + 1 else m.cas_id

/-- A storage command on `m`, from which nothing gets lost meanwhile. -/
inductive Stores (cfg : Settings) (m : RecordMap) (comm : Comm) (key : MemoryLru.Key) (new : Record) :
    StoreItemType → UInt64 → RecordMap → Prop
  | stored {r : Record} {cas : UInt64} (hanswer : Record.answer comm (m.entries key) new = (.STORED, some r))
      (hcas : cas = if cfg.use_cas then m.cas_id + 1 else 0) :
      Stores cfg m comm key new .STORED cas
        ⟨Function.update m.entries key (some { r with cas := cas }), m.next_cas cfg⟩
  | refused {reply : StoreItemType} {cas : UInt64} (hanswer : Record.answer comm (m.entries key) new = (reply, none)) :
      Stores cfg m comm key new reply cas m
  /-- There is no memory for both values. -/
  | no_memory {cas : UInt64} (hcomm : comm = .NREAD_APPEND ∨ comm = .NREAD_PREPEND) (hold : (m.entries key).isSome) :
      Stores cfg m comm key new .NOT_STORED cas m

/-- What clients may see, where nothing gets lost. -/
inductive Does (cfg : Settings) (m : RecordMap) : Seen → RecordMap → Prop
  | nothing : Does cfg m .nothing m
  | get {key : MemoryLru.Key} : Does cfg m (.get key (m.entries key)) m
  | touch {key : MemoryLru.Key} {exptime : UInt32} {r : Record} (hentry : m.entries key = some r) :
      Does cfg m (.touch key exptime (some { r with exptime := exptime }))
        { m with entries := Function.update m.entries key (some { r with exptime := exptime }) }
  | untouched {key : MemoryLru.Key} {exptime : UInt32} (hentry : m.entries key = none) : Does cfg m (.touch key exptime none) m
  | store {comm : Comm} {key : MemoryLru.Key} {new : Record} {reply : StoreItemType} {cas : UInt64} {m' : RecordMap}
      (h : Stores cfg m comm key new reply cas m') : Does cfg m (.store comm key new reply cas) m'

/-- A step of the map: entries may be lost before it, and after it unless a value was stored. -/
def Step (cfg : Settings) (m : RecordMap) (o : Seen) (m' : RecordMap) : Prop :=
  ∃ m₁ m₂, Loses m.entries m₁ ∧ Does cfg ⟨m₁, m.cas_id⟩ o ⟨m₂, m'.cas_id⟩ ∧ Loses m₂ m'.entries ∧
    ∀ comm key new cas, o = .store comm key new .STORED cas → m₂ = m'.entries

end RecordMap

/-! ## The cache -/

namespace ChunkCache

def value (c : ChunkCache) (it : Ptr) : List UInt8 :=
  if (c.store.heap it).it_flags.chunked then content (c.chain it) else c.bytes it

def record (cfg : Settings) (c : ChunkCache) (it : Ptr) : Record where
  value := c.value it
  flags := c.flags cfg it
  exptime := (c.store.heap it).exptime
  cas := (c.store.heap it).get_cas

def entries (cfg : Settings) (c : ChunkCache) (key : MemoryLru.Key) : Option Record := (c.store.table key).map (c.record cfg)

def map (cfg : Settings) (c : ChunkCache) : RecordMap := ⟨c.entries cfg, c.store.cas_id⟩

/-- The value of an item is complete. -/
structure Filled (c : ChunkCache) (it : Ptr) : Prop where
  value : (c.value it).length = (c.store.heap it).nbytes
  packed : (c.store.heap it).it_flags.chunked → Packed (c.chain it)

end ChunkCache

/-- What a connection, or a thread behind it, does to the cache. -/
inductive Act
  /-- A function of items.c that stores nothing new. -/
  | items (e : Event)
  | get (key : MemoryLru.Key) (do_update room : Bool)
  | touch (key : MemoryLru.Key) (exptime : UInt32) (room : Bool)
  | alloc (a : NewItem) (rounds : List Round)
  /-- A new item gets the CAS that the client gave, and the value is read into it. -/
  | upload (n : Nat) (cas : UInt64) (data : Nat → UInt8) (chain : List ItemChunk)
  | store (n : Nat) (comm : Comm) (cas : UInt64) (r : StoreRounds)

namespace ChunkCache

def upload (c : ChunkCache) (n : Nat) (cas : UInt64) (data : Nat → UInt8) (chain : List ItemChunk) : ChunkCache :=
  { c with
    store := c.store.modify (.item n) fun i => i.set_cas cas
    data := Function.update c.data (.item n) data
    chain := Function.update c.chain (.item n) chain }

def step (cfg : Settings) (c : ChunkCache) : Act → Option (ChunkCache × Seen)
  | .items e => do
      let s ← c.store.step cfg e
      some ({ c with store := s }, .nothing)
  | .get key do_update room => do
      let (s, it) ← c.store.do_item_get cfg key do_update room
      let c := { c with store := s }
      some (c, .get key (it.map (c.record cfg)))
  | .touch key exptime room => do
      let (s, it) ← c.store.do_item_touch cfg key exptime room
      let c := { c with store := s }
      some (c, .touch key exptime (it.map (c.record cfg)))
  | .alloc a rounds => do
      let (c, _) ← c.do_item_alloc cfg a rounds
      some (c, .nothing)
  | .upload n cas data chain => some (c.upload n cas data chain, .nothing)
  | .store n comm cas r => do
      let key := (c.store.heap (.item n)).key
      let new := c.record cfg (.item n)
      let reply ← do_store_item cfg c (.item n) comm cas r
      some (reply.cache, .store comm key new reply.stored reply.cas)

/-- `do_store_item` copies the header of a chunked item where the item for both values is not chunked. That may be where the
flags of the client take more room in `it` than those of the old item do. -/
def Joinable (cfg : Settings) (c : ChunkCache) (it old_it : Ptr) : Prop :=
  let i := c.store.heap it
  let old := c.store.heap old_it
  i.it_flags.chunked →
    cfg.slab_chunk_size_max < NewItem.ntotal cfg ⟨i.key, c.flags cfg old_it, old.exptime, i.nbytes + old.nbytes - 2⟩

/-- What the callers see to, and that no count of references wraps. -/
def Allowed (c : ChunkCache) : Act → Prop
  | .items e => e.quiet ∧ (∀ n, c.store.refs n + e.takes < 2 ^ 16) ∧
      ∀ a locks, e = .pull a locks → a.flags.return_item = true → a.cur_lru = .COLD_LRU ∧ a.flags.evict = false
  | .get _ _ _ | .touch _ _ _ | .alloc _ _ => ∀ n, c.store.refs n + 2 < 2 ^ 16
  | .upload n _ _ _ => ¬ (c.store.heap (.item n)).it_flags.linked
  | .store n _ _ _ => ¬ (c.store.heap (.item n)).it_flags.linked ∧ 0 < c.store.held (.item n) ∧ c.Filled (.item n) ∧
      ∀ m, c.store.refs m + 2 < 2 ^ 16

/-- Values that are joined are joinable. No caller sees to that. -/
def JoinsWell (cfg : Settings) (c : ChunkCache) : Act → Prop
  | .store n comm _ _ => comm = .NREAD_APPEND ∨ comm = .NREAD_PREPEND →
      ∀ old_it, c.store.table (c.store.heap (.item n)).key = some old_it → c.Joinable cfg (.item n) old_it
  | _ => True

def Step (cfg : Settings) (c : ChunkCache) (o : Seen) (c' : ChunkCache) : Prop :=
  ∃ e, (c.Allowed e ∧ c.JoinsWell cfg e) ∧ c.step cfg e = some (c', o)

end ChunkCache

end Memcached.SlabsCurd

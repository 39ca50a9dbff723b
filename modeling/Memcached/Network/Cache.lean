import Memcached.Lib.Lifecycle
import Memcached.Lib.Memory
import Memcached.Lib.Run
import Memcached.Thread.Conn

/-!
# The object cache of network/cache.c

Caches in one process, told apart by a handle. `malloc` and `realloc` answer in the event, and so does the constructor. What
is called, and what clients are given and give back, is noted in order. In a debug build (`NDEBUG` is not defined) an object
lies behind one redzone and before another.
-/

namespace Memcached.Network

open Function (update)
open Thread (c_int)

def redzone_pattern : List UInt8 := Memory.le 8 0xdeadbeefcafebabe
def initial_pool_size : Nat := 64
def PTRDIFF_MAX : Nat := 2 ^ 63 - 1

/-- `cache_t` -/
structure Cache where
  ptr : Nat → Nat
  bufsize : Nat
  freetotal : Int
  freecurr : Nat
  /-- The pointer is not null. -/
  constructor : Bool
  destructor : Bool

inductive CacheCall
  /-- A buffer, for a cache with a constructor or without. -/
  | malloc (ptr : Nat) (constructor : Bool)
  | constructor (object : Nat) (ok : Bool)
  /-- The client is given an object, and gives it back. -/
  | cache_alloc (object : Nat)
  | cache_free (object : Nat)
  | destructor (object : Nat)
  /-- A buffer, of a cache with a destructor or without. -/
  | free (ptr : Nat) (destructor : Bool)
  deriving DecidableEq

structure Caches where
  caches : Nat → Option Cache
  mem : Nat → UInt8
  cache_error : Int
  /-- The buffers that are not freed. -/
  allocated : List Nat
  /-- The objects clients have, each with the handle of its cache. -/
  live : List (Nat × Nat)
  calls : List CacheCall

inductive CacheEvent
  /-- `ok`: everything it needs is allocated. -/
  | cache_create (h bufsize : Nat) (constructor destructor : Bool) (ok : Bool)
  /-- `malloc` and the constructor are asked if the pool is empty. -/
  | cache_alloc (h : Nat) (malloc : Option Nat) (constructor : Bool)
  | cache_free (h object : Nat) (realloc : Bool)
  /-- A client writes a byte, wherever it likes. -/
  | write (a : Nat) (b : UInt8)
  | cache_destroy (h : Nat)

namespace Cache

variable (debug : Bool) (c : Cache)

def get_object (ptr : Nat) : Nat := if debug then ptr + 8 else ptr

/-- `cache_create` -/
def create (bufsize : Nat) (constructor destructor : Bool) : Cache where
  ptr := fun _ => 0
  bufsize := if debug then (bufsize + 16) % 2 ^ 64 else bufsize
  freetotal := initial_pool_size
  freecurr := 0
  constructor := constructor
  destructor := destructor

/-- The second redzone of an object. -/
def post (object : Nat) : Nat := object + c.bufsize - 16

/-- `do_cache_alloc`, up to the redzones: the buffer, if there is an object. -/
def take (malloc : Option Nat) (constructor : Bool) : Option Nat × Cache × List CacheCall :=
  if c.freecurr > 0 then (some (c.ptr (c.freecurr - 1)), { c with freecurr := c.freecurr - 1 }, [])
  else match malloc with
    | none => (none, c, [])
    | some ret =>
        if c.constructor then
          if constructor then (some ret, c, [.malloc ret true, .constructor (get_object debug ret) true])
          else (none, c, [.malloc ret true, .constructor (get_object debug ret) false, .free ret c.destructor])
        else (some ret, c, [.malloc ret false])

/-- The redzones of an object. -/
def redzones (mem : Nat → UInt8) (ret : Nat) : Nat → UInt8 :=
  if debug then Memory.write (Memory.write mem ret redzone_pattern) (c.post (ret + 8)) redzone_pattern else mem

/-- What `do_cache_free` finds wrong with the redzones, as `cache_error`. -/
def validate (mem : Nat → UInt8) (object : Nat) : Option Int :=
  if debug then
    if Memory.read mem (c.post object) 8 ≠ redzone_pattern then some 1
    else if Memory.read mem (object - 8) 8 ≠ redzone_pattern then some (-1)
    else none
  else none

/-- `size_t newtotal` -/
def newtotal : Nat := (c_int (c.freetotal * 2) % 2 ^ 64).toNat

/-- The size `realloc` is asked for. -/
def new_size : Nat := 8 * c.newtotal % 2 ^ 64

/-- `do_cache_free`, past the redzones. -/
def give (ptr : Nat) (realloc : Bool) : Cache × List CacheCall :=
  if c.freecurr < c.freetotal then ({ c with ptr := update c.ptr c.freecurr ptr, freecurr := c.freecurr + 1 }, [])
  else if realloc then
    ({ c with
      freetotal := c_int c.newtotal
      ptr := update c.ptr c.freecurr ptr
      freecurr := c.freecurr + 1 }, [])
  else (c, (if c.destructor then [.destructor ptr] else []) ++ [.free ptr c.destructor])

/-- The loop of `cache_destory`, with `n` objects in the pool. -/
def destroy : Nat → List CacheCall
  | 0 => []
  | n + 1 => (if c.destructor then [.destructor (get_object debug (c.ptr n))] else []) ++ .free (c.ptr n) c.destructor :: destroy n

end Cache

namespace Caches

variable (debug : Bool) (s : Caches)

/-- The buffers after a call. -/
def track (allocated : List Nat) : CacheCall → List Nat
  | .malloc ptr _ => ptr :: allocated
  | .free ptr _ => allocated.erase ptr
  | _ => allocated

def call (calls : List CacheCall) : Caches :=
  { s with calls := s.calls ++ calls, allocated := calls.foldl track s.allocated }

def do_cache_alloc (h : Nat) (c : Cache) (malloc : Option Nat) (constructor : Bool) : Caches :=
  let (ret, c, calls) := c.take debug malloc constructor
  let s := { s with caches := update s.caches h (some c) }.call calls
  match ret with
  | none => s
  | some ret =>
      let object := Cache.get_object debug ret
      { s with mem := c.redzones debug s.mem ret, live := (h, object) :: s.live }.call [.cache_alloc object]

def do_cache_free (h : Nat) (c : Cache) (object : Nat) (realloc : Bool) : Caches :=
  let s := { s with live := s.live.erase (h, object) }.call [.cache_free object]
  match c.validate debug s.mem object with
  | some error => { s with cache_error := error }
  | none =>
      let ptr := if debug then object - 8 else object
      let (c, calls) := c.give ptr realloc
      { s with caches := update s.caches h (some c) }.call calls

/-- One step: `none` if `e` cannot happen. A buffer is new, and an array is never larger than `PTRDIFF_MAX`; clients use
caches that exist, and free what they have. -/
def step : CacheEvent → Option Caches
  | .cache_create h bufsize constructor destructor ok =>
      if s.caches h = none then
        some (if ok then { s with caches := update s.caches h (some (.create debug bufsize constructor destructor)) } else s)
      else none
  | .cache_alloc h malloc constructor =>
      (s.caches h).bind fun c =>
        if ∀ ret ∈ malloc, 0 < ret ∧ ret ∉ s.allocated then some (s.do_cache_alloc debug h c malloc constructor) else none
  | .cache_free h object realloc =>
      (s.caches h).bind fun c =>
        if (h, object) ∈ s.live ∧ (realloc → c.new_size ≤ PTRDIFF_MAX) then some (s.do_cache_free debug h c object realloc)
        else none
  | .write a b => some { s with mem := update s.mem a b }
  | .cache_destroy h =>
      (s.caches h).map fun c => { s with caches := update s.caches h none }.call (c.destroy debug c.freecurr)

def init (mem : Nat → UInt8) : Caches := ⟨fun _ => none, mem, 0, [], [], []⟩

def Step (s : Caches) (e : CacheEvent) (s' : Caches) : Prop := s.step debug e = some s'

end Caches

end Memcached.Network

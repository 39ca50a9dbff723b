import Memcached.Lib.Buckets
import Memcached.Thread.Conn

/-!
# Prefix statistics of thread/stats.c

The chains are lists, and an entry is found by its chain and its place there. A key is its `nkey` bytes.
-/

namespace Memcached.Thread

def PREFIX_HASH_SIZE : Nat := 256

structure PrefixStats where
  /-- `prefix`, without its NUL. -/
  prefix_str : List UInt8
  num_gets : UInt64
  num_sets : UInt64
  num_deletes : UInt64
  num_hits : UInt64
  deriving DecidableEq

structure PrefixTable where
  prefix_stats : Nat → List PrefixStats
  num_prefixes : Int
  total_prefix_size : Int

/-- What the table is built with: `hash`, and `settings.prefix_delimiter`. -/
structure PrefixSettings where
  hash : List UInt8 → UInt32
  prefix_delimiter : UInt8

/-- `strncmp(s1, s2, n) == 0`, of two texts without their NULs. -/
def strncmp_eq : List UInt8 → List UInt8 → Nat → Bool
  | _, _, 0 => true
  | [], [], _ + 1 => true
  | b₁ :: s₁, b₂ :: s₂, n + 1 => b₁ = b₂ ∧ strncmp_eq s₁ s₂ n
  | _, _, _ + 1 => false

namespace PrefixTable

/-- `stats_prefix_clear`, and the state at the start. -/
def clear : PrefixTable where
  prefix_stats := fun _ => []
  num_prefixes := 0
  total_prefix_size := 0

/-- The loop that looks for the delimiter: `none` to bail out. -/
def prefix_length (cfg : PrefixSettings) : List UInt8 → Option Nat
  | [] => none
  | b :: key =>
      if b = 0 then none
      else if b = cfg.prefix_delimiter then some 0
      else (prefix_length cfg key).map (· + 1)

/-- A new entry in front of its chain. -/
def insert (t : PrefixTable) (hashval : Nat) (pre : List UInt8) : PrefixTable where
  prefix_stats := Function.update t.prefix_stats hashval (⟨pre, 0, 0, 0, 0⟩ :: t.prefix_stats hashval)
  num_prefixes := c_int (t.num_prefixes + 1)
  total_prefix_size := c_int (t.total_prefix_size + pre.length)

/-- `allocated`: there is memory for a new entry. The entry that is returned is given by its chain and its place. -/
def stats_prefix_find (cfg : PrefixSettings) (t : PrefixTable) (key : List UInt8) (allocated : Bool) :
    PrefixTable × Option (Nat × Nat) :=
  match prefix_length cfg key with
  | none => (t, none)
  | some length =>
      let hashval := (cfg.hash (key.take length)).toNat % PREFIX_HASH_SIZE
      match (t.prefix_stats hashval).findIdx? fun pfs => strncmp_eq pfs.prefix_str key length with
      | some i => (t, some (hashval, i))
      | none => if allocated then (t.insert hashval (key.take length), some (hashval, 0)) else (t, none)

/-- The entry of the key is changed, if there is one. -/
def stats_prefix_record (cfg : PrefixSettings) (t : PrefixTable) (key : List UInt8) (allocated : Bool)
    (f : PrefixStats → PrefixStats) : PrefixTable :=
  match t.stats_prefix_find cfg key allocated with
  | (t, none) => t
  | (t, some (hashval, i)) =>
      { t with prefix_stats := Function.update t.prefix_stats hashval ((t.prefix_stats hashval).modify i f) }

def stats_prefix_record_get (cfg : PrefixSettings) (t : PrefixTable) (key : List UInt8) (is_hit allocated : Bool) :
    PrefixTable :=
  t.stats_prefix_record cfg key allocated fun pfs =>
    { pfs with num_gets := pfs.num_gets + 1, num_hits := if is_hit then pfs.num_hits + 1 else pfs.num_hits }

def stats_prefix_record_delete (cfg : PrefixSettings) (t : PrefixTable) (key : List UInt8) (allocated : Bool) :
    PrefixTable :=
  t.stats_prefix_record cfg key allocated fun pfs => { pfs with num_deletes := pfs.num_deletes + 1 }

def stats_prefix_record_set (cfg : PrefixSettings) (t : PrefixTable) (key : List UInt8) (allocated : Bool) :
    PrefixTable :=
  t.stats_prefix_record cfg key allocated fun pfs => { pfs with num_sets := pfs.num_sets + 1 }

end PrefixTable

/-- The three kinds of accesses that are recorded. -/
inductive PrefixAccess
  | get (is_hit : Bool)
  | set
  | delete
  deriving DecidableEq

inductive PrefixEvent
  | record (access : PrefixAccess) (key : List UInt8) (allocated : Bool)
  | stats_prefix_clear

def PrefixTable.step (cfg : PrefixSettings) (t : PrefixTable) : PrefixEvent → PrefixTable
  | .record (.get is_hit) key allocated => t.stats_prefix_record_get cfg key is_hit allocated
  | .record .set key allocated => t.stats_prefix_record_set cfg key allocated
  | .record .delete key allocated => t.stats_prefix_record_delete cfg key allocated
  | .stats_prefix_clear => clear

end Memcached.Thread

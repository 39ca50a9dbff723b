import Mathlib.Algebra.Order.Ring.Int
import Mathlib.Data.List.Basic

/-!
# `storage_compact_check` of exstore/storage.c

The page the compactor is to reclaim. The fragmentation limit is computed in floating point from the statistics and
`ext_max_frag`, and is an argument here. Pages are named by their place in the table.
-/

namespace Memcached.Exstore

def ULLONG_MAX : Nat := 2 ^ 64 - 1

def PAGE_BUCKET_LOWTTL : Nat := 3

/-- `struct extstore_page_data`; `version` is 0 for a page not in use. -/
structure PageData where
  version : Nat
  bytes_used : Nat
  bucket : Nat
  deriving DecidableEq

/-- What `extstore_get_stats` and `extstore_get_page_data` copy out. -/
structure ExtstoreStats where
  pages_used : Nat
  pages_free : Nat
  page_size : Nat
  page_data : List PageData

structure CompactSettings where
  ext_compact_under : Nat
  ext_drop_under : Nat
  ext_drop_unread : Bool

/-- What the arguments of `storage_compact_check` point to. -/
structure Compact where
  page_id : Nat
  page_version : Nat
  page_size : Nat
  drop_unread : Bool
  deriving DecidableEq

/-- The lowest versions that the loop has seen, and their pages. -/
structure Lowest where
  low_page : Nat
  low_version : Nat
  lowest_page : Nat
  lowest_version : Nat

namespace PageData

def in_use (d : PageData) : Prop := ¬(d.version = 0 ∨ d.bucket = PAGE_BUCKET_LOWTTL)

/-- In use, and with fewer bytes than the limit. -/
def violates (frag_limit : Nat) (d : PageData) : Prop := d.in_use ∧ d.bytes_used < frag_limit

instance (d : PageData) : Decidable d.in_use := inferInstanceAs (Decidable (¬_))

instance (frag_limit : Nat) (d : PageData) : Decidable (d.violates frag_limit) := inferInstanceAs (Decidable (_ ∧ _))

end PageData

def Lowest.start : Lowest := { low_page := 0, low_version := ULLONG_MAX, lowest_page := 0, lowest_version := ULLONG_MAX }

/-- The body of the loop, for page `x`. -/
def Lowest.visit (frag_limit x : Nat) (d : PageData) (l : Lowest) : Lowest :=
  if d.version = 0 ∨ d.bucket = PAGE_BUCKET_LOWTTL then l
  else
    let l := if d.version < l.lowest_version then { l with lowest_page := x, lowest_version := d.version } else l
    if d.bytes_used < frag_limit ∧ d.version < l.low_version then { l with low_page := x, low_version := d.version }
    else l

/-- The loop, from page `x` on. -/
def Lowest.scan (frag_limit : Nat) : List PageData → Nat → Lowest → Lowest
  | [], _, l => l
  | d :: ds, x, l => Lowest.scan frag_limit ds (x + 1) (l.visit frag_limit x d)

variable (frag_limit : ExtstoreStats → Nat) (settings : CompactSettings) (st : ExtstoreStats)

/-- `storage_compact_check`: its result, and what its arguments point to. -/
def storage_compact_check (c : Compact) : Bool × Compact :=
  if st.pages_used = 0 then (false, c)
  else if st.pages_free > settings.ext_compact_under then (false, c)
  else
    let c := { c with drop_unread := false }
    let l := Lowest.scan (frag_limit st) st.page_data 0 Lowest.start
    let c := { c with page_size := st.page_size }
    if l.low_version ≠ ULLONG_MAX then
      (true, { c with page_id := l.low_page, page_version := l.low_version })
    else if l.lowest_version ≠ ULLONG_MAX ∧ settings.ext_drop_unread ∧
        st.pages_free ≤ settings.ext_drop_unread.toNat then
      (true, { c with page_id := l.lowest_page, page_version := l.lowest_version, drop_unread := true })
    else (false, c)

end Memcached.Exstore

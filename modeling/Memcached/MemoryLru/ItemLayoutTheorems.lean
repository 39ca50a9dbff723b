import Memcached.MemoryLru.ItemLayout
import Memcached.MemoryLru.ItemTheorems
import Memcached.MemoryLru.SlabClassTheorems

/-!
# Items fit their chunks

The class that an item, the header of a large item, or a chunk is allocated from has chunks large enough for what is asked
for, and everything that is written lies in what is asked for.
-/

namespace Memcached.MemoryLru

/-- No assertion fails, and what is written to a chunk, or belongs there, lies in it. -/
inductive Allocated.Fits : Allocated → Prop
  | null : Fits .null
  | chunk {size : Nat} {writes : List Write} {parts : List Part} (hwrites : ∀ w ∈ writes, w.offset + w.bytes.length ≤ size)
      (hparts : ∀ p ∈ parts, p.offset + p.length ≤ size) : Fits (.chunk size writes parts)

/-- The most that the header of a large item takes. -/
def largest_header : Nat := sizeof_item + 8 + 251 + 24 + sizeof_item_chunk

theorem SlabClasses.pull_cases (t : SlabClasses) {size id : Nat} (rounds : List Bool)
    (hsize : POWER_SMALLEST ≤ id → id ≤ t.power_largest → size ≤ t.size id) :
    t.do_item_alloc_pull size id rounds = .null ∨
    POWER_SMALLEST ≤ id ∧ id ≤ t.power_largest ∧ t.do_item_alloc_pull size id rounds = .chunk (t.size id) [] [] := by
  induction rounds with
  | nil => exact .inl rfl
  | cons free rounds ih =>
      rw [do_item_alloc_pull, do_slabs_alloc]
      split_ifs with hid hle hfree
      · exact ih
      · exact .inr ⟨by omega, by omega, rfl⟩
      · exact ih
      · exact absurd (hsize (by omega) (by omega)) hle

/-- Everything lies in the `u` bytes that are asked for. -/
theorem SlabClasses.pull_fits {t : SlabClasses} {size u id : Nat} {rounds : List Bool} {writes : List Write} {parts : List Part}
    (hsize : POWER_SMALLEST ≤ id → id ≤ t.power_largest → size ≤ t.size id ∧ u ≤ t.size id)
    (hwrites : ∀ w ∈ writes, w.offset + w.bytes.length ≤ u) (hparts : ∀ p ∈ parts, p.offset + p.length ≤ u) :
    ((t.do_item_alloc_pull size id rounds).use writes parts).Fits := by
  rcases t.pull_cases rounds (fun h h' => (hsize h h').1) with hnull | ⟨hid, hid', hchunk⟩
  · rw [hnull]
    exact .null
  · rw [hchunk]
    have hu := (hsize hid hid').2
    exact .chunk (fun w hw => (hwrites w hw).trans hu) fun p hp => (hparts p hp).trans hu

namespace Allocator

variable {m : Allocator} {size : Nat}

/-- The class for a size that a chunk can have. -/
theorem clsid_fits (hpos : 0 < m.table.power_largest) (hlast : m.table.size m.table.power_largest = m.classes.slab_chunk_size_max)
    (hsize : size ≤ m.classes.slab_chunk_size_max) (hid : POWER_SMALLEST ≤ m.slabs_clsid size) :
    size ≤ m.table.size (m.slabs_clsid size) := by
  have hlookup : m.table.Lookup m.classes := ClassSettings.slabs_clsid_lookup hpos
  obtain ⟨-, hfits, -⟩ := (hlookup size).2 (Nat.ne_of_gt hid)
  rcases hfits with hfits | hlargest
  · exact hfits
  · rw [slabs_clsid, hlargest, hlast]
    exact hsize

/-! ## Items -/

theorem length_suffix {flags : UInt32} {nbytes : Nat} (hn : nbytes < 2 ^ 31) : (m.suffix flags nbytes).length ≤ 24 := by
  have hflags : (Decimal.digits flags.toNat).length ≤ 10 := Decimal.length_digits_le (by omega) (by have := flags.toNat_lt; omega)
  have hbytes : (Decimal.digits (nbytes - 2)).length ≤ 10 := Decimal.length_digits_le (by omega) (by omega)
  rw [suffix]
  split_ifs
  · simp only [List.length_append, List.length_cons, List.length_nil]
    omega
  · simp
  · simp

theorem nsuffix_toNat {flags : UInt32} {nbytes : Nat} (hn : nbytes < 2 ^ 31) :
    (m.nsuffix flags nbytes).toNat = (m.suffix flags nbytes).length := by
  have hlen : (m.suffix flags nbytes).length ≤ 24 := length_suffix hn
  rw [nsuffix, UInt8.toNat_ofNat', Nat.mod_eq_of_lt (by omega)]

theorem cas_size_le : m.cas_size ≤ 8 := by
  rw [cas_size]
  split <;> omega

/-- What is written to every item lies before its data. -/
theorem header_writes_fit {a : NewItem} {clsid : UInt8} {chunked : Bool} (hkey : a.key.length ≤ 250) (hn : a.nbytes < 2 ^ 31) :
    ∀ w ∈ m.header_writes a clsid chunked,
      w.offset + w.bytes.length ≤ m.ITEM_data (.ofNat a.key.length) (m.nsuffix a.flags a.nbytes) := by
  have hnkey : (UInt8.ofNat a.key.length).toNat = a.key.length := by rw [UInt8.toNat_ofNat', Nat.mod_eq_of_lt (by omega)]
  simp only [header_writes, List.forall_mem_cons, ITEM_data, ITEM_suffix, ITEM_key, hnkey, nsuffix_toNat hn, Memory.length_le,
    List.length_singleton, sizeof_item]
  refine ⟨by omega, by omega, by omega, by omega, by omega, by omega, by omega, by omega, by omega, by omega, by omega, nofun⟩

theorem item_parts_fit (nkey nsuffix : UInt8) (data : Nat) :
    ∀ p ∈ m.item_parts nkey nsuffix data, p.offset + p.length ≤ m.ITEM_data nkey nsuffix + data := by
  simp only [item_parts, List.forall_mem_cons, ITEM_data, ITEM_suffix, ITEM_key]
  exact ⟨by omega, by omega, by omega, by omega, by omega, nofun⟩

theorem internal_writes_fit (chunk it hdr_id : Nat) :
    ∀ w ∈ internal_writes chunk it hdr_id, w.offset + w.bytes.length ≤ chunk + sizeof_item_chunk := by
  simp only [internal_writes, List.forall_mem_cons, Memory.length_le, List.length_singleton, sizeof_item_chunk]
  exact ⟨by omega, by omega, by omega, by omega, by omega, by omega, nofun⟩

/-- The data is the last part of what is asked for. -/
theorem item_make_header_eq {a : NewItem} (hkey : a.key.length ≤ 250) :
    m.item_make_header (.ofNat (a.key.length + 1)) a.flags a.nbytes + m.cas_size =
      m.ITEM_data (.ofNat a.key.length) (m.nsuffix a.flags a.nbytes) + a.nbytes := by
  simp only [item_make_header, ITEM_data, ITEM_suffix, ITEM_key, UInt8.toNat_ofNat']
  rw [Nat.mod_eq_of_lt (by omega), Nat.mod_eq_of_lt (by omega)]
  omega

/-- The header of a large item, with its chunk. -/
theorem htotal_eq {a : NewItem} (hkey : a.key.length ≤ 250) :
    a.key.length + 1 + (m.nsuffix a.flags a.nbytes).toNat + sizeof_item + sizeof_item_chunk + m.cas_size =
      m.ITEM_data (.ofNat a.key.length) (m.nsuffix a.flags a.nbytes) + sizeof_item_chunk := by
  simp only [ITEM_data, ITEM_suffix, ITEM_key, UInt8.toNat_ofNat']
  rw [Nat.mod_eq_of_lt (by omega)]
  omega

theorem htotal_le {a : NewItem} (hkey : a.key.length ≤ 250) (hn : a.nbytes < 2 ^ 31) :
    a.key.length + 1 + (m.nsuffix a.flags a.nbytes).toNat + sizeof_item + sizeof_item_chunk + m.cas_size ≤ largest_header := by
  have hsuffix : (m.suffix a.flags a.nbytes).length ≤ 24 := length_suffix hn
  have hcas := m.cas_size_le
  rw [nsuffix_toNat hn]
  calc
    _ ≤ 250 + 1 + 24 + sizeof_item + sizeof_item_chunk + 8 := by gcongr
    _ = largest_header := rfl

theorem do_item_alloc_fits {a : NewItem} {lru : Lru} {it : Nat} {rounds : List Bool} (hpos : 0 < m.table.power_largest)
    (hlast : m.table.size m.table.power_largest = m.classes.slab_chunk_size_max)
    (hmax : largest_header ≤ m.classes.slab_chunk_size_max) (hkey : a.key.length ≤ 250) (hn : a.nbytes < 2 ^ 31) :
    (m.do_item_alloc a lru it rounds).Fits := by
  have htotal := m.item_make_header_eq (a := a) hkey
  have hheader := m.htotal_eq (a := a) hkey
  have hle := m.htotal_le hkey hn
  simp only [do_item_alloc]
  split_ifs with hshort hzero hlarge
  · exact .null
  · exact .null
  · rw [hheader] at hle ⊢
    refine SlabClasses.pull_fits (fun hid _ => ?_) (fun w hw => ?_) (item_parts_fit _ _ _)
    · have hfits := clsid_fits hpos hlast (hle.trans hmax) hid
      exact ⟨hfits, hfits⟩
    · rcases List.mem_append.mp hw with hw | hw
      · exact (header_writes_fit hkey hn w hw).trans (Nat.le_add_right ..)
      · exact internal_writes_fit _ _ _ w hw
  · rw [htotal] at hlarge ⊢
    refine SlabClasses.pull_fits (fun hid _ => ?_) (fun w hw => ?_) (item_parts_fit _ _ _)
    · have hfits := clsid_fits hpos hlast (Nat.le_of_not_lt hlarge) hid
      exact ⟨hfits, hfits⟩
    · exact (header_writes_fit hkey hn w hw).trans (Nat.le_add_right ..)

/-! ## Chunks -/

/-- A chunk is asked for that has at least its header, or the sum has wrapped and the header is all that is used. -/
theorem do_item_alloc_chunk_fits {ch head : Nat} {bytes_remain : UInt64} {rounds : List Bool} (hpos : 0 < m.table.power_largest)
    (hlast : m.table.size m.table.power_largest = m.classes.slab_chunk_size_max)
    (hleast : ∀ i, POWER_SMALLEST ≤ i → i ≤ m.table.power_largest → sizeof_item_chunk ≤ m.table.size i) :
    (m.do_item_alloc_chunk ch head bytes_remain rounds).Fits := by
  have hle : m.chunk_size bytes_remain ≤ m.classes.slab_chunk_size_max := Nat.min_le_right ..
  refine SlabClasses.pull_fits (u := max sizeof_item_chunk (m.chunk_size bytes_remain)) (fun hid hid' => ?_) ?_ ?_
  · have hfits := clsid_fits hpos hlast hle hid
    exact ⟨hfits, Nat.max_le.mpr ⟨hleast _ hid hid', hfits⟩⟩
  · simp only [List.forall_mem_cons, Memory.length_le, List.length_singleton, sizeof_item_chunk]
    exact ⟨by omega, by omega, by omega, by omega, by omega, by omega, by omega, nofun⟩
  · simp only [List.forall_mem_cons]
    exact ⟨by omega, nofun⟩

/-! ## The table -/

/-- The classes that `slabs_init` makes begin at `sizeof(item) + settings.chunk_size` and end at the largest size. -/
theorem slabs_init_ge (hinit : m.classes.slabs_init = some m.table) (hf : 1 < m.classes.factor) {least : Nat}
    (hfirst : least ≤ m.classes.first_size) (hmax : least ≤ m.classes.slab_chunk_size_max) :
    ∀ i, POWER_SMALLEST ≤ i → i ≤ m.table.power_largest → least ≤ m.table.size i := by
  obtain ⟨-, sizes, hsizes, hlen, hlast, hclass, -⟩ := ClassSettings.slabs_init_sizes hinit
  intro i hi hi'
  rcases hi'.eq_or_lt with rfl | hlt
  · rw [hlast]
    exact hmax
  · obtain ⟨k, rfl⟩ := Nat.exists_eq_add_of_le' hi
    have hk : k < sizes.length := by
      rw [POWER_SMALLEST] at hlt
      omega
    rw [POWER_SMALLEST, hclass k hk]
    exact hfirst.trans (ClassSettings.classes_ge hf hsizes _ (List.getElem_mem hk))

/-- Items and chunks fit, whatever is evicted for them. -/
theorem items_fit (hinit : m.classes.slabs_init = some m.table) (hf : 1 < m.classes.factor)
    (hfirst : sizeof_item ≤ m.classes.first_size) (hmax : largest_header ≤ m.classes.slab_chunk_size_max) :
    (∀ (a : NewItem) (lru : Lru) (it : Nat) (rounds : List Bool), a.key.length ≤ 250 → 2 ≤ a.nbytes → a.nbytes < 2 ^ 31 →
      (m.do_item_alloc a lru it rounds).Fits) ∧
    ∀ (ch head : Nat) (bytes_remain : UInt64) (rounds : List Bool), (m.do_item_alloc_chunk ch head bytes_remain rounds).Fits := by
  obtain ⟨-, sizes, -, hlen, hlast, -⟩ := ClassSettings.slabs_init_sizes hinit
  have hpos : 0 < m.table.power_largest := hlen ▸ Nat.succ_pos _
  have hchunk : sizeof_item_chunk ≤ sizeof_item := by decide
  have hheader : sizeof_item ≤ largest_header := by decide
  have hleast := slabs_init_ge hinit hf (hchunk.trans hfirst) (hchunk.trans (hheader.trans hmax))
  exact ⟨fun a lru it rounds hkey _ hn => do_item_alloc_fits hpos hlast hmax hkey hn,
    fun ch head bytes_remain rounds => do_item_alloc_chunk_fits hpos hlast hleast⟩

/-- A large item. -/
def large : NewItem := ⟨[97], 0, 0, 600002⟩

/-- A large item and its first chunk, with the settings memcached begins with. -/
theorem items_fit_witness : ∃ t, ClassSettings.default_classes.slabs_init = some t ∧
    ((⟨Store.settings, ClassSettings.default_classes, t⟩ : Allocator).do_item_alloc large .HOT_LRU 64 [true]).Fits ∧
    ((⟨Store.settings, ClassSettings.default_classes, t⟩ : Allocator).do_item_alloc_chunk 112 64 600002 [false, true]).Fits := by
  have hinit : ClassSettings.default_classes.slabs_init.isSome := by decide +kernel
  obtain ⟨t, ht⟩ := Option.isSome_iff_exists.mp hinit
  have hf : 1 < ClassSettings.default_classes.factor := by decide +kernel
  have hfirst : sizeof_item ≤ ClassSettings.default_classes.first_size := by decide +kernel
  have hmax : largest_header ≤ ClassSettings.default_classes.slab_chunk_size_max := by decide +kernel
  have hfit := items_fit (m := ⟨Store.settings, ClassSettings.default_classes, t⟩) ht hf hfirst hmax
  have hlarge : 2 ≤ large.nbytes ∧ large.nbytes < 2 ^ 31 := by norm_num [large]
  exact ⟨t, ht, hfit.1 large .HOT_LRU 64 [true] (by decide) hlarge.1 hlarge.2, hfit.2 112 64 600002 [false, true]⟩

end Allocator
end Memcached.MemoryLru

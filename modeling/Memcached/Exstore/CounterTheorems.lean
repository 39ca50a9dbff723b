import Mathlib.Algebra.Order.BigOperators.Group.Finset
import Memcached.Exstore.PageTheorems

/-!
# The counters of the engine are the sums over its pages

Writes, frees and evictions keep `objects_used` and `bytes_used` equal to the sums. A delete clamps the counters of its
page at zero but not those of the engine, so it keeps the sums only if the page still accounts for what is deleted.
-/

namespace Memcached.Exstore

open Function (update update_self update_of_ne)
open Transition (Run)

variable {fh : List ConfFile} {cf : Conf} {s e e' : Engine} {ev : Event} {es : List Event} {L : Place → List Nat}
  {S p n : Nat} {count : Page → Nat}

/-- The sum of a counter over the first `n` pages. -/
def total (count : Page → Nat) (pages : Nat → Page) (n : Nat) : Nat := ∑ p ∈ Finset.range n, count (pages p)

/-- The counters agree with the pages. -/
structure Tallied (e : Engine) : Prop where
  objects : e.stats.objects_used = total Page.obj_count e.pages e.page_count
  bytes : e.stats.bytes_used = total Page.bytes_used e.pages e.page_count

theorem total_update (count : Page → Nat) (pages : Nat → Page) (pg : Page) (hp : p < n) :
    total count (update pages p pg) n + count (pages p) = total count pages n + count pg := by
  have hmem := Finset.mem_range.mpr hp
  have hrest : ∀ q ∈ (Finset.range n).erase p, count (update pages p pg q) = count (pages q) := fun q hq => by
    rw [update_of_ne (Finset.ne_of_mem_erase hq)]
  simp only [total]
  rw [← Finset.add_sum_erase _ _ hmem, ← Finset.add_sum_erase _ _ hmem, Finset.sum_congr rfl hrest, update_self]
  omega

theorem le_total (count : Page → Nat) (pages : Nat → Page) (hp : p < n) : count (pages p) ≤ total count pages n :=
  Finset.single_le_sum (f := fun q => count (pages q)) (fun _ _ => Nat.zero_le _) (Finset.mem_range.mpr hp)

theorem total_congr {pages pages' : Nat → Page} (h : ∀ q, count (pages' q) = count (pages q)) :
    total count pages' n = total count pages n := Finset.sum_congr rfl fun q _ => h q

theorem sub64_eq {a b : Nat} (ha : a < 2 ^ 64) (hb : b ≤ a) : sub64 a b = a - b := by
  unfold sub64
  omega

theorem add64_eq {a b : Nat} (h : a + b < 2 ^ 64) : add64 a b = a + b := Nat.mod_eq_of_lt h

/-! ## Actions -/

theorem Tallied.frame (h : Tallied e) (hobj : ∀ p, (e'.pages p).obj_count = (e.pages p).obj_count)
    (hbytes : ∀ p, (e'.pages p).bytes_used = (e.pages p).bytes_used) (hcount : e'.page_count = e.page_count)
    (hobjects : e'.stats.objects_used = e.stats.objects_used) (hused : e'.stats.bytes_used = e.stats.bytes_used) :
    Tallied e' := by
  refine ⟨?_, ?_⟩
  · rw [hobjects, hcount, total_congr hobj]
    exact h.objects
  · rw [hused, hcount, total_congr hbytes]
    exact h.bytes

theorem Tallied.set_page (h : Tallied e) {pg : Page} (hpages : e'.pages = update e.pages p pg)
    (hpg : pg.obj_count = (e.pages p).obj_count ∧ pg.bytes_used = (e.pages p).bytes_used)
    (hcount : e'.page_count = e.page_count) (hobjects : e'.stats.objects_used = e.stats.objects_used)
    (hused : e'.stats.bytes_used = e.stats.bytes_used) : Tallied e' := by
  have hsame (q : Nat) : (e'.pages q).obj_count = (e.pages q).obj_count ∧
      (e'.pages q).bytes_used = (e.pages q).bytes_used := by
    rw [hpages]
    by_cases hq : q = p
    · subst hq
      rw [update_self]
      exact hpg
    · rw [update_of_ne hq]
      exact ⟨rfl, rfl⟩
  exact h.frame (fun q => (hsame q).1) (fun q => (hsame q).2) hcount hobjects hused

/-- What bounds the sums: sizes as the configuration has them. -/
structure Bounded (S : Nat) (e : Engine) : Prop where
  buffers : Buffers S e
  page_size : e.page_size < 2 ^ 32
  page_count : e.page_count < 2 ^ 16

theorem Bounded.bytes_le (h : Bounded S e) (p : Nat) : (e.pages p).bytes_used ≤ e.page_size := by
  have hp := h.buffers.page p
  have hbytes := hp.bytes
  have hal := hp.allocated_le
  unfold Page.filled at hbytes
  cases hw : (e.pages p).wbuf with
  | none =>
      have := hp.unbuffered hw
      rw [hw] at hbytes
      simp only [Option.elim_none] at hbytes
      omega
  | some w =>
      have hfull := (hp.buffered w hw).2.2
      have hfill := (h.buffers.wbuf w).fill
      rw [hw] at hbytes
      simp only [Option.elim_some] at hbytes
      omega

theorem Bounded.total_bytes (h : Bounded S e) : total Page.bytes_used e.pages e.page_count < 2 ^ 64 := by
  have hle : total Page.bytes_used e.pages e.page_count ≤ ∑ _p ∈ Finset.range e.page_count, e.page_size :=
    Finset.sum_le_sum fun p _ => h.bytes_le p
  rw [Finset.sum_const_nat fun _ _ => rfl, Finset.card_range] at hle
  have hsize := h.page_size
  have hcount := h.page_count
  calc total Page.bytes_used e.pages e.page_count ≤ e.page_count * e.page_size := hle
    _ ≤ 2 ^ 16 * 2 ^ 32 := Nat.mul_le_mul hcount.le hsize.le
    _ < 2 ^ 64 := by decide

theorem Tallied.write (h : Tallied e) (hb : Bounded S e) {w : Nat} {bytes : List UInt8} (hu : e.unlocked p)
    (hw : (e.pages p).wbuf = some w) (hlen : bytes.length ≤ (e.wbufs w).free)
    (hobj : e.stats.objects_used < 2 ^ 64 - 1) : Tallied (e.extstore_write p w bytes) := by
  have hactive := ((hb.buffers.page p).buffered w hw).1
  have hp := hb.buffers.range p hactive
  let pg : Page := { e.pages p with
    bytes_used := add64 (e.pages p).bytes_used bytes.length, obj_count := add64 (e.pages p).obj_count 1 }
  have hobjects : total Page.obj_count (update e.pages p pg) e.page_count =
      total Page.obj_count e.pages e.page_count + 1 := by
    have hle := le_total Page.obj_count e.pages hp
    have hpg : pg.obj_count = (e.pages p).obj_count + 1 := add64_eq (by have := h.objects; omega)
    have := total_update Page.obj_count e.pages pg hp
    omega
  -- the page after the write still fits, so nothing wraps
  have hfits : (e.pages p).bytes_used + bytes.length ≤ e.page_size := by
    have hok := hb.buffers.page p
    have hbytes := hok.bytes
    have hal := hok.allocated_le
    have hfull := (hok.buffered w hw).2.2
    have hfill := (hb.buffers.wbuf w).fill
    simp only [Page.filled, hw, Option.elim_some] at hbytes
    omega
  have hsize := hb.page_size
  have hused : total Page.bytes_used (update e.pages p pg) e.page_count =
      total Page.bytes_used e.pages e.page_count + bytes.length := by
    have hpg : pg.bytes_used = (e.pages p).bytes_used + bytes.length := add64_eq (by omega)
    have := total_update Page.bytes_used e.pages pg hp
    omega
  have hb' : Bounded S (e.extstore_write p w bytes) :=
    ⟨hb.buffers.extstore_write hu hw hlen, hb.page_size, hb.page_count⟩
  have hbound : total Page.bytes_used (update e.pages p pg) e.page_count < 2 ^ 64 := hb'.total_bytes
  refine ⟨?_, ?_⟩
  · show add64 e.stats.objects_used 1 = total Page.obj_count (update e.pages p pg) e.page_count
    rw [hobjects, ← h.objects]
    exact add64_eq (by omega)
  · show add64 e.stats.bytes_used bytes.length = total Page.bytes_used (update e.pages p pg) e.page_count
    rw [hused] at hbound ⊢
    rw [← h.bytes] at hbound ⊢
    exact add64_eq hbound

theorem stats_lt (h : Tallied e) (hb : Bounded S e) (hobj : e.stats.objects_used < 2 ^ 64) :
    e.stats.objects_used < 2 ^ 64 ∧ e.stats.bytes_used < 2 ^ 64 := by
  refine ⟨hobj, ?_⟩
  rw [h.bytes]
  exact hb.total_bytes

/-- A page gives up `count` objects and `bytes` bytes that it accounts for. -/
theorem Tallied.deduct (h : Tallied e) (hb : Bounded S e) (hobj : e.stats.objects_used < 2 ^ 64) {objects bytes : Nat}
    {pg : Page} (hp : p < e.page_count) (hpages : e'.pages = update e.pages p pg)
    (hpobj : pg.obj_count + objects = (e.pages p).obj_count) (hpbytes : pg.bytes_used + bytes = (e.pages p).bytes_used)
    (hcount : e'.page_count = e.page_count)
    (hobjects : e'.stats.objects_used = sub64 e.stats.objects_used objects)
    (hused : e'.stats.bytes_used = sub64 e.stats.bytes_used bytes) : Tallied e' := by
  obtain ⟨hlt1, hlt2⟩ := stats_lt h hb hobj
  have hle1 := le_total Page.obj_count e.pages hp
  have hle2 := le_total Page.bytes_used e.pages hp
  rw [← h.objects] at hle1
  rw [← h.bytes] at hle2
  have hsum1 := total_update Page.obj_count e.pages pg hp
  have hsum2 := total_update Page.bytes_used e.pages pg hp
  rw [← h.objects] at hsum1
  rw [← h.bytes] at hsum2
  refine ⟨?_, ?_⟩
  · rw [hobjects, hpages, hcount, sub64_eq hlt1 (by omega)]
    omega
  · rw [hused, hpages, hcount, sub64_eq hlt2 (by omega)]
    omega

theorem Tallied.free_page (h : Tallied e) (hb : Bounded S e) (hobj : e.stats.objects_used < 2 ^ 64)
    (hp : p < e.page_count) {m : Maint} : Tallied { e.free_page p with maint := m } := by
  have hf := free_page_freed (e := e) (p := p)
  have hstats : (e.free_page p).page_count = e.page_count ∧
      (e.free_page p).stats.objects_used = sub64 e.stats.objects_used (e.pages p).obj_count ∧
      (e.free_page p).stats.bytes_used = sub64 e.stats.bytes_used (e.pages p).bytes_used := by
    rw [hf.rest]
    exact ⟨rfl, rfl, rfl⟩
  -- up to the links of the pages, only page `p` changes
  let e1 : Engine := { e with
    pages := update e.pages p { e.pages p with obj_count := 0, bytes_used := 0 }
    stats := { e.stats with
      objects_used := sub64 e.stats.objects_used (e.pages p).obj_count
      bytes_used := sub64 e.stats.bytes_used (e.pages p).bytes_used } }
  have h1 : Tallied e1 := h.deduct hb hobj hp rfl (Nat.zero_add _) (Nat.zero_add _) rfl rfl rfl
  have hsame (q : Nat) : ((e.free_page p).pages q).obj_count = (e1.pages q).obj_count ∧
      ((e.free_page p).pages q).bytes_used = (e1.pages q).bytes_used := by
    by_cases hq : q = p
    · subst hq
      rw [hf.page]
      simp [e1]
    · rw [hf.other q hq]
      simp [e1, hq]
  exact h1.frame (fun q => (hsame q).1) (fun q => (hsame q).2) hstats.1 hstats.2.1 hstats.2.2

/-- A write leaves room for the object in the counter of 64 bits; a delete that hits its page deletes no more than the
page accounts for. -/
def Accounted (e : Engine) : Event → Prop
  | .write _ _ => e.stats.objects_used < 2 ^ 64 - 1
  | .delete p page_version count bytes =>
      (e.pages p).closed = false ∧ (e.pages p).version = page_version →
        count.toNat ≤ (e.pages p).obj_count ∧ bytes.toNat ≤ (e.pages p).bytes_used
  | _ => True

instance (e : Engine) (ev : Event) : Decidable (Accounted e ev) := by
  cases ev <;> unfold Accounted <;> infer_instance

/-- What every action keeps. -/
structure Counting (S : Nat) (e : Engine) : Prop where
  owned : ∃ L, Owned e L
  bounded : Bounded S e
  tallied : Tallied e
  objects_lt : e.stats.objects_used < 2 ^ 64

theorem sub64_lt (a b : Nat) : sub64 a b < 2 ^ 64 := Nat.mod_lt _ (by decide)

theorem Act.page_size (h : Act s ev e e') : e'.page_size = e.page_size := by
  rcases h.framed with hframe | ⟨_, _, _, _, _, _, ht, _, _, rfl⟩ | ⟨_, _, ht, _⟩ | ⟨p, m, _, _, _, rfl⟩ | ⟨m, _, _, rfl⟩
  · exact hframe.page_size
  · rw [take_free_rest ht]
    rfl
  · rw [take_free_rest ht]
  · show (e.free_page p).page_size = _
    rw [(free_page_freed (e := e) (p := p)).rest]
  · rfl

theorem Act.objects_lt (h : Act s ev e e') (hlt : e.stats.objects_used < 2 ^ 64) :
    e'.stats.objects_used < 2 ^ 64 := by
  cases h with
  | open_page hs hstats hb ht hfree =>
      rw [take_free_rest ht]
      exact hlt
  | lose_page ht hfree =>
      rw [take_free_rest ht]
      exact hlt
  | submit_wbuf hw hfull hx h =>
      unfold Engine.submit_wbuf at h
      split at h
      · cases h
      · obtain rfl := Option.some.inj h
        exact hlt
  | allocate_wbuf hu ha hw hsize =>
      unfold Engine.allocate_wbuf
      split
      · exact hlt
      · exact hlt
  | write hev hstats hu ha hw hfull hlen => exact Nat.mod_lt _ (by decide)
  | callback hx hat h =>
      unfold Engine.wbuf_cb at h
      dsimp only at h
      split at h
      · obtain rfl := Option.some.inj h
        exact hlt
      · cases h
  | delete hev hs hp =>
      unfold Engine.extstore_delete
      dsimp only
      split
      · exact sub64_lt ..
      · exact hlt
  | @free_page p m hm href hpage hlow =>
      show (e.free_page p).stats.objects_used < 2 ^ 64
      rw [(free_page_freed (e := e) (p := p)).rest]
      exact sub64_lt ..
  | _ => exact hlt

theorem Counting.act (h : Counting S e) (hcond : Accounted s ev) (hact : Act s ev e e') : Counting S e' := by
  obtain ⟨L, ho⟩ := h.owned
  have ht := h.tallied
  refine ⟨ho.act hact, ⟨h.bounded.buffers.act ho hact, ?_, ?_⟩, ?_, hact.objects_lt h.objects_lt⟩
  · rw [hact.page_size]
    exact h.bounded.page_size
  · rw [hact.page_count]
    exact h.bounded.page_count
  cases hact with
  | writer hk => exact ht.frame (fun _ => rfl) (fun _ => rfl) rfl rfl rfl
  | @open_page e1 free_bucket p bucket hs hstats hb htf hfree =>
      rw [take_free_rest htf]
      exact ht.set_page (p := p) rfl ⟨rfl, rfl⟩ rfl rfl rfl
  | lose_page htf hfree =>
      rw [take_free_rest htf]
      exact ht.frame (fun _ => rfl) (fun _ => rfl) rfl rfl rfl
  | submit_wbuf hw hfull hx he =>
      unfold Engine.submit_wbuf at he
      split at he
      · cases he
      · obtain rfl := Option.some.inj he
        exact ht.frame (fun _ => rfl) (fun _ => rfl) rfl rfl rfl
  | allocate_wbuf hu ha hw hsize =>
      unfold Engine.allocate_wbuf
      split
      · exact ht
      · exact ht.set_page rfl ⟨rfl, rfl⟩ rfl rfl rfl
  | write hev hstats hu ha hw hfull hlen =>
      obtain ⟨t, x, rfl⟩ := hev
      exact ht.write h.bounded hu hw hlen (hstats ▸ hcond)
  | read hx ho => exact ht.frame (fun _ => rfl) (fun _ => rfl) rfl rfl rfl
  | pull hx hbatch => exact ht.frame (fun _ => rfl) (fun _ => rfl) rfl rfl rfl
  | miss hx hat hdead => exact ht.frame (fun _ => rfl) (fun _ => rfl) rfl rfl rfl
  | hit hx hat hlive ha hbytes => exact ht.frame (fun _ => rfl) (fun _ => rfl) rfl rfl rfl
  | @start_pread x o hx hat hlive ha => exact ht.set_page (p := o.page_id) rfl ⟨rfl, rfl⟩ rfl rfl rfl
  | pread hx hat => exact ht.frame (fun _ => rfl) (fun _ => rfl) rfl rfl rfl
  | @release x o hx hat => exact ht.set_page (p := o.page_id) rfl ⟨rfl, rfl⟩ rfl rfl rfl
  | pwrite hx hat => exact ht.frame (fun _ => rfl) (fun _ => rfl) rfl rfl rfl
  | @callback e1 x p w offset len hx hat he =>
      unfold Engine.wbuf_cb at he
      dsimp only at he
      split at he
      · obtain rfl := Option.some.inj he
        exact ht.set_page (p := p) rfl ⟨rfl, rfl⟩ rfl rfl rfl
      · cases he
  | @delete p page_version count bytes hev hs hp =>
      subst hev hs
      unfold Engine.extstore_delete
      dsimp only
      split
      · rename_i hhit
        obtain ⟨hcount, hbytes⟩ := hcond hhit
        refine ht.deduct (p := p) h.bounded h.objects_lt hp rfl ?_ ?_ rfl rfl rfl
        · rw [if_pos hcount]
          exact Nat.sub_add_cancel hcount
        · rw [if_pos hbytes]
          exact Nat.sub_add_cancel hbytes
      · exact ht
  | close p => exact ht.set_page (p := p) rfl ⟨rfl, rfl⟩ rfl rfl rfl
  | free_page hm href hpage hlow => exact ht.free_page h.bounded h.objects_lt (ho.maintains hm).1
  | maint hpage hlow => exact ht.frame (fun _ => rfl) (fun _ => rfl) rfl rfl rfl

/-! ## Every run -/

theorem extstore_init_counting (h : extstore_init fh cf = some (.ok e)) : Counting cf.wbuf_size.toNat e := by
  obtain ⟨_, d, rfl, hmany, -, -, -, hlists⟩ := extstore_init_eq h
  obtain ⟨page_count, d, dev, -, hpage, hrest⟩ := extstore_init_pages h
  have hcount := (init_lists_relisted hlists).page_count
  have hzero (p : Nat) : (e.pages p).obj_count = 0 ∧ (e.pages p).bytes_used = 0 := by
    rw [hpage p]
    exact ⟨rfl, rfl⟩
  refine ⟨extstore_init_owned h, ⟨extstore_init_buffers h, ?_, ?_⟩, ⟨?_, ?_⟩, ?_⟩
  · rw [hrest]
    exact cf.page_size.toNat_lt
  · rw [hcount]
    exact hmany.trans (by decide)
  · rw [hrest]
    exact (Finset.sum_eq_zero fun p _ => (hzero p).1).symm
  · rw [hrest]
    exact (Finset.sum_eq_zero fun p _ => (hzero p).2).symm
  · rw [hrest]
    exact (by decide : 0 < 2 ^ 64)

/-- The counters of the engine are the sums over its pages, in every state that accounted steps reach. -/
theorem counters_agree (h : extstore_init fh cf = some (.ok e))
    (hrun : Run (fun e ev e' => Step e ev e' ∧ Accounted e ev) e es e') :
    e'.stats.objects_used = ∑ p ∈ Finset.range e'.page_count, (e'.pages p).obj_count ∧
    e'.stats.bytes_used = ∑ p ∈ Finset.range e'.page_count, (e'.pages p).bytes_used := by
  have hcounting : Counting cf.wbuf_size.toNat e' := by
    refine hrun.invariant (P := Counting cf.wbuf_size.toNat) (fun hs hstep => ?_) (extstore_init_counting h)
    exact step_rule (P := Counting cf.wbuf_size.toNat) hstep.1 (fun hact hc => hc.act hstep.2 hact) hs
  exact ⟨hcounting.tallied.objects, hcounting.tallied.bytes⟩

theorem counters_agree_witness : ∃ e es e', extstore_init two_pages small_conf = some (.ok e) ∧
    Run (fun e ev e' => Step e ev e' ∧ Accounted e ev) e es e' ∧
    e'.stats.objects_used = ∑ p ∈ Finset.range e'.page_count, (e'.pages p).obj_count ∧
    e'.stats.bytes_used = ∑ p ∈ Finset.range e'.page_count, (e'.pages p).bytes_used := by
  let es : List Event := [.write_request 0 0 0 [7, 8], .write 0 0, .delete 1 1 0 1]
  have hsome : (run (fun e ev => decide (Accounted e ev)) two_pages small_conf
    [.write_request 0 0 0 [7, 8], .write 0 0, .delete 1 1 0 1]).isSome := by decide
  obtain ⟨e', he'⟩ := Option.isSome_iff_exists.mp hsome
  obtain ⟨e, he, hrun⟩ := run_eq he'
  have hrun : Run (fun e ev e' => Step e ev e' ∧ Accounted e ev) e es e' :=
    hrun.mono fun hstep => ⟨hstep.1, of_decide_eq_true hstep.2⟩
  exact ⟨e, es, e', he, hrun, counters_agree he hrun⟩

/-- A delete of two bytes where one was written: the page is left with none, the engine with 2^64 - 1. -/
theorem counters_diverge : ∃ e es e', extstore_init two_pages small_conf = some (.ok e) ∧ Run Step e es e' ∧
    e'.stats.bytes_used = 2 ^ 64 - 1 ∧ ∑ p ∈ Finset.range e'.page_count, (e'.pages p).bytes_used = 0 := by
  have hfields : (run (fun _ _ => true) two_pages small_conf
      [.write_request 0 0 0 [7], .write 0 0, .delete 1 1 1 2]).map (fun e =>
        (e.stats.bytes_used, e.page_count, (e.pages 0).bytes_used, (e.pages 1).bytes_used)) =
          some (2 ^ 64 - 1, 2, 0, 0) := by decide
  obtain ⟨e', he', hfields⟩ := Option.map_eq_some_iff.mp hfields
  obtain ⟨e, he, hrun⟩ := run_eq he'
  simp only [Prod.mk.injEq] at hfields
  obtain ⟨hused, hcount, h0, h1⟩ := hfields
  refine ⟨e, _, e', he, hrun.mono fun hstep => hstep.1, hused, ?_⟩
  rw [hcount, Finset.sum_range_succ, Finset.sum_range_one, h0, h1]

end Memcached.Exstore

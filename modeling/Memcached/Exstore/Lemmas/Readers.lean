import Mathlib.Algebra.Order.BigOperators.Group.Finset
import Memcached.Exstore.Lemmas.Flights

/-!
# Readers of pages

`refcount` counts the io threads that are in a read of the page, so a page that is freed has none.
-/

namespace Memcached.Exstore

open Function (update update_self update_of_ne)

variable {s e e' : Engine} {ev : Event} {S p q x n : Nat} {th : IoThread} {o : Obj}

/-- The page the thread reads, with its reference held. -/
def IoThread.reading (th : IoThread) : Option Nat :=
  match th.phase, th.batch.head? with
  | .pread, some (.read o) => some o.page_id
  | .release, some (.read o) => some o.page_id
  | _, _ => none

/-- How many of the first `n` threads read page `p`. -/
def readers (threads : Nat → IoThread) (n p : Nat) : Nat :=
  ∑ x ∈ Finset.range n, if (threads x).reading = some p then 1 else 0

theorem readers_update (threads : Nat → IoThread) (p : Nat) (th : IoThread) (hx : x < n) :
    readers (update threads x th) n p + (if (threads x).reading = some p then 1 else 0) =
      readers threads n p + if th.reading = some p then 1 else 0 := by
  have hmem := Finset.mem_range.mpr hx
  have hrest : ∀ y ∈ (Finset.range n).erase x, (if (update threads x th y).reading = some p then 1 else 0) =
      if (threads y).reading = some p then 1 else 0 := fun y hy => by rw [update_of_ne (Finset.ne_of_mem_erase hy)]
  simp only [readers]
  rw [← Finset.add_sum_erase _ _ hmem, ← Finset.add_sum_erase _ _ hmem, Finset.sum_congr rfl hrest, update_self]
  omega

def Readers (e : Engine) : Prop := ∀ p, (e.pages p).refcount = readers e.io_threads e.io_threadcount p

theorem Readers.frame (h : Readers e) (hpages : ∀ p, (e'.pages p).refcount = (e.pages p).refcount)
    (hthreads : ∀ x, (e'.io_threads x).reading = (e.io_threads x).reading)
    (hcount : e'.io_threadcount = e.io_threadcount) : Readers e' := fun p => by
  rw [hpages, hcount, h p]
  exact Finset.sum_congr rfl fun x _ => by rw [hthreads]

theorem Readers.pos (h : Readers e) (hx : x < e.io_threadcount) (hr : (e.io_threads x).reading = some p) :
    0 < (e.pages p).refcount := by
  rw [h p]
  have hle := Finset.single_le_sum (f := fun y => if (e.io_threads y).reading = some p then 1 else 0)
    (fun _ _ => Nat.zero_le _) (Finset.mem_range.mpr hx)
  simp only [hr, if_true] at hle
  exact hle

/-! ## What threads read -/

theorem reading_of_at {phase : IoPhase} {io : Io} (h : e.at_io x phase io) :
    (e.io_threads x).reading = (match phase, io with
      | .pread, .read o => some o.page_id
      | .release, .read o => some o.page_id
      | _, _ => none) := by
  unfold IoThread.reading
  rw [h.1, h.2]
  cases phase <;> cases io <;> rfl

theorem reading_next (h : th.phase = .next) : th.reading = none := by
  unfold IoThread.reading
  rw [h]

theorem Readers.set_thread (h : Readers e) (hr : th.reading = (e.io_threads x).reading) : Readers (e.set_thread x th) :=
  h.frame (fun _ => rfl) (fun y => by
    by_cases hy : y = x
    · subst hy
      simpa [Engine.set_thread] using hr
    · simp [Engine.set_thread, hy]) rfl

theorem Readers.submit (h : Readers e) {io : Io} : Readers (e.submit x io) := h.set_thread rfl

theorem Readers.set_page (h : Readers e) {pg : Page} (hpages : e'.pages = update e.pages p pg)
    (hpg : pg.refcount = (e.pages p).refcount) (hthreads : e'.io_threads = e.io_threads)
    (hcount : e'.io_threadcount = e.io_threadcount) : Readers e' := by
  refine h.frame (fun q => ?_) (fun x => by rw [hthreads]) hcount
  rw [hpages]
  by_cases hq : q = p
  · subst hq
    rw [update_self]
    exact hpg
  · rw [update_of_ne hq]

theorem Readers.finish_next (h : Readers e) {io : Io} (hat : e.at_io x .next io) : Readers (e.finish x) := by
  refine h.set_thread ?_
  rw [reading_next rfl, reading_next hat.1]

theorem Readers.start_pread (h : Readers e) (hx : x < e.io_threadcount) (hat : e.at_io x .next (.read o)) :
    Readers ((e.set_page o.page_id
      { e.pages o.page_id with refcount := (e.pages o.page_id).refcount + 1 }).set_phase x .pread) := by
  intro p
  have hupd := readers_update e.io_threads p { e.io_threads x with phase := .pread } hx
  have hnow : ({ e.io_threads x with phase := .pread } : IoThread).reading = some o.page_id := by
    unfold IoThread.reading
    rw [hat.2]
  rw [reading_next hat.1, hnow] at hupd
  have hp := h p
  show (update e.pages o.page_id _ p).refcount = readers (update e.io_threads x _) e.io_threadcount p
  by_cases hpo : p = o.page_id
  · subst hpo
    simp only [reduceCtorEq, if_false, if_true, Nat.add_zero] at hupd
    rw [update_self]
    exact (congrArg (· + 1) hp).trans hupd.symm
  · have hpo' : ¬o.page_id = p := fun he => hpo he.symm
    simp only [reduceCtorEq, if_false, Option.some.injEq, hpo', Nat.add_zero] at hupd
    rw [update_of_ne hpo]
    exact hp.trans hupd.symm

theorem Readers.release (h : Readers e) (hx : x < e.io_threadcount) (hat : e.at_io x .release (.read o)) :
    Readers ((e.set_page o.page_id
      { e.pages o.page_id with refcount := (e.pages o.page_id).refcount - 1 }).finish x) := by
  intro p
  have hupd := readers_update e.io_threads p
    { e.io_threads x with batch := (e.io_threads x).batch.tail, phase := .next } hx
  rw [reading_of_at hat, reading_next rfl] at hupd
  have hp := h p
  show (update e.pages o.page_id _ p).refcount = readers (update e.io_threads x _) e.io_threadcount p
  by_cases hpo : p = o.page_id
  · subst hpo
    simp only [reduceCtorEq, if_false, if_true, Nat.add_zero] at hupd
    rw [update_self]
    show (e.pages o.page_id).refcount - 1 = _
    rw [hp, ← hupd, Nat.add_sub_cancel]
    rfl
  · have hpo' : ¬o.page_id = p := fun he => hpo he.symm
    simp only [reduceCtorEq, if_false, Option.some.injEq, hpo', Nat.add_zero] at hupd
    rw [update_of_ne hpo]
    exact hp.trans hupd.symm

/-! ## Every action -/

theorem Readers.act (h : Readers e) (hf : Flights e) (hact : Act s ev e e') : Readers e' := by
  cases hact with
  | writer hk => exact h.frame (fun _ => rfl) (fun _ => rfl) rfl
  | @open_page e1 free_bucket p bucket hs hstats hbucket ht hfree =>
      rw [take_free_rest ht]
      exact h.set_page (p := p) rfl rfl rfl rfl
  | lose_page ht hfree =>
      rw [take_free_rest ht]
      exact h.frame (fun _ => rfl) (fun _ => rfl) rfl
  | submit_wbuf hw hfull hx he =>
      unfold Engine.submit_wbuf at he
      split at he
      · cases he
      · obtain rfl := Option.some.inj he
        exact (h.frame (fun _ => rfl) (fun _ => rfl) rfl : Readers (Engine.set_wbuf { e with io_stack := _ } _ _)).submit.frame
          (fun _ => rfl) (fun _ => rfl) rfl
  | allocate_wbuf hu ha hw hsize =>
      unfold Engine.allocate_wbuf
      split
      · exact h
      · exact h.set_page rfl rfl rfl rfl
  | write hev hstats hu ha hw hfull hlen => exact h.set_page rfl rfl rfl rfl
  | read hx ho => exact h.submit
  | @pull x hx hbatch =>
      refine h.set_thread ?_
      have hphase := hf.idle hbatch
      refine Eq.trans (reading_next ?_) (reading_next hphase).symm
      exact hphase
  | miss hx hat hdead =>
      exact Readers.finish_next (h.frame (fun _ => rfl) (fun _ => rfl) rfl : Readers (e.answer _ none)) hat
  | @hit x o bytes hx hat hlive ha hbytes =>
      exact Readers.finish_next (h.frame (fun _ => rfl) (fun _ => rfl) rfl : Readers (e.answer o (some bytes))) hat
  | start_pread hx hat hlive ha => exact h.start_pread hx hat
  | @pread x o hx hat =>
      have h1 : Readers (e.answer o (some (e.pread o))) := h.frame (fun _ => rfl) (fun _ => rfl) rfl
      refine h1.set_thread ?_
      show ({ e.io_threads x with phase := .release } : IoThread).reading = (e.io_threads x).reading
      rw [reading_of_at hat]
      unfold IoThread.reading
      rw [hat.2]
  | release hx hat => exact h.release hx hat
  | @pwrite x p w offset len hx hat =>
      have h1 : Readers (e.pwrite p w offset len) := h.frame (fun _ => rfl) (fun _ => rfl) rfl
      refine h1.set_thread ?_
      show ({ e.io_threads x with phase := .callback } : IoThread).reading = (e.io_threads x).reading
      rw [reading_of_at hat]
      rfl
  | @callback e1 x p w offset len hx hat he =>
      unfold Engine.wbuf_cb at he
      dsimp only at he
      split at he
      · obtain rfl := Option.some.inj he
        refine Readers.set_thread ?_ ?_
        · exact h.set_page (p := p) rfl rfl rfl rfl
        · show _ = (e.io_threads x).reading
          rw [reading_of_at hat]
          rfl
      · cases he
  | @delete p page_version count bytes hev hs hp =>
      unfold Engine.extstore_delete
      dsimp only
      split
      · exact h.set_page (p := p) rfl rfl rfl rfl
      · exact h
  | close p => exact h.set_page (p := p) rfl rfl rfl rfl
  | @free_page p m hm href hpage hlow =>
      have hfreed := free_page_freed (e := e) (p := p)
      have hsame : (e.free_page p).io_threads = e.io_threads ∧ (e.free_page p).io_threadcount = e.io_threadcount := by
        rw [hfreed.rest]
        exact ⟨rfl, rfl⟩
      refine h.frame (fun q => ?_) (fun x => congrArg IoThread.reading (congrFun hsame.1 x)) hsame.2
      show ((e.free_page p).pages q).refcount = _
      by_cases hq : q = p
      · subst hq
        rw [hfreed.page]
      · rw [hfreed.other q hq]
  | maint hpage hlow => exact h.frame (fun _ => rfl) (fun _ => rfl) rfl

end Memcached.Exstore

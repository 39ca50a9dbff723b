import Memcached.Lib.Linked
import Memcached.Lib.Ownership
import Memcached.Network.Dispatch

/-!
# Where the items are

Every `CQ_ITEM` that `malloc` gave out is on the free list, on the queue of one worker, or in the hands of one thread.
`F` is the free list and `Q` are the queues, as lists.
-/

namespace Memcached.Network

open Function (update update_self update_of_ne)
open Linked (Walk)
open Ownership (Apart)

variable {settings : Settings} {s : System} {F : List Nat} {Q : Nat → List Nat} {d w : Nat} {item : Nat} {h : Handoff}

/-! ## Places -/

inductive Place
  | free
  | queue (w : Nat)
  | dispatcher (d : Nat)
  | worker (w : Nat)
  deriving DecidableEq

/-- The items a dispatching thread alone knows. -/
def Dispatcher.items (N : Nat) : Dispatcher → List Nat
  | .linking _ item => List.range' item N
  | .holding _ item | .pushing _ _ item => [item]
  | .idle | .allocating _ | .notifying _ => []

def Worker.items : Worker → List Nat
  | .handling item | .freeing item => [item]
  | .waiting | .popping | .timing_out => []

def place (settings : Settings) (s : System) (F : List Nat) (Q : Nat → List Nat) : Place → List Nat
  | .free => F
  | .queue w => Q w
  | .dispatcher d => (s.dispatcher d).items settings.ITEMS_PER_ALLOC
  | .worker w => (s.worker w).items

def System.next (s : System) (p : Nat) : Option Nat := (s.items p).next

/-- Each item is at one place, and in a block. -/
structure Kept (N : Nat) (blocks : List Nat) (held : Place → List Nat) : Prop where
  apart : Apart held
  known : ∀ i, ∀ p ∈ held i, ∃ b ∈ blocks, b ≤ p ∧ p < b + N

structure Held (settings : Settings) (s : System) (F : List Nat) (Q : Nat → List Nat) : Prop where
  kept : Kept settings.ITEMS_PER_ALLOC s.blocks (place settings s F Q)
  free : Walk s.next s.cqi_freelist F
  head : ∀ w, Walk s.next (s.new_conn_queue w).head (Q w)
  tail : ∀ w, (s.new_conn_queue w).tail = (Q w).getLast?
  block : ∀ d h b, s.dispatcher d = .linking h b →
    ∀ p, b < p → p + 1 < b + settings.ITEMS_PER_ALLOC → s.next p = some (p + 1)

theorem Kept.move {N : Nat} {blocks : List Nat} {held : Place → List Nat} {i j : Place} {xs ys : List Nat}
    (h : Kept N blocks held) (hij : i ≠ j) (hp : (xs ++ ys).Perm (held i ++ held j)) :
    Kept N blocks (update (update held i xs) j ys) := by
  refine ⟨h.apart.move_update hij hp, fun k p hk => ?_⟩
  obtain ⟨l, hl⟩ := Ownership.mem_of_move_update hij hp hk
  exact h.known l p hl

/-! ## Links -/

@[simp] theorem next_set_next (p : Nat) (n : Option Nat) : (s.set_next p n).next = update s.next p n := by
  funext q
  by_cases hq : q = p
  · subst hq
    simp [System.next, System.set_next]
  · simp [System.next, System.set_next, hq]

theorem walk_update {next : Nat → Option Nat} {o n : Option Nat} {l : List Nat} {p : Nat} (hl : Walk next o l)
    (hp : p ∉ l) : Walk (update next p n) o l :=
  hl.congr fun _ hx => update_of_ne (ne_of_mem_of_not_mem hx hp) ..

theorem walk_snoc {next : Nat → Option Nat} {o : Option Nat} {l : List Nat} {t x : Nat} (hl : Walk next o (l ++ [t]))
    (ht : t ∉ l) (hx : x ∉ l ++ [t]) (hend : next x = none) : Walk (update next t (some x)) o (l ++ [t, x]) := by
  induction l generalizing o with
  | nil =>
      have hxt : x ≠ t := by simpa using hx
      exact ⟨hl.1, by simp, by simpa [Walk, hxt] using hend⟩
  | cons y l ih =>
      have hy : y ≠ t := fun he => ht (by simp [he])
      refine ⟨hl.1, ?_⟩
      rw [update_of_ne hy]
      exact ih hl.2 (fun hm => ht (by simp [hm])) fun hm => hx (by simp at hm ⊢; tauto)

/-- A row of consecutive items, the last of which is linked to what follows. -/
theorem walk_range {next : Nat → Option Nat} {o : Option Nat} {l : List Nat} {b n : Nat}
    (hmid : ∀ p, b ≤ p → p < b + n → next p = some (p + 1)) (hlast : next (b + n) = o) (hl : Walk next o l) :
    Walk next (some b) (List.range' b (n + 1) ++ l) := by
  induction n generalizing b with
  | zero =>
      refine ⟨rfl, ?_⟩
      rw [show next b = o from hlast]
      exact hl
  | succ n ih =>
      refine ⟨rfl, ?_⟩
      rw [hmid b le_rfl (by omega)]
      refine ih (fun p hp hp' => hmid p (by omega) (by omega)) ?_
      rw [show b + 1 + n = b + (n + 1) by omega]
      exact hlast

/-! ## Where the threads' steps put the items -/

theorem place_set_dispatcher {k : Dispatcher} :
    place settings (s.set_dispatcher d k) F Q =
      update (place settings s F Q) (.dispatcher d) (k.items settings.ITEMS_PER_ALLOC) := by
  funext i
  cases i with
  | dispatcher e =>
      by_cases he : e = d
      · subst he
        simp [place, System.set_dispatcher]
      · simp [place, System.set_dispatcher, he]
  | free => rfl
  | queue _ => rfl
  | worker _ => rfl

theorem place_set_worker {k : Worker} :
    place settings (s.set_worker w k) F Q = update (place settings s F Q) (.worker w) k.items := by
  funext i
  cases i with
  | worker v =>
      by_cases hv : v = w
      · subst hv
        simp [place, System.set_worker]
      · simp [place, System.set_worker, hv]
  | free => rfl
  | queue _ => rfl
  | dispatcher _ => rfl

theorem place_free {F' : List Nat} : place settings s F' Q = update (place settings s F Q) .free F' := by
  funext i
  cases i <;> simp [place]

theorem place_queue {l : List Nat} :
    place settings s F (update Q w l) = update (place settings s F Q) (.queue w) l := by
  funext i
  cases i with
  | queue v =>
      by_cases hv : v = w
      · subst hv
        simp [place]
      · simp [place, hv]
  | free => rfl
  | worker _ => rfl
  | dispatcher _ => rfl

namespace Held

theorem not_linking (hs : Held settings s F Q) {k : Dispatcher} (hk : ∀ h b, k ≠ .linking h b) :
    ∀ e h b, (s.set_dispatcher d k).dispatcher e = .linking h b →
      ∀ p, b < p → p + 1 < b + settings.ITEMS_PER_ALLOC → s.next p = some (p + 1) := by
  intro e h b he
  by_cases hed : e = d
  · subst hed
    exact absurd (by simpa [System.set_dispatcher] using he) (hk h b)
  · exact hs.block e h b (by simpa [System.set_dispatcher, hed] using he)

theorem set_dispatcher (hs : Held settings s F Q) {k : Dispatcher}
    (hitems : k.items settings.ITEMS_PER_ALLOC = (s.dispatcher d).items settings.ITEMS_PER_ALLOC)
    (hk : ∀ h b, k ≠ .linking h b) : Held settings (s.set_dispatcher d k) F Q := by
  refine ⟨?_, hs.free, hs.head, hs.tail, hs.not_linking hk⟩
  have hplace : place settings (s.set_dispatcher d k) F Q = place settings s F Q := by
    rw [place_set_dispatcher, hitems]
    exact Function.update_eq_self (f := place settings s F Q) (Place.dispatcher d)
  rw [hplace]
  exact hs.kept

theorem set_worker (hs : Held settings s F Q) {k : Worker} (hitems : k.items = (s.worker w).items) :
    Held settings (s.set_worker w k) F Q := by
  refine ⟨?_, hs.free, hs.head, hs.tail, hs.block⟩
  have hplace : place settings (s.set_worker w k) F Q = place settings s F Q := by
    rw [place_set_worker, hitems]
    exact Function.update_eq_self (f := place settings s F Q) (Place.worker w)
  rw [hplace]
  exact hs.kept

/-- The first locked part of `cqi_new` takes the head of the free list, if there is one. -/
theorem start (hs : Held settings s F Q) (hd : s.dispatcher d = .idle) :
    ∃ F', Held settings (s.start d h) F' Q := by
  cases hf : s.cqi_freelist with
  | none =>
      refine ⟨F, ?_⟩
      have hstart : s.start d h = s.set_dispatcher d (.allocating h) := by simp [System.start, System.cqi_pop, hf]
      rw [hstart]
      exact hs.set_dispatcher (by rw [hd]; rfl) (by simp)
  | some item =>
      have hfree := hs.free
      rw [hf] at hfree
      cases F with
      | nil => cases hfree
      | cons p F =>
          obtain ⟨hp, hwalk⟩ := hfree
          obtain rfl := Option.some.inj hp
          refine ⟨F, ?_⟩
          have hstart : s.start d h =
              { s with cqi_freelist := s.next item }.set_dispatcher d (.holding h item) := by
            simp [System.start, System.cqi_pop, hf, System.next]
          rw [hstart]
          refine ⟨?_, hwalk, hs.head, hs.tail, hs.not_linking (by simp)⟩
          rw [place_set_dispatcher]
          show Kept _ _ (update (place settings s F Q) _ _)
          rw [place_free]
          refine hs.kept.move (by simp) ?_
          have hidle : place settings s (item :: F) Q (.dispatcher d) = [] := by simp [place, hd, Dispatcher.items]
          rw [hidle, List.append_nil]
          exact List.perm_append_singleton item F

theorem fresh (hs : Held settings s F Q)
    (hr : ∀ b ∈ s.blocks, b + settings.ITEMS_PER_ALLOC ≤ item ∨ item + settings.ITEMS_PER_ALLOC ≤ b) {i : Place}
    {p : Nat} (hp : p ∈ place settings s F Q i) : ¬(item ≤ p ∧ p < item + settings.ITEMS_PER_ALLOC) := by
  obtain ⟨b, hb, hlo, hhi⟩ := hs.kept.known i p hp
  rcases hr b hb with hle | hle <;> omega

theorem next_link_block (p : Nat) : (s.link_block settings item).next p =
    if item < p ∧ p + 1 < item + settings.ITEMS_PER_ALLOC then some (p + 1) else s.next p := by
  by_cases hp : item < p ∧ p + 1 < item + settings.ITEMS_PER_ALLOC
  · simp [System.next, System.link_block, hp]
  · simp [System.next, System.link_block, hp]

theorem link_block (hs : Held settings s F Q) (hd : s.dispatcher d = .allocating h)
    (hr : ∀ b ∈ s.blocks, b + settings.ITEMS_PER_ALLOC ≤ item ∨ item + settings.ITEMS_PER_ALLOC ≤ b) :
    Held settings ((s.link_block settings item).set_dispatcher d (.linking h item)) F Q := by
  have hkeep {i : Place} (p : Nat) (hp : p ∈ place settings s F Q i) :
      (s.link_block settings item).next p = s.next p := by
    have hout := hs.fresh hr hp
    rw [next_link_block, if_neg (by omega)]
  have hempty : place settings s F Q (.dispatcher d) = [] := by simp [place, hd, Dispatcher.items]
  have hplace : place settings (s.link_block settings item) F Q = place settings s F Q := by
    funext i
    cases i <;> rfl
  refine ⟨⟨?_, ?_⟩, hs.free.congr (hkeep (i := .free)), fun w => (hs.head w).congr (hkeep (i := .queue w)), hs.tail, ?_⟩
  · rw [place_set_dispatcher, hplace]
    refine hs.kept.apart.arrive_update (List.nodup_range' (s := item) (n := settings.ITEMS_PER_ALLOC)) ?_ ?_
    · intro p hp i hi
      exact hs.fresh hr hi (List.mem_range'_1.mp hp)
    · rw [hempty, List.append_nil]
      exact List.Perm.refl _
  · intro i p hp
    rw [place_set_dispatcher, hplace] at hp
    by_cases hi : i = .dispatcher d
    · subst hi
      rw [update_self] at hp
      exact ⟨item, List.mem_cons_self, List.mem_range'_1.mp hp⟩
    · rw [update_of_ne hi] at hp
      obtain ⟨b, hb, hin⟩ := hs.kept.known i p hp
      exact ⟨b, List.mem_cons_of_mem _ hb, hin⟩
  · intro e h' b he p hlo hhi
    by_cases hed : e = d
    · subst hed
      have hk : Dispatcher.linking h item = .linking h' b := by simpa [System.set_dispatcher] using he
      cases hk
      rw [show ((s.link_block settings item).set_dispatcher e (.linking h item)).next p =
        (s.link_block settings item).next p from rfl, next_link_block, if_pos ⟨hlo, hhi⟩]
    · have he' : s.dispatcher e = .linking h' b := by simpa [System.set_dispatcher, System.link_block, hed] using he
      have hmem : p ∈ place settings s F Q (.dispatcher e) := by
        simp only [place, he', Dispatcher.items, List.mem_range'_1]
        omega
      exact (hkeep p hmem).trans (hs.block e h' b he' p hlo hhi)

/-- The links of another thread's block stay when an item of someone else is relinked. -/
theorem block_update (hs : Held settings s F Q) {n : Option Nat} {i : Place} {e b p : Nat} {h' : Handoff}
    (hitem : item ∈ place settings s F Q i) (hi : i ≠ .dispatcher e) (he : s.dispatcher e = .linking h' b)
    (hlo : b < p) (hhi : p + 1 < b + settings.ITEMS_PER_ALLOC) : update s.next item n p = some (p + 1) := by
  have hp : p ∈ place settings s F Q (.dispatcher e) := by
    simp only [place, he, Dispatcher.items, List.mem_range'_1]
    omega
  have hne : p ≠ item := fun hpi => hi (hs.kept.apart.place hitem (hpi ▸ hp))
  rw [update_of_ne hne]
  exact hs.block e h' b he p hlo hhi

theorem cqi_refill (hs : Held settings s F Q) (hN : 2 ≤ settings.ITEMS_PER_ALLOC) (hd : s.dispatcher d = .linking h item) :
    Held settings ((s.cqi_refill settings item).set_dispatcher d (.holding h item))
      (List.range' (item + 1) (settings.ITEMS_PER_ALLOC - 1) ++ F) Q := by
  obtain ⟨n, hn⟩ := Nat.exists_eq_add_of_le' hN
  have hmine : place settings s F Q (.dispatcher d) = List.range' item (n + 2) := by
    simp [place, hd, Dispatcher.items, hn]
  have hlast : item + (n + 1) ∈ place settings s F Q (.dispatcher d) := by
    rw [hmine, List.mem_range'_1]
    omega
  have hnext : ((s.cqi_refill settings item).set_dispatcher d (.holding h item)).next =
      update s.next (item + (n + 1)) s.cqi_freelist := by
    rw [← next_set_next]
    simp only [System.cqi_refill, hn]
    rfl
  have hnot {i : Place} (hi : i ≠ .dispatcher d) : item + (n + 1) ∉ place settings s F Q i :=
    hs.kept.apart.not_mem hlast hi
  refine ⟨?_, ?_, fun w => ?_, hs.tail, ?_⟩
  · rw [place_set_dispatcher]
    show Kept _ _ (update (place settings s _ Q) _ _)
    rw [place_free (F := F)]
    refine hs.kept.move (by simp) ?_
    rw [hmine, hn]
    show (List.range' (item + 1) (n + 1) ++ F ++ [item]).Perm (F ++ List.range' item (n + 2))
    rw [List.range'_succ (s := item)]
    exact (List.perm_append_comm.trans (by simp)).trans List.perm_append_comm
  · rw [hnext, hn]
    refine walk_range (fun p hlo hhi => ?_) ?_ (walk_update hs.free (hnot (i := .free) (by simp)))
    · rw [update_of_ne (by omega)]
      exact hs.block d h item hd p (by omega) (by omega)
    · rw [show item + 1 + n = item + (n + 1) by omega, update_self]
  · rw [hnext]
    exact walk_update (hs.head w) (hnot (i := .queue w) (by simp))
  · intro e h' b he p hlo hhi
    by_cases hed : e = d
    · subst hed
      simp [System.set_dispatcher] at he
    · rw [hnext]
      exact hs.block_update hlast (by simpa using Ne.symm hed)
        (by simpa [System.set_dispatcher, System.cqi_refill, System.set_next, hed] using he) hlo hhi

theorem fill (hs : Held settings s F Q) (hd : s.dispatcher d = .holding h item) {h' : Handoff} {v : Nat} {i : CQ_ITEM}
    {t : Int} (hnext : i.next = (s.items item).next) :
    Held settings ({ s with items := update s.items item i, last_thread := t }.set_dispatcher d
      (.pushing h' v item)) F Q := by
  have hkeep : System.next { s with items := update s.items item i, last_thread := t } = s.next := by
    funext p
    by_cases hp : p = item
    · subst hp
      simp [System.next, hnext]
    · simp [System.next, hp]
  have hs' : Held settings { s with items := update s.items item i, last_thread := t } F Q := by
    refine ⟨hs.kept, ?_, fun w => ?_, hs.tail, fun e h b he p => ?_⟩
    · rw [hkeep]
      exact hs.free
    · rw [hkeep]
      exact hs.head w
    · rw [hkeep]
      exact hs.block e h b he p
  refine hs'.set_dispatcher ?_ (by simp)
  simp [hd, Dispatcher.items]

/-! ## The queue -/

theorem next_cq_push : (s.cq_push w item).next = match (s.new_conn_queue w).tail with
    | none => update s.next item none
    | some t => update (update s.next item none) t (some item) := by
  cases ht : (s.new_conn_queue w).tail with
  | none =>
      simp only [System.cq_push, System.set_next, ht]
      exact next_set_next item none
  | some t =>
      have hq : ((s.set_next item none).new_conn_queue w).tail = some t := ht
      simp only [System.cq_push, hq]
      show ((s.set_next item none).set_next t (some item)).next = _
      rw [next_set_next, next_set_next]

theorem queue_cq_push : (s.cq_push w item).new_conn_queue = update s.new_conn_queue w
    ⟨if (s.new_conn_queue w).tail = none then some item else (s.new_conn_queue w).head, some item⟩ := by
  cases ht : (s.new_conn_queue w).tail with
  | none => simp [System.cq_push, System.set_next, ht]
  | some t => simp [System.cq_push, System.set_next, ht]

theorem cq_push_rest (s : System) (w item : Nat) :
    (s.cq_push w item).dispatcher = s.dispatcher ∧ (s.cq_push w item).worker = s.worker ∧
    (s.cq_push w item).blocks = s.blocks ∧ (s.cq_push w item).cqi_freelist = s.cqi_freelist := by
  cases ht : (s.new_conn_queue w).tail with
  | none => simp [System.cq_push, System.set_next, ht]
  | some t => simp [System.cq_push, System.set_next, ht]

theorem cq_push_log (s : System) (w item : Nat) :
    (s.cq_push w item).queued = s.queued ∧ (s.cq_push w item).handled = s.handled ∧
    (s.cq_push w item).sent = s.sent ∧ (s.cq_push w item).received = s.received ∧
    (s.cq_push w item).pipe = s.pipe := by
  cases ht : (s.new_conn_queue w).tail with
  | none => simp [System.cq_push, System.set_next, ht]
  | some t => simp [System.cq_push, System.set_next, ht]

theorem next_cq_push_of_ne (hs : Held settings s F Q) {p : Nat} (hp : p ≠ item) (hq : p ∉ Q w) :
    (s.cq_push w item).next p = s.next p := by
  rw [next_cq_push]
  cases ht : (s.new_conn_queue w).tail with
  | none => exact update_of_ne hp ..
  | some t =>
      have hmem : t ∈ Q w := List.mem_of_getLast? (hs.tail w ▸ ht)
      simp only
      rw [update_of_ne (ne_of_mem_of_not_mem hmem hq).symm, update_of_ne hp]

theorem cq_push (hs : Held settings s F Q) {h : Handoff} (hd : s.dispatcher d = .pushing h w item) {k : Dispatcher}
    (hk : k.items settings.ITEMS_PER_ALLOC = []) :
    Held settings ((s.cq_push w item).set_dispatcher d k) F (update Q w (Q w ++ [item])) := by
  have hmine : place settings s F Q (.dispatcher d) = [item] := by simp [place, hd, Dispatcher.items]
  have hitem : item ∈ place settings s F Q (.dispatcher d) := by simp [hmine]
  have hnot {i : Place} (hi : i ≠ .dispatcher d) : item ∉ place settings s F Q i :=
    hs.kept.apart.not_mem hitem hi
  obtain ⟨hdisp, hwork, hblocks, hfree⟩ := cq_push_rest s w item
  have hkeep {i : Place} (hi : i ≠ .dispatcher d) (hw : i ≠ .queue w) (p : Nat) (hp : p ∈ place settings s F Q i) :
      (s.cq_push w item).next p = s.next p :=
    hs.next_cq_push_of_ne (ne_of_mem_of_not_mem hp (hnot hi)) (hs.kept.apart.not_mem hp hw.symm)
  have hwalk : Walk (s.cq_push w item).next ((s.cq_push w item).new_conn_queue w).head (Q w ++ [item]) := by
    have hhead := hs.head w
    have htail := hs.tail w
    have hnew := hnot (i := .queue w) (by simp)
    have hnd := hs.kept.apart.nodup (.queue w)
    simp only [place] at hnew hnd
    rw [next_cq_push, queue_cq_push, update_self]
    obtain hnil | ⟨l, t, hl⟩ := List.eq_nil_or_concat (Q w)
    · rw [hnil] at htail ⊢
      simp [htail, Walk]
    · rw [List.concat_eq_append] at hl
      rw [hl] at htail hhead hnew hnd ⊢
      rw [List.getLast?_concat] at htail
      simp only [htail, reduceCtorEq, if_false, List.append_assoc, List.cons_append, List.nil_append]
      obtain ⟨-, -, hdis⟩ := List.nodup_append.mp hnd
      exact walk_snoc (walk_update hhead hnew) (fun hm => hdis t hm t (by simp) rfl) hnew (update_self ..)
  refine ⟨?_, ?_, ?_, ?_, ?_⟩
  · show Kept _ (s.cq_push w item).blocks _
    rw [hblocks, place_set_dispatcher, place_queue, hk]
    have hplace : place settings (s.cq_push w item) F Q = place settings s F Q := by
      funext i
      cases i <;> simp [place, hdisp, hwork]
    rw [hplace]
    refine hs.kept.move (by simp) ?_
    rw [hmine, List.append_nil]
    exact List.Perm.refl _
  · show Walk (s.cq_push w item).next (s.cq_push w item).cqi_freelist F
    rw [hfree]
    exact hs.free.congr (hkeep (i := .free) (by simp) (by simp))
  · intro v
    by_cases hv : v = w
    · subst hv
      rw [update_self]
      exact hwalk
    · show Walk (s.cq_push w item).next ((s.cq_push w item).new_conn_queue v).head _
      rw [update_of_ne hv, queue_cq_push, update_of_ne hv]
      exact (hs.head v).congr (hkeep (i := .queue v) (by simp) (by simpa using hv))
  · intro v
    show ((s.cq_push w item).new_conn_queue v).tail = _
    rw [queue_cq_push]
    by_cases hv : v = w
    · subst hv
      simp
    · simp [hv, hs.tail v]
  · intro e h' b he p hlo hhi
    by_cases hed : e = d
    · subst hed
      have hke : k = .linking h' b := by simpa [System.set_dispatcher] using he
      have hN : settings.ITEMS_PER_ALLOC = 0 := by simpa [hke, Dispatcher.items] using hk
      omega
    · have he' : s.dispatcher e = .linking h' b := by simpa [System.set_dispatcher, hdisp, hed] using he
      have hp : p ∈ place settings s F Q (.dispatcher e) := by
        simp only [place, he', Dispatcher.items, List.mem_range'_1]
        omega
      exact (hkeep (by simpa using hed) (by simp) p hp).trans (hs.block e h' b he' p hlo hhi)

theorem cq_pop (hs : Held settings s F Q) (hw : s.worker w = .popping) :
    (Q w = [] ∧ s.cq_pop w = (none, s)) ∨ ∃ item l, Q w = item :: l ∧ (s.cq_pop w).1 = some item ∧
      Held settings ((s.cq_pop w).2.set_worker w (.handling item)) F (update Q w l) := by
  have hhead := hs.head w
  cases hq : Q w with
  | nil =>
      rw [hq] at hhead
      have hnone : (s.new_conn_queue w).head = none := hhead
      exact .inl ⟨rfl, by simp [System.cq_pop, hnone]⟩
  | cons item l =>
      rw [hq] at hhead
      obtain ⟨hitem, hwalk⟩ := hhead
      right
      refine ⟨item, l, rfl, by simp [System.cq_pop, hitem], ?_⟩
      obtain ⟨q, hq_head, hq_tail, hpop⟩ : ∃ q : CQ, q.head = s.next item ∧
          (q.tail = if s.next item = none then none else (s.new_conn_queue w).tail) ∧
          (s.cq_pop w).2 = { s with new_conn_queue := update s.new_conn_queue w q } := by
        simp only [System.cq_pop, hitem]
        exact ⟨_, rfl, rfl, rfl⟩
      rw [hpop]
      refine ⟨?_, hs.free, fun v => ?_, fun v => ?_, hs.block⟩
      · rw [place_set_worker, place_queue]
        refine hs.kept.move (by simp) ?_
        have hidle : place settings s F Q (.worker w) = [] := by simp [place, hw, Worker.items]
        have hqueue : place settings s F Q (.queue w) = item :: l := hq
        rw [hidle, hqueue, List.append_nil]
        exact List.perm_append_singleton item l
      · show Walk s.next (update s.new_conn_queue w q v).head (update Q w l v)
        by_cases hv : v = w
        · subst hv
          rw [update_self, update_self, hq_head]
          exact hwalk
        · rw [update_of_ne hv, update_of_ne hv]
          exact hs.head v
      · show (update s.new_conn_queue w q v).tail = (update Q w l v).getLast?
        by_cases hv : v = w
        · subst hv
          have htail := hs.tail v
          rw [update_self, update_self, hq_tail]
          cases l with
          | nil =>
              have hend : s.next item = none := hwalk
              simp [hend]
          | cons x l =>
              have hnext : s.next item = some x := hwalk.1
              simpa [hnext, hq] using htail
        · rw [update_of_ne hv, update_of_ne hv]
          exact hs.tail v

theorem cqi_free (hs : Held settings s F Q) (hw : s.worker w = .freeing item) :
    Held settings ((s.cqi_free item).set_worker w .waiting) (item :: F) Q := by
  have hmine : place settings s F Q (.worker w) = [item] := by simp [place, hw, Worker.items]
  have hitem : item ∈ place settings s F Q (.worker w) := by simp [hmine]
  have hnot {i : Place} (hi : i ≠ .worker w) : item ∉ place settings s F Q i := hs.kept.apart.not_mem hitem hi
  have hnext : ((s.cqi_free item).set_worker w .waiting).next = update s.next item s.cqi_freelist :=
    next_set_next item s.cqi_freelist
  refine ⟨?_, ⟨rfl, ?_⟩, fun v => ?_, hs.tail, fun e h b he p hlo hhi => ?_⟩
  · rw [place_set_worker]
    show Kept _ _ (update (place settings s _ Q) _ _)
    rw [place_free (F := F)]
    refine hs.kept.move (by simp) ?_
    rw [hmine]
    show ((item :: F) ++ []).Perm (F ++ [item])
    rw [List.append_nil]
    exact (List.perm_append_singleton item F).symm
  · rw [hnext, update_self]
    exact walk_update hs.free (hnot (i := .free) (by simp))
  · rw [hnext]
    exact walk_update (hs.head v) (hnot (i := .queue v) (by simp))
  · rw [hnext]
    exact hs.block_update hitem (by simp) he hlo hhi

end Held

end Memcached.Network

import Memcached.Exstore.Lemmas.Actions
import Memcached.Exstore.Lemmas.PageLists

/-!
# Who owns the pages

Only opening and freeing a page touch its lists. Both keep them well formed, whatever the interleaving.
-/

namespace Memcached.Exstore

open Function (update update_self update_of_ne)
open Linked (Walk)

variable {s e e' : Engine} {ev : Event} {L : Place → List Nat} {p q : Nat}

/-! ## What leaves the lists alone -/

/-- What no action but opening and freeing changes of a page. -/
structure Page.Kept (pg pg' : Page) : Prop where
  next : pg'.next = pg.next
  free : pg'.free = pg.free
  bucket : pg'.bucket = pg.bucket
  free_bucket : pg'.free_bucket = pg.free_bucket
  version : pg'.version = pg.version
  fd : pg'.fd = pg.fd
  offset : pg'.offset = pg.offset

structure Framed (e e' : Engine) : Prop where
  pages : ∀ p, (e.pages p).Kept (e'.pages p)
  head : e'.head = e.head
  page_count : e'.page_count = e.page_count
  page_size : e'.page_size = e.page_size
  page_free : e'.page_free = e.page_free
  page_bucketcount : e'.page_bucketcount = e.page_bucketcount
  version : e'.version = e.version
  maint : e'.maint = e.maint
  writers : ∀ t b, (e'.writers t).bucket = some b → b < e.page_bucketcount ∨ (e.writers t).bucket = some b

theorem Page.Kept.refl (pg : Page) : pg.Kept pg := ⟨rfl, rfl, rfl, rfl, rfl, rfl, rfl⟩

theorem Framed.of_page {pg : Page} (hpages : e'.pages = update e.pages p pg) (hpg : (e.pages p).Kept pg)
    (head : e'.head = e.head) (page_count : e'.page_count = e.page_count)
    (page_size : e'.page_size = e.page_size) (page_free : e'.page_free = e.page_free)
    (page_bucketcount : e'.page_bucketcount = e.page_bucketcount) (version : e'.version = e.version)
    (maint : e'.maint = e.maint) (writers : e'.writers = e.writers) : Framed e e' := by
  refine ⟨fun q => ?_, head, page_count, page_size, page_free, page_bucketcount, version, maint, fun t b h => .inr (writers ▸ h)⟩
  rw [hpages]
  by_cases hq : q = p
  · subst hq
    rw [update_self]
    exact hpg
  · rw [update_of_ne hq]
    exact .refl _

theorem Framed.of_pages (hpages : e'.pages = e.pages) (head : e'.head = e.head) (page_count : e'.page_count = e.page_count)
    (page_size : e'.page_size = e.page_size) (page_free : e'.page_free = e.page_free) (page_bucketcount : e'.page_bucketcount = e.page_bucketcount)
    (version : e'.version = e.version) (maint : e'.maint = e.maint) (writers : e'.writers = e.writers) :
    Framed e e' :=
  ⟨fun q => by rw [hpages]; exact .refl _, head, page_count, page_size, page_free, page_bucketcount, version, maint,
    fun t b h => .inr (writers ▸ h)⟩

theorem Page.Kept.home {pg pg' : Page} (h : pg.Kept pg') : pg'.home = pg.home := by
  simp only [Page.home, Page.freed, h.free, h.free_bucket, h.bucket]

theorem Page.Kept.freed {pg pg' : Page} (h : pg.Kept pg') : pg'.freed = pg.freed := by
  simp only [Page.freed, h.free_bucket]

theorem Framed.lists (h : Framed e e') : e'.lists = e.lists := by
  simp only [Engine.lists, Lists.mk.injEq]
  exact ⟨funext fun p => (h.pages p).next, funext fun p => (h.pages p).home, funext fun p => (h.pages p).freed,
    h.head, h.page_count, h.page_free, h.page_bucketcount⟩

theorem Act.framed (h : Act s ev e e') :
    Framed e e' ∨
    (∃ free_bucket p bucket e1, s.allocating ev ∧ e.stats = s.stats ∧ e.take_free free_bucket = some (some p, e1) ∧
      0 < e1.page_free ∧ (bucket < e.page_bucketcount ∨ ∃ t, (e.writers t).bucket = some bucket) ∧
      e' = e1.open_page p bucket) ∨
    (∃ free_bucket p, e.take_free free_bucket = some (some p, e') ∧ e'.page_free = 0) ∨
    (∃ p m, e.maintains p ∧ (∀ l ∈ m.low, l ∈ e.maint.low ∧ e.maint.page = some p ∧ e.maint.index ≤ m.index) ∧
      m.page = none ∧ e' = { e.free_page p with maint := m }) ∨
    (∃ m, (∀ i ∈ m.page, i < e.page_count ∧ (e.pages i).active = false) ∧
      (∀ l ∈ m.low, l ∈ e.maint.low ∧ e.maint.index ≤ m.index ∨
        e.maint.page = some l.2 ∧ (e.pages l.2).free = false ∧ 0 < (e.pages l.2).obj_count ∧ l.2 < m.index) ∧
      e' = { e with maint := m }) := by
  cases h with
  | @writer t k hk =>
      refine .inl ⟨fun q => .refl _, rfl, rfl, rfl, rfl, rfl, rfl, rfl, fun u b hb => ?_⟩
      simp only [Engine.set_writer] at hb
      by_cases hu : u = t
      · subst hu
        rw [update_self] at hb
        exact hk b hb
      · rw [update_of_ne hu] at hb
        exact .inr hb
  | @open_page e1 free_bucket p bucket hs hstats hb ht hfree =>
      exact .inr (.inl ⟨free_bucket, p, bucket, e1, hs, hstats, ht, hfree, hb, rfl⟩)
  | lose_page ht hfree => exact .inr (.inr (.inl ⟨_, _, ht, hfree⟩))
  | submit_wbuf hw hfull hx h =>
      unfold Engine.submit_wbuf at h
      split at h
      · cases h
      · obtain rfl := Option.some.inj h
        exact .inl (.of_pages rfl rfl rfl rfl rfl rfl rfl rfl rfl)
  | allocate_wbuf hu ha hw hsize =>
      left
      unfold Engine.allocate_wbuf
      split
      · exact .of_pages rfl rfl rfl rfl rfl rfl rfl rfl rfl
      · exact .of_page rfl ⟨rfl, rfl, rfl, rfl, rfl, rfl, rfl⟩ rfl rfl rfl rfl rfl rfl rfl rfl
  | write hev hstats hu ha hw hfull hlen => exact .inl (.of_page rfl ⟨rfl, rfl, rfl, rfl, rfl, rfl, rfl⟩ rfl rfl rfl rfl rfl rfl rfl rfl)
  | read hx ho => exact .inl (.of_pages rfl rfl rfl rfl rfl rfl rfl rfl rfl)
  | pull hx hbatch => exact .inl (.of_pages rfl rfl rfl rfl rfl rfl rfl rfl rfl)
  | miss hx hat hdead => exact .inl (.of_pages rfl rfl rfl rfl rfl rfl rfl rfl rfl)
  | hit hx hat hlive ha h => exact .inl (.of_pages rfl rfl rfl rfl rfl rfl rfl rfl rfl)
  | start_pread hx hat hlive ha => exact .inl (.of_page rfl ⟨rfl, rfl, rfl, rfl, rfl, rfl, rfl⟩ rfl rfl rfl rfl rfl rfl rfl rfl)
  | pread hx hat => exact .inl (.of_pages rfl rfl rfl rfl rfl rfl rfl rfl rfl)
  | release hx hat => exact .inl (.of_page rfl ⟨rfl, rfl, rfl, rfl, rfl, rfl, rfl⟩ rfl rfl rfl rfl rfl rfl rfl rfl)
  | pwrite hx hat => exact .inl (.of_pages rfl rfl rfl rfl rfl rfl rfl rfl rfl)
  | callback hx hat h =>
      unfold Engine.wbuf_cb at h
      dsimp only at h
      split at h
      · obtain rfl := Option.some.inj h
        exact .inl (.of_page rfl ⟨rfl, rfl, rfl, rfl, rfl, rfl, rfl⟩ rfl rfl rfl rfl rfl rfl rfl rfl)
      · cases h
  | @delete p page_version count bytes hev hs hp =>
      left
      unfold Engine.extstore_delete
      dsimp only
      split
      · exact .of_page rfl ⟨rfl, rfl, rfl, rfl, rfl, rfl, rfl⟩ rfl rfl rfl rfl rfl rfl rfl rfl
      · exact .of_pages rfl rfl rfl rfl rfl rfl rfl rfl rfl
  | close p => exact .inl (.of_page rfl ⟨rfl, rfl, rfl, rfl, rfl, rfl, rfl⟩ rfl rfl rfl rfl rfl rfl rfl rfl)
  | free_page hm href hpage hlow => exact .inr (.inr (.inr (.inl ⟨_, _, hm, hlow, hpage, rfl⟩)))
  | maint hpage hlow => exact .inr (.inr (.inr (.inr ⟨_, hpage, hlow, rfl⟩)))

/-! ## Opening a page -/

theorem take_free_some {free_bucket : Nat} {e1 : Engine} (h : e.take_free free_bucket = some (some p, e1)) :
    ∃ i : Place, i.is_free ∧ e.head i = some p ∧ e1.head = update e.head i (e.pages p).next ∧ e1.pages = e.pages ∧
      e1.page_count = e.page_count ∧ e1.page_free = e.page_free ∧ e1.page_bucketcount = e.page_bucketcount ∧
      e1.maint = e.maint ∧ e1.writers = e.writers := by
  unfold Engine.take_free at h
  split at h
  · cases h
  · split at h
    · rename_i tmp htmp
      split at h
      · cases h
      · obtain ⟨rfl, rfl⟩ := by simpa using h
        split at htmp
        · cases htmp
        · refine ⟨.free_bucket free_bucket, rfl, htmp, funext fun j => ?_, rfl, rfl, rfl, rfl, rfl, rfl⟩
          cases j with
          | free => simp [Engine.head]
          | bucket b => simp [Engine.head]
          | free_bucket b =>
              by_cases hb : b = free_bucket
              · subst hb
                simp [Engine.head]
              · rw [update_of_ne (by simpa using hb)]
                simp [Engine.head, hb]
    · split at h
      · rename_i tmp htmp
        obtain ⟨rfl, rfl⟩ := by simpa using h
        refine ⟨.free, rfl, htmp, funext fun j => ?_, rfl, rfl, rfl, rfl, rfl, rfl⟩
        cases j with
        | free => simp [Engine.head]
        | bucket b => simp [Engine.head]
        | free_bucket b => simp [Engine.head]
      · simp at h

theorem lists_open_page {e1 : Engine} {i : Place} (bucket : Nat) (hhead : e1.head = update e.head i (e.pages p).next)
    (hi : i.is_free) (hpages : e1.pages = e.pages) (hcount : e1.page_count = e.page_count) (hfree : e1.page_free = e.page_free)
    (hbuckets : e1.page_bucketcount = e.page_bucketcount) :
    (e1.open_page p bucket).lists = e.lists.open_page p i (.bucket bucket) := by
  have hib : Place.bucket bucket ≠ i := fun he => by rw [← he] at hi; cases hi
  refine Lists.ext (funext fun q => ?_) (funext fun q => ?_) (funext fun q => ?_) (funext fun j => ?_) hcount ?_ hbuckets
  all_goals simp only [Engine.lists, Lists.open_page]
  · by_cases hq : q = p
    · subst hq
      have hb : e1.page_buckets bucket = e.head (.bucket bucket) := by
        have := congrFun hhead (.bucket bucket)
        rwa [update_of_ne hib] at this
      simp [Engine.open_page, hb]
    · simp [Engine.open_page, hq, hpages]
  · by_cases hq : q = p
    · subst hq
      simp [Engine.open_page, Page.home]
    · simp [Engine.open_page, hq, hpages]
  · by_cases hq : q = p
    · subst hq
      simp [Engine.open_page, Page.freed, hpages]
    · simp [Engine.open_page, hq, hpages]
  · rw [← hhead]
    cases j with
    | free => simp [Engine.head, Engine.open_page]
    | free_bucket b => simp [Engine.head, Engine.open_page]
    | bucket b =>
        by_cases hb : b = bucket
        · subst hb
          simp [Engine.head, Engine.open_page]
        · rw [update_of_ne (by simpa using hb)]
          simp [Engine.head, Engine.open_page, hb]
  · simp [Engine.open_page, hfree]

/-! ## Freeing a page -/

theorem find_prev_eq {pre post : List Nat} (n : Nat) (prev o : Option Nat)
    (hwalk : Walk (fun q => (e.pages q).next) o (pre ++ p :: post)) (hp : p ∉ pre) (hn : pre.length < n) :
    e.find_prev p n prev o = some (pre.getLast?.or prev) := by
  induction pre generalizing n prev o with
  | nil =>
      obtain ⟨n, rfl⟩ := Nat.exists_eq_add_one.mpr hn
      obtain ⟨rfl, -⟩ := hwalk
      simp [Engine.find_prev]
  | cons x pre ih =>
      obtain ⟨n, rfl⟩ := Nat.exists_eq_add_one.mpr (Nat.zero_lt_of_lt hn)
      obtain ⟨rfl, hrest⟩ := hwalk
      have hx : x ≠ p := fun he => hp (by simp [he])
      have hlen : pre.length < n := by simpa using hn
      rw [Engine.find_prev, if_neg hx, ih n (some x) _ hrest (fun hm => hp (List.mem_cons_of_mem _ hm)) hlen]
      cases hlast : pre.getLast? <;> simp [List.getLast?_cons, hlast]

theorem lists_push_free :
    ({ e.push_free p with page_free := e.page_free + 1 } : Engine).lists =
      e.lists.push_free p := by
  have hpage (q : Nat) (o : Option Nat) : (update e.pages p { e.pages p with next := o } q).home = (e.pages q).home ∧
      (update e.pages p { e.pages p with next := o } q).freed = (e.pages q).freed := by
    by_cases hq : q = p
    · subst hq
      simp [Page.home, Page.freed]
    · simp [hq]
  have hnext (q : Nat) (o : Option Nat) : (update e.pages p { e.pages p with next := o } q).next =
      update e.lists.next p o q := by
    by_cases hq : q = p
    · subst hq
      simp
    · simp [hq, Engine.lists]
  have hfreed : e.lists.freed p = (e.pages p).freed := rfl
  unfold Lists.push_free Engine.push_free
  rw [hfreed]
  unfold Page.freed
  dsimp only
  split
  · refine Lists.ext (funext fun q => hnext q _) (funext fun q => (hpage q _).1) (funext fun q => (hpage q _).2)
      (funext fun j => ?_) rfl rfl rfl
    simp only [Engine.lists, Engine.set_page]
    cases j with
    | free => simp [Engine.head]
    | bucket b => simp [Engine.head]
    | free_bucket b =>
        by_cases hb : b = (e.pages p).free_bucket
        · subst hb
          simp [Engine.head]
        · rw [update_of_ne (by simpa using hb)]
          simp [Engine.head, hb]
  · refine Lists.ext (funext fun q => hnext q _) (funext fun q => (hpage q _).1) (funext fun q => (hpage q _).2)
      (funext fun j => ?_) rfl rfl rfl
    simp only [Engine.lists, Engine.set_page]
    cases j <;> simp [Engine.head]

/-- What `unlink` and `push_free` have no business with. -/
structure Counted (e e' : Engine) : Prop where
  page_count : e'.page_count = e.page_count
  page_free : e'.page_free = e.page_free
  page_bucketcount : e'.page_bucketcount = e.page_bucketcount
  maint : e'.maint = e.maint
  writers : e'.writers = e.writers

theorem unlink_counted : Counted e (e.unlink p) := by
  unfold Engine.unlink
  dsimp only
  split <;> exact ⟨rfl, rfl, rfl, rfl, rfl⟩

theorem push_free_counted : Counted e (e.push_free p) := by
  unfold Engine.push_free
  dsimp only
  split <;> exact ⟨rfl, rfl, rfl, rfl, rfl⟩

theorem lists_unlink {prev : Option Nat} {b : Nat} (hb : (e.pages p).bucket = b) (hne : ∀ q ∈ prev, q ≠ p)
    (hprev : e.find_prev p (e.page_count + 1) none (e.page_buckets b) = some prev) :
    (e.unlink p).head = e.lists.head_without p (.bucket b) prev ∧
    (∀ q, q ≠ p → ((e.unlink p).pages q).next = e.lists.next_without p prev q) ∧
    ∀ q, ((e.unlink p).pages q).home = (e.pages q).home ∧ ((e.unlink p).pages q).freed = (e.pages q).freed ∧
      ((e.unlink p).pages q).free = (e.pages q).free := by
  subst hb
  unfold Engine.unlink
  dsimp only
  cases prev with
  | none =>
      simp only [hprev]
      refine ⟨funext fun j => ?_, fun q hq => ?_, fun q => ?_⟩
      · cases j with
        | free => simp [Engine.head, Engine.set_page, Lists.head_without, Engine.lists]
        | free_bucket b => simp [Engine.head, Engine.set_page, Lists.head_without, Engine.lists]
        | bucket b =>
            by_cases hb : b = (e.pages p).bucket
            · subst hb
              simp [Engine.head, Engine.set_page, Lists.head_without, Engine.lists]
            · simp [Engine.head, Engine.set_page, Lists.head_without, Engine.lists, hb]
      · simp [Engine.set_page, hq, Lists.next_without, Engine.lists]
      · by_cases hq : q = p
        · subst hq
          simp [Engine.set_page, Page.home, Page.freed]
        · simp [Engine.set_page, hq]
  | some r =>
      have hr : p ≠ r := (hne r rfl).symm
      simp only [hprev]
      refine ⟨rfl, fun q hq => ?_, fun q => ?_⟩
      · by_cases hqr : q = r
        · subst hqr
          simp [Engine.set_page, hq, Lists.next_without, Engine.lists]
        · simp [Engine.set_page, hq, hqr, Lists.next_without, Engine.lists]
      · by_cases hq : q = p
        · subst hq
          simp [Engine.set_page, Page.home, Page.freed, hr]
        · by_cases hqr : q = r
          · subst hqr
            simp [Engine.set_page, Page.home, Page.freed, hq]
          · simp [Engine.set_page, hq, hqr]

theorem lists_free_page {pre post : List Nat} {k : Nat} (h : Listed k e.lists L) {b : Nat} (hb : (e.pages p).bucket = b)
    (hL : L (.bucket b) = pre ++ p :: post) :
    (e.free_page p).lists = e.lists.free_page p (.bucket b) pre.getLast? := by
  have hwalk := h.walk (.bucket b)
  have hnd := h.nodup (.bucket b)
  have hlen := h.length_le (.bucket b)
  rw [hL] at hwalk hnd hlen
  have hp : p ∉ pre ++ post := (List.nodup_middle.mp hnd).notMem
  let e1 : Engine := { e with stats := { e.stats with
    objects_used := sub64 e.stats.objects_used (e.pages p).obj_count
    bytes_used := sub64 e.stats.bytes_used (e.pages p).bytes_used } }
  have hprev : e1.find_prev p (e1.page_count + 1) none (e1.page_buckets b) = some pre.getLast? := by
    have hn : pre.length < e1.page_count + 1 := by
      simp only [List.length_append, List.length_cons, Engine.lists] at hlen
      show pre.length < e.page_count + 1
      omega
    have := find_prev_eq (e := e1) _ none _ hwalk (fun hm => hp (List.mem_append_left _ hm)) hn
    rwa [Option.or_none] at this
  obtain ⟨hhead, hnext, hpage⟩ := lists_unlink (e := e1) hb (fun q hq he => hp (by
    rw [← he]; exact List.mem_append_left _ (List.mem_of_getLast? hq))) hprev
  let e2 := (e1.unlink p).set_page p { (e1.unlink p).pages p with
    version := 0, obj_count := 0, bytes_used := 0, allocated := 0, written := 0, bucket := 0
    active := false, closed := false, free := true }
  have hfree : (e2.pages p).free = true := by simp [e2, Engine.set_page]
  have hfreed : (e2.pages p).freed = (e.pages p).freed := by
    rw [← (hpage p).2.1]
    simp [e2, Engine.set_page, Page.freed]
  have hcounted : Counted e e2 :=
    let h := unlink_counted (e := e1) (p := p)
    ⟨h.page_count, h.page_free, h.page_bucketcount, h.maint, h.writers⟩
  have hpages (q : Nat) (hq : q ≠ p) : e2.pages q = (e1.unlink p).pages q := by simp [e2, Engine.set_page, hq]
  have heq : e.free_page p = { e2.push_free p with page_free := e2.page_free + 1 } := by
    rw [← (push_free_counted (e := e2) (p := p)).page_free]
    rfl
  have hlfreed : e2.lists.freed p = (e.pages p).freed := hfreed
  have hlhead : e2.lists.head = e.lists.head_without p (.bucket b) pre.getLast? := hhead
  rw [heq, lists_push_free, Lists.push_free, hlfreed, hlhead]
  refine Lists.ext (funext fun q => ?_) (funext fun q => ?_) (funext fun q => ?_) ?_ hcounted.page_count ?_
    hcounted.page_bucketcount
  · simp only [Lists.free_page]
    by_cases hq : q = p
    · subst hq
      rw [update_self, update_self]
      rfl
    · rw [update_of_ne hq, update_of_ne hq]
      refine Eq.trans ?_ (hnext q hq)
      simp only [Engine.lists, hpages q hq]
  · simp only [Lists.free_page]
    by_cases hq : q = p
    · subst hq
      rw [update_self]
      refine Eq.trans ?_ hfreed
      simp [Engine.lists, Page.home, hfree]
    · rw [update_of_ne hq]
      simp only [Engine.lists, hpages q hq]
      exact (hpage q).1
  · by_cases hq : q = p
    · subst hq
      exact hfreed
    · simp only [Engine.lists, Lists.free_page, hpages q hq]
      exact (hpage q).2.1
  · rfl
  · show e2.page_free + 1 = e.page_free + 1
    rw [hcounted.page_free]

/-! ## The invariant -/

/-- The lists are well formed; page 0 stays free, off them; the page to evict is one in use, seen in this pass. -/
structure Owned (e : Engine) (L : Place → List Nat) : Prop where
  listed : Listed 1 e.lists L
  zero : 0 < e.page_count → (e.pages 0).free = true
  page : ∀ i ∈ e.maint.page, i < e.page_count
  low : ∀ l ∈ e.maint.low, l.2 < e.maint.index ∧ l.2 < e.page_count ∧ (e.pages l.2).free = false
  writers : ∀ t b, (e.writers t).bucket = some b → b < e.page_bucketcount
  bucket : ∀ b, ∀ p ∈ L (.bucket b), b < e.page_bucketcount

theorem home_eq_bucket {pg : Page} {b : Nat} : pg.home = .bucket b ↔ pg.free = false ∧ pg.bucket = b := by
  unfold Page.home Page.freed
  cases pg.free
  · simp
  · by_cases h : pg.free_bucket ≠ 0
    · simp [h]
    · simp [h]

theorem is_free_home {pg : Page} : pg.home.is_free = pg.free := by
  unfold Page.home Page.freed
  cases pg.free
  · rfl
  · by_cases h : pg.free_bucket ≠ 0
    · simp [h, Place.is_free]
    · simp [h, Place.is_free]

theorem is_free_freed {pg : Page} : pg.freed.is_free := by
  unfold Page.freed
  split <;> rfl

theorem Listed.page_free_pos {k : Nat} {l : Lists} {i : Place} (h : Listed k l L) (hi : i.is_free) (hp : p ∈ L i) :
    0 < l.page_free := by
  cases hL : L i with
  | nil => simp [hL] at hp
  | cons x xs =>
      have hn (c : Nat) (hc : i = .free_bucket c) : c < l.page_bucketcount :=
        h.bound p c (h.range i p hp).1 (h.range i p hp).2 (.inl ((h.home i p hp).trans hc))
      have hcount : l.page_free = total_free l.page_bucketcount L := h.count
      rw [total_free_cons hi hn hL] at hcount
      omega

theorem Owned.framed (h : Owned e L) (hframe : Framed e e') : Owned e' L := by
  have hlists := hframe.lists
  have hcount : e'.page_count = e.page_count := congrArg Lists.page_count hlists
  refine ⟨by rw [hlists]; exact h.listed, ?_, ?_, ?_, ?_, ?_⟩
  · rw [hcount, (hframe.pages 0).free]
    exact h.zero
  · rw [hframe.maint, hcount]
    exact h.page
  · rw [hframe.maint, hcount]
    intro l hl
    rw [(hframe.pages l.2).free]
    exact h.low l hl
  · rw [hframe.page_bucketcount]
    exact fun t b hb => (hframe.writers t b hb).elim id (h.writers t b)
  · rw [hframe.page_bucketcount]
    exact h.bucket

theorem Owned.ne_zero (h : Owned e L) (hp : p < e.page_count) (hfree : (e.pages p).free = false) : p ≠ 0 :=
  fun he => by
    subst he
    rw [h.zero hp] at hfree
    cases hfree

theorem Owned.mem_bucket (h : Owned e L) (hp : p < e.page_count) (hfree : (e.pages p).free = false) :
    p ∈ L (.bucket (e.pages p).bucket) := by
  have hmem := h.listed.all p (Nat.one_le_iff_ne_zero.mpr (h.ne_zero hp hfree)) hp
  have hhome : e.lists.home p = .bucket (e.pages p).bucket := home_eq_bucket.mpr ⟨hfree, rfl⟩
  rwa [hhome] at hmem

theorem Owned.maintains (h : Owned e L) (hm : e.maintains p) : p < e.page_count ∧ (e.pages p).free = false := by
  rcases hm with ⟨hpage, hfree⟩ | ⟨v, hlow⟩
  · exact ⟨h.page p hpage, hfree⟩
  · exact (h.low _ hlow).2

theorem Owned.open_page (h : Owned e L) {free_bucket bucket : Nat} {e1 : Engine}
    (ht : e.take_free free_bucket = some (some p, e1))
    (hb : bucket < e.page_bucketcount ∨ ∃ t, (e.writers t).bucket = some bucket) :
    ∃ L', Owned (e1.open_page p bucket) L' := by
  obtain ⟨i, hi, hhead, hhead1, hpages, hcount, hfree, hbuckets, hmaint, hwriters⟩ := take_free_some ht
  have hb : bucket < e.page_bucketcount := hb.elim id fun ⟨t, ht⟩ => h.writers t bucket ht
  obtain ⟨rest, hL, hlisted⟩ := h.listed.open_page hi (b := bucket) hhead
  have hp : p ∈ L i := by simp [hL]
  have hp0 := h.listed.range i p hp
  have hpfree : (e.pages p).free = true := by
    rw [← is_free_home]
    exact (congrArg Place.is_free (h.listed.home i p hp)).trans hi
  rw [← lists_open_page bucket hhead1 hi hpages hcount hfree hbuckets] at hlisted
  refine ⟨_, hlisted, fun h0 => ?_, fun j hj => ?_, fun l hl => ?_, fun t b ht => ?_, fun b q hq => ?_⟩
  · show (update e1.pages p _ 0).free = true
    rw [update_of_ne (Nat.ne_of_lt hp0.1), hpages]
    exact h.zero (hcount ▸ h0)
  · show j < e1.page_count
    rw [hcount]
    exact h.page j (by rwa [← hmaint])
  · have hl : l ∈ e1.maint.low := hl
    rw [hmaint] at hl
    obtain ⟨hidx, hlt, hlfree⟩ := h.low l hl
    refine ⟨?_, ?_, ?_⟩
    · show l.2 < e1.maint.index
      rwa [hmaint]
    · show l.2 < e1.page_count
      rwa [hcount]
    · have hne : l.2 ≠ p := fun he => by rw [he, hpfree] at hlfree; cases hlfree
      show (update e1.pages p _ l.2).free = false
      rw [update_of_ne hne, hpages]
      exact hlfree
  · show b < e1.page_bucketcount
    rw [hbuckets]
    exact h.writers t b (by rwa [← hwriters])
  · show b < e1.page_bucketcount
    rw [hbuckets]
    by_cases hbb : b = bucket
    · rwa [hbb]
    · have hbi : Place.bucket b ≠ i := fun he => by rw [← he] at hi; cases hi
      rw [update_of_ne (by simpa using hbb), update_of_ne hbi] at hq
      exact h.bucket b q hq

theorem free_page_writers : (e.free_page p).writers = e.writers :=
  (push_free_counted ..).writers.trans (unlink_counted ..).writers

theorem free_page_free (hp : p < e.page_count) (hfree : (e.pages p).free = false) (h : Owned e L) (hq : q ≠ p) :
    ((e.free_page p).pages q).free = (e.pages q).free := by
  obtain ⟨pre, post, hL⟩ := List.append_of_mem (h.mem_bucket hp hfree)
  have hlists := lists_free_page h.listed rfl hL
  have hhome := congrFun (congrArg Lists.home hlists) q
  simp only [Lists.free_page] at hhome
  rw [update_of_ne hq] at hhome
  rw [← is_free_home, ← is_free_home]
  exact congrArg Place.is_free hhome

theorem Owned.free_page (h : Owned e L) {m : Maint} (hm : e.maintains p) (hpage : m.page = none)
    (hlow : ∀ l ∈ m.low, l ∈ e.maint.low ∧ e.maint.page = some p ∧ e.maint.index ≤ m.index) :
    ∃ L', Owned { e.free_page p with maint := m } L' := by
  obtain ⟨hp, hfree⟩ := h.maintains hm
  obtain ⟨pre, post, hL⟩ := List.append_of_mem (h.mem_bucket hp hfree)
  have hlists := lists_free_page h.listed rfl hL
  have hcount : (e.free_page p).page_count = e.page_count := congrArg Lists.page_count hlists
  have hbuckets : (e.free_page p).page_bucketcount = e.page_bucketcount := congrArg Lists.page_bucketcount hlists
  have hlisted := h.listed.free_page hL is_free_freed
  rw [← hlists] at hlisted
  refine ⟨_, hlisted, fun h0 => ?_, fun i hi => ?_, fun l hl => ?_, fun t b ht => ?_, fun b q hq => ?_⟩
  · have h0 : 0 < e.page_count := by rwa [← hcount]
    exact (free_page_free hp hfree h (h.ne_zero hp hfree).symm).trans (h.zero h0)
  · rw [hpage] at hi
    cases hi
  · obtain ⟨hl, hlocked, hidx⟩ := hlow l hl
    obtain ⟨hlt, hlp, hlfree⟩ := h.low l hl
    have hne : l.2 ≠ p := by
      rw [Maint.index_of_page hlocked] at hlt
      exact hlt.ne
    refine ⟨hlt.trans_le hidx, ?_, ?_⟩
    · show l.2 < (e.free_page p).page_count
      rwa [hcount]
    · exact (free_page_free hp hfree h hne).trans hlfree
  · show b < (e.free_page p).page_bucketcount
    rw [hbuckets]
    exact h.writers t b (by rwa [free_page_writers] at ht)
  · show b < (e.free_page p).page_bucketcount
    rw [hbuckets]
    by_cases hbp : b = (e.pages p).bucket
    · subst hbp
      exact h.bucket _ p (by simp [hL])
    · have hbf : Place.bucket b ≠ (e.pages p).freed := fun he => by
        have : (e.pages p).freed.is_free := is_free_freed
        rw [← he] at this
        cases this
      have hq : q ∈ update (update L (.bucket (e.pages p).bucket) (pre ++ post)) (e.pages p).freed
        (p :: L (e.pages p).freed) (.bucket b) := hq
      rw [update_of_ne hbf, update_of_ne (by simpa using hbp)] at hq
      exact h.bucket b q hq

theorem Owned.act (h : Owned e L) (hact : Act s ev e e') : ∃ L', Owned e' L' := by
  rcases hact.framed with hframe | ⟨_, _, _, _, _, _, ht, _, hb, rfl⟩ | ⟨_, p, ht, hzero⟩ | ⟨p, m, hm, hlow, hpage, rfl⟩ |
    ⟨m, hpage, hlow, rfl⟩
  · exact ⟨L, h.framed hframe⟩
  · exact h.open_page ht hb
  · obtain ⟨i, hi, hhead, -, -, -, hfree, -⟩ := take_free_some ht
    obtain ⟨rest, hL, -⟩ := h.listed.open_page hi (b := 0) hhead
    have hpos : 0 < e.page_free := h.listed.page_free_pos hi (p := p) (by simp [hL])
    omega
  · exact h.free_page hm hpage hlow
  · refine ⟨L, h.listed, h.zero, fun i hi => (hpage i hi).1, fun l hl => ?_, h.writers, h.bucket⟩
    rcases hlow l hl with ⟨hl, hidx⟩ | ⟨hlocked, hfree, -, hidx⟩
    · exact ⟨(h.low l hl).1.trans_le hidx, (h.low l hl).2⟩
    · exact ⟨hidx, h.page _ hlocked, hfree⟩

end Memcached.Exstore

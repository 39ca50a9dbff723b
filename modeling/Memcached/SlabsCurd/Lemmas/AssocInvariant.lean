import Memcached.SlabsCurd.Lemmas.AssocTables

/-!
# Workers and the maintenance thread

`Inv` joins `Tables` with what each thread knows where it stands. The item lock is what keeps that knowledge good:
a worker's lock covers the old and the new bucket of its key, so the maintenance thread is never at them.
-/

namespace Memcached.SlabsCurd.System

variable {hash : Key → UInt32} {s s' : System}

/-- The chain the maintenance thread has in hand. -/
def cur : Maintenance → Option (List Item)
  | .relinking _ it => some it
  | .cleared _ => some []
  | _ => none

/-- Worker `t` holds the lock of its call's key. -/
def Holds (hash : Key → UInt32) (s : System) (t : Nat) (c : Call) : Prop :=
  s.item_locks (s.item_lock_of (hash c.key).toNat) = some (.worker t)

/-- The bucket a worker chose is still the right one. -/
def Chosen (hash : Key → UInt32) (s : System) (c : Call) : Place → Prop
  | .primary b => b = s.assoc.new_bucket (hash c.key) ∧
      (s.assoc.expanding = true → s.assoc.old_bucket (hash c.key) < s.assoc.expand_bucket)
  | .old b => b = s.assoc.old_bucket (hash c.key) ∧ s.assoc.expanding = true ∧ s.assoc.expand_bucket ≤ b

/-- What a worker was told agrees with the map as long as it keeps the lock. -/
def Answered (s : System) : Call → Option Item → Prop
  | .find key, r => r = s.items key
  | .insert it, _ => s.items it.key = some it
  | .delete key, _ => s.items key = none

def WorkerInv (hash : Key → UInt32) (s : System) (t : Nat) : Worker → Prop
  | .idle => True
  | .locked c => s.Holds hash t c
  | .read_expanding c e => s.Holds hash t c ∧
      if e then s.assoc.expanding = true ∨ s.assoc.expand_bucket = hashsize (s.assoc.hashpower - 1)
      else s.assoc.expanding = false
  | .at_bucket c p => s.Holds hash t c ∧ s.Chosen hash c p
  | .done c r => s.Holds hash t c ∧ s.Answered c r
  | .aborted => False

def MaintenanceInv (s : System) : Maintenance → Prop
  | .running => s.assoc.expanding = true → s.assoc.expand_bucket < hashsize (s.assoc.hashpower - 1)
  | .relinking l _ | .cleared l => s.assoc.expanding = true ∧
      s.assoc.expand_bucket < hashsize (s.assoc.hashpower - 1) ∧
      l = s.item_lock_of s.assoc.expand_bucket ∧ s.item_locks l = some .maintenance
  | .advanced l => s.assoc.expanding = true ∧ s.assoc.expand_bucket ≤ hashsize (s.assoc.hashpower - 1) ∧
      s.item_locks l = some .maintenance
  | .unlocking l => (s.assoc.expanding = true → s.assoc.expand_bucket < hashsize (s.assoc.hashpower - 1)) ∧
      s.item_locks l = some .maintenance
  | .waiting => s.assoc.expanding = false

structure Inv (hash : Key → UInt32) (s : System) : Prop where
  tables : s.assoc.Tables hash (cur s.maintenance) s.items
  power : s.item_lock_hashpower < s.assoc.hashpower ∧ s.assoc.hashpower ≤ HASHPOWER_MAX
  workers : ∀ t, s.WorkerInv hash t (s.workers t)
  maintenance : s.MaintenanceInv s.maintenance

/-! ## The lock covers both buckets -/

theorem item_lock_of_old_bucket (h : s.item_lock_hashpower < s.assoc.hashpower) (hv : UInt32) :
    s.item_lock_of (s.assoc.old_bucket hv) = s.item_lock_of hv.toNat :=
  and_hashmask_and_hashmask _ (by omega)

theorem item_lock_of_new_bucket (h : s.item_lock_hashpower < s.assoc.hashpower) (hv : UInt32) :
    s.item_lock_of (s.assoc.new_bucket hv) = s.item_lock_of hv.toNat :=
  and_hashmask_and_hashmask _ (Nat.le_of_lt h)

theorem Inv.right (h : Inv hash s) {t : Nat} {c : Call} {p : Place} (hh : s.Holds hash t c)
    (hc : s.Chosen hash c p) : s.assoc.Right (cur s.maintenance) (hash c.key) p := by
  cases p with
  | primary b => exact hc
  | old b =>
      obtain ⟨hb, hexp, hge⟩ := hc
      refine ⟨hb, hexp, hge, fun hbe => ?_⟩
      have hlock : s.item_lock_of s.assoc.expand_bucket = s.item_lock_of (hash c.key).toNat := by
        rw [← hbe, hb, item_lock_of_old_bucket h.power.1]
      have hm := h.maintenance
      unfold Holds at hh
      cases hms : s.maintenance with
      | relinking l it =>
          rw [hms] at hm
          obtain ⟨_, _, rfl, howner⟩ := hm
          rw [hlock, hh] at howner
          exact nomatch howner
      | cleared l =>
          rw [hms] at hm
          obtain ⟨_, _, rfl, howner⟩ := hm
          rw [hlock, hh] at howner
          exact nomatch howner
      | _ => rfl

theorem Holds.unique {t t' : Nat} {c c' : Call} (h : s.Holds hash t c) (h' : s.Holds hash t' c')
    (hkey : c.key = c'.key) : t = t' := by
  unfold Holds at h h'
  rw [hkey, h'] at h
  cases h
  rfl

/-! ## Frames -/

theorem WorkerInv.mono {t : Nat} {w : Worker} (h : s.WorkerInv hash t w)
    (hholds : ∀ c, s.Holds hash t c → s'.Holds hash t c)
    (hon : s.assoc.expanding = true ∨ s.assoc.expand_bucket = hashsize (s.assoc.hashpower - 1) →
      s'.assoc.expanding = true ∨ s'.assoc.expand_bucket = hashsize (s'.assoc.hashpower - 1))
    (hoff : s.assoc.expanding = false → s'.assoc.expanding = false)
    (hchosen : ∀ c p, s.Holds hash t c → s.Chosen hash c p → s'.Chosen hash c p)
    (hans : ∀ c r, s.Holds hash t c → s.Answered c r → s'.Answered c r) : s'.WorkerInv hash t w := by
  cases w with
  | idle => trivial
  | locked c => exact hholds c h
  | read_expanding c e =>
      refine ⟨hholds c h.1, ?_⟩
      have he := h.2
      cases e with
      | true => simp only [↓reduceIte] at he ⊢; exact hon he
      | false => simp only [Bool.false_eq_true, ↓reduceIte] at he ⊢; exact hoff he
  | at_bucket c p => exact ⟨hholds c h.1, hchosen c p h.1 h.2⟩
  | done c r => exact ⟨hholds c h.1, hans c r h.1 h.2⟩
  | aborted => exact h

/-- A change that keeps the sizes of the tables and how far the expansion came. -/
structure Steady (s s' : System) : Prop where
  hashpower : s'.assoc.hashpower = s.assoc.hashpower
  expanding : s'.assoc.expanding = s.assoc.expanding
  expand_bucket : s'.assoc.expand_bucket = s.assoc.expand_bucket
  item_lock_hashpower : s'.item_lock_hashpower = s.item_lock_hashpower

theorem Steady.chosen (h : Steady s s') {c : Call} {p : Place} (hc : s.Chosen hash c p) : s'.Chosen hash c p := by
  cases p with
  | primary b =>
      simpa [Chosen, Assoc.new_bucket, Assoc.old_bucket, h.hashpower, h.expanding, h.expand_bucket] using hc
  | old b => simpa [Chosen, Assoc.old_bucket, h.hashpower, h.expanding, h.expand_bucket] using hc

theorem Steady.worker (h : Steady s s') {t : Nat} {w : Worker} (hw : s.WorkerInv hash t w)
    (hlock : ∀ l, s.item_locks l = some (.worker t) → s'.item_locks l = some (.worker t))
    (hans : ∀ c r, s.Holds hash t c → s.Answered c r → s'.Answered c r) : s'.WorkerInv hash t w := by
  refine hw.mono (fun c hc => ?_) ?_ ?_ (fun _ _ _ => h.chosen) hans
  · unfold Holds item_lock_of at hc ⊢
    rw [h.item_lock_hashpower]
    exact hlock _ hc
  · rw [h.expanding, h.expand_bucket, h.hashpower]; exact id
  · rw [h.expanding]; exact id

theorem Steady.maintenance (h : Steady s s') {m : Maintenance} (hm : s.MaintenanceInv m)
    (hlock : ∀ l, s.item_locks l = some .maintenance → s'.item_locks l = some .maintenance) :
    s'.MaintenanceInv m := by
  have hof : ∀ n, s'.item_lock_of n = s.item_lock_of n := fun n => by
    unfold item_lock_of; rw [h.item_lock_hashpower]
  cases m with
  | running => simpa [MaintenanceInv, h.hashpower, h.expanding, h.expand_bucket] using hm
  | relinking l it =>
      obtain ⟨h1, h2, h3, h4⟩ := hm
      exact ⟨h.expanding ▸ h1, by rw [h.expand_bucket, h.hashpower]; exact h2, by rw [hof, h.expand_bucket]; exact h3,
        hlock l h4⟩
  | cleared l =>
      obtain ⟨h1, h2, h3, h4⟩ := hm
      exact ⟨h.expanding ▸ h1, by rw [h.expand_bucket, h.hashpower]; exact h2, by rw [hof, h.expand_bucket]; exact h3,
        hlock l h4⟩
  | advanced l =>
      obtain ⟨h1, h2, h3⟩ := hm
      exact ⟨h.expanding ▸ h1, by rw [h.expand_bucket, h.hashpower]; exact h2, hlock l h3⟩
  | unlocking l =>
      obtain ⟨h1, h2⟩ := hm
      exact ⟨by rw [h.expanding, h.expand_bucket, h.hashpower]; exact h1, hlock l h2⟩
  | waiting => exact h.expanding.trans hm

theorem Inv.setWorker (h : Inv hash s) {t : Nat} {w : Worker} (hw : s.WorkerInv hash t w) :
    Inv hash (s.setWorker t w) where
  tables := h.tables
  power := h.power
  workers := by
    intro t'
    by_cases ht : t' = t
    · subst ht
      have hself : (s.setWorker t' w).workers t' = w := Function.update_self ..
      rw [hself]
      exact hw
    · have hother : (s.setWorker t w).workers t' = s.workers t' := Function.update_of_ne ht ..
      rw [hother]
      exact h.workers t'
  maintenance := h.maintenance

/-! ## Locks -/

theorem Inv.take_lock (h : Inv hash s) {l : Nat} (hfree : s.item_locks l = none) (o : Owner) :
    Inv hash (s.setLock l (some o)) := by
  have hkeep : ∀ (l' : Nat) (o' : Owner), s.item_locks l' = some o' →
      (s.setLock l (some o)).item_locks l' = some o' := by
    intro l' o' hl
    have hne : l' ≠ l := by rintro rfl; rw [hfree] at hl; exact nomatch hl
    exact (Function.update_of_ne hne ..).trans hl
  have hsteady : Steady s (s.setLock l (some o)) := ⟨rfl, rfl, rfl, rfl⟩
  exact {
    tables := h.tables
    power := h.power
    workers := fun t => hsteady.worker (h.workers t) (fun l' => hkeep l' _) fun _ _ _ => id
    maintenance := hsteady.maintenance h.maintenance fun l' => hkeep l' _ }

theorem Inv.item_unlock (h : Inv hash s) {t l : Nat} (hl : s.item_locks l = some (.worker t)) :
    Inv hash ((s.setLock l none).setWorker t .idle) := by
  have hkeep : ∀ (l' : Nat) (o' : Owner), o' ≠ .worker t → s.item_locks l' = some o' →
      (s.setLock l none).item_locks l' = some o' := by
    intro l' o' ho hl'
    have hne : l' ≠ l := by
      rintro rfl
      rw [hl, Option.some.injEq] at hl'
      exact ho hl'.symm
    exact (Function.update_of_ne hne ..).trans hl'
  have hsteady : Steady s ((s.setLock l none).setWorker t .idle) := ⟨rfl, rfl, rfl, rfl⟩
  exact {
    tables := h.tables
    power := h.power
    workers := by
      intro t'
      by_cases ht : t' = t
      · subst ht
        have hself : ((s.setLock l none).setWorker t' .idle).workers t' = .idle := Function.update_self ..
        rw [hself]
        trivial
      · have hother : ((s.setLock l none).setWorker t .idle).workers t' = s.workers t' :=
          Function.update_of_ne ht ..
        rw [hother]
        exact hsteady.worker (h.workers t') (fun l' => hkeep l' _ fun he => ht (Owner.worker.inj he)) fun _ _ _ => id
    maintenance := hsteady.maintenance h.maintenance fun l' => hkeep l' _ (fun he => nomatch he) }

/-! ## Operations -/

theorem Inv.operate (h : Inv hash s) {t : Nat} {c : Call} {p : Place} {l : List Item} {r : Option Item}
    {o : Option Item} (hh : s.Holds hash t c)
    (htables : (s.assoc.setChain p l).Tables hash (cur s.maintenance) (Function.update s.items c.key o))
    (hans : Answered { s with items := Function.update s.items c.key o } c r) :
    Inv hash { s.setWorker t (.done c r) with
      assoc := s.assoc.setChain p l, items := Function.update s.items c.key o } := by
  have hsteady : Steady s { s.setWorker t (.done c r) with
      assoc := s.assoc.setChain p l, items := Function.update s.items c.key o } :=
    ⟨Assoc.setChain_hashpower .., Assoc.setChain_expanding .., Assoc.setChain_expand_bucket .., rfl⟩
  exact {
    tables := htables
    power := by simpa [System.setWorker] using h.power
    workers := by
      intro t'
      by_cases ht : t' = t
      · subst ht
        have hself : (s.setWorker t' (.done c r)).workers t' = .done c r := Function.update_self ..
        simp only [hself]
        refine ⟨hh, ?_⟩
        cases c <;> exact hans
      · have hother : (s.setWorker t (.done c r)).workers t' = s.workers t' := Function.update_of_ne ht ..
        simp only [hother]
        refine hsteady.worker (h.workers t') (fun _ => id) fun c' r' hh' ha => ?_
        have hkey : c'.key ≠ c.key := fun he => ht (hh'.unique hh he)
        cases c' with
        | find key => exact ha.trans (Function.update_of_ne hkey ..).symm
        | insert it => exact (Function.update_of_ne hkey ..).trans ha
        | delete key => exact (Function.update_of_ne hkey ..).trans ha
    maintenance := hsteady.maintenance h.maintenance fun _ => id }

/-! ## The maintenance thread -/

theorem Inv.maintain (h : Inv hash s) {p : Place} {l : List Item} {m : Maintenance}
    (htables : (s.assoc.setChain p l).Tables hash (cur m) s.items)
    (hm : s.MaintenanceInv m) : Inv hash { s with assoc := s.assoc.setChain p l, maintenance := m } := by
  have hsteady : Steady s { s with assoc := s.assoc.setChain p l, maintenance := m } :=
    ⟨Assoc.setChain_hashpower .., Assoc.setChain_expanding .., Assoc.setChain_expand_bucket .., rfl⟩
  exact {
    tables := htables
    power := by simpa using h.power
    workers := fun t => hsteady.worker (h.workers t) (fun _ => id) fun _ _ _ => id
    maintenance := hsteady.maintenance hm fun _ => id }

/-- `expand_bucket++`: no worker is at the bucket that was migrated, for its lock is held. -/
theorem Inv.advance (h : Inv hash s) {l : Nat} (hm : s.maintenance = .cleared l) :
    Inv hash { s with
      assoc := { s.assoc with expand_bucket := (s.assoc.expand_bucket + 1) % 2 ^ 32 }, maintenance := .advanced l } := by
  have hmi := h.maintenance
  have htables := h.tables
  rw [hm] at hmi htables
  obtain ⟨hexp, hlt, hl, howner⟩ := hmi
  have hmod : (s.assoc.expand_bucket + 1) % 2 ^ 32 = s.assoc.expand_bucket + 1 :=
    Nat.mod_eq_of_lt (by have := hashsize_lt_two_pow h.power.2; omega)
  refine {
    tables := htables.advance (by have := hashsize_lt_two_pow h.power.2; omega)
    power := h.power
    workers := fun t => (h.workers t).mono (fun _ => id) (fun _ => Or.inl hexp) id (fun c p hh hc => ?_) fun _ _ _ => id
    maintenance := ⟨hexp, by rw [hmod]; exact hlt, howner⟩ }
  cases p with
  | primary b =>
      refine ⟨hc.1, fun he => ?_⟩
      have := hc.2 he
      simp only [hmod]
      exact Nat.lt_succ_of_lt this
  | old b =>
      refine ⟨hc.1, hexp, ?_⟩
      have hright := h.right hh hc
      have hne : b ≠ s.assoc.expand_bucket := fun he => by
        have := hright.2.2.2 he
        rw [hm] at this
        exact nomatch this
      have := hc.2.2
      simp only [hmod]
      omega

/-- The expansion ends when the last bucket is migrated; no worker is at an old bucket then. -/
theorem Inv.finish (h : Inv hash s) {l : Nat} (hm : s.maintenance = .advanced l) :
    Inv hash { s with
      assoc := { s.assoc with expanding :=
        if s.assoc.expand_bucket = hashsize (s.assoc.hashpower - 1) then false else s.assoc.expanding }
      maintenance := .unlocking l } := by
  have hmi := h.maintenance
  have htables := h.tables
  rw [hm] at hmi htables
  obtain ⟨hexp, hle, howner⟩ := hmi
  by_cases hlast : s.assoc.expand_bucket = hashsize (s.assoc.hashpower - 1)
  · rw [if_pos hlast]
    refine {
      tables := htables.finish hlast
      power := h.power
      workers := fun t => (h.workers t).mono (fun _ => id) (fun _ => Or.inr hlast) (fun _ => rfl)
        (fun c p _ hc => ?_) fun _ _ _ => id
      maintenance := ⟨(fun he => nomatch he), howner⟩ }
    cases p with
    | primary b => exact ⟨hc.1, fun he => nomatch he⟩
    | old b =>
        obtain ⟨hb, _, hge⟩ := hc
        have hlt : s.assoc.old_bucket (hash c.key) < hashsize (s.assoc.hashpower - 1) := and_hashmask_lt _ _
        omega
  · rw [if_neg hlast]
    exact {
      tables := htables
      power := h.power
      workers := fun t => h.workers t
      maintenance := ⟨fun _ => by simp only; omega, howner⟩ }

theorem Inv.item_trylock_unlock (h : Inv hash s) {l : Nat} (hm : s.maintenance = .unlocking l) :
    Inv hash { s.setLock l none with maintenance := .running } := by
  have hmi := h.maintenance
  have htables := h.tables
  rw [hm] at hmi htables
  obtain ⟨hlt, howner⟩ := hmi
  have hkeep : ∀ (t l' : Nat), s.item_locks l' = some (.worker t) →
      (s.setLock l none).item_locks l' = some (.worker t) := by
    intro t l' hl'
    have hne : l' ≠ l := by rintro rfl; rw [howner] at hl'; exact nomatch hl'
    exact (Function.update_of_ne hne ..).trans hl'
  have hsteady : Steady s { s.setLock l none with maintenance := .running } := ⟨rfl, rfl, rfl, rfl⟩
  exact {
    tables := htables
    power := h.power
    workers := fun t => hsteady.worker (h.workers t) (hkeep t) fun _ _ _ => id
    maintenance := hlt }

theorem Inv.assoc_expand (h : Inv hash s) {ok : Bool} (hm : s.maintenance = .waiting)
    (hmax : (s.assoc.assoc_expand ok).hashpower ≤ HASHPOWER_MAX) (hpaused : ∀ t, s.workers t = .idle) :
    Inv hash { s with assoc := s.assoc.assoc_expand ok, maintenance := .running } := by
  have hmi := h.maintenance
  have htables := h.tables
  rw [hm] at hmi htables
  have hexp : s.assoc.expanding = false := hmi
  have hpow := h.power
  refine {
    tables := htables.assoc_expand hexp ok
    power := ?_
    workers := fun t => by simp only [hpaused t]; trivial
    maintenance := ?_ }
  · cases ok with
    | true => exact ⟨Nat.lt_succ_of_lt hpow.1, hmax⟩
    | false => exact hpow
  · intro he
    cases ok with
    | true => simp only [Assoc.assoc_expand, ↓reduceIte, hashsize_eq]; exact Nat.two_pow_pos _
    | false => exact absurd he (by simp [Assoc.assoc_expand, hexp])

/-! ## All steps -/

theorem Step.hashpower_le {e : Event} (hs : Step hash s e s') : s.assoc.hashpower ≤ s'.assoc.hashpower := by
  cases hs with
  | assoc_insert => simp [Assoc.assoc_insert]
  | assoc_delete hw hpresent hd =>
      obtain ⟨-, ha⟩ := Option.ite_none_right_eq_some.mp hd
      obtain rfl := Option.some.inj ha
      simp
  | relink => simp [Assoc.relink]
  | clear => simp
  | @assoc_expand ok =>
      cases ok with
      | true => exact Nat.le_succ _
      | false => exact Nat.le_refl _
  | assoc_start_expand =>
      unfold Assoc.assoc_start_expand
      split_ifs <;> exact Nat.le_refl _
  | _ => exact Nat.le_refl _

theorem Inv.step (h : Inv hash s) {e : Event} (hs : Step hash s e s') (hmax : s'.assoc.hashpower ≤ HASHPOWER_MAX) :
    Inv hash s' := by
  cases hs with
  | @item_lock t c hidle hfree =>
      refine (h.take_lock hfree (.worker t)).setWorker ?_
      exact Function.update_self ..
  | @read_expanding t c hw =>
      have hwi := h.workers t
      rw [hw] at hwi
      refine h.setWorker ⟨hwi, ?_⟩
      cases he : s.assoc.expanding with
      | true => exact Or.inl rfl
      | false => rfl
  | @choose t c e hw =>
      have hwi := h.workers t
      rw [hw] at hwi
      obtain ⟨hh, he⟩ := hwi
      refine h.setWorker ⟨hh, ?_⟩
      unfold Assoc.place
      split
      · rename_i hc
        rw [if_pos hc.1] at he
        have hlt : s.assoc.old_bucket (hash c.key) < hashsize (s.assoc.hashpower - 1) := and_hashmask_lt _ _
        have hge := hc.2
        exact ⟨rfl, he.resolve_right (by omega), hge⟩
      · rename_i hc
        refine ⟨rfl, fun hexp => ?_⟩
        cases e with
        | true =>
            have hlt : ¬ s.assoc.old_bucket (hash c.key) ≥ s.assoc.expand_bucket := fun hge => hc ⟨rfl, hge⟩
            omega
        | false => rw [if_neg (by decide), hexp] at he; exact nomatch he
  | @assoc_find t key p hw =>
      have hwi := h.workers t
      rw [hw] at hwi
      exact h.setWorker ⟨hwi.1, h.tables.assoc_find (h.right hwi.1 hwi.2)⟩
  | @assoc_insert t it p hw habsent =>
      have hwi := h.workers t
      rw [hw] at hwi
      exact h.operate (c := .insert it) hwi.1 (h.tables.assoc_insert (h.right hwi.1 hwi.2) habsent)
        (Function.update_self ..)
  | @assoc_delete t key p a hw hpresent hd =>
      have hwi := h.workers t
      rw [hw] at hwi
      obtain ⟨a', ha', htables, l, rfl⟩ := h.tables.assoc_delete (h.right hwi.1 hwi.2) hpresent
      obtain rfl := Option.some.inj (hd.symm.trans ha')
      exact h.operate (c := .delete key) hwi.1 htables (Function.update_self ..)
  | @assert_failed t key p hw hpresent hd =>
      have hwi := h.workers t
      rw [hw] at hwi
      obtain ⟨a', ha', _⟩ := h.tables.assoc_delete (h.right hwi.1 hwi.2) hpresent
      exact nomatch hd.symm.trans ha'
  | @item_unlock t c r hw =>
      have hwi := h.workers t
      rw [hw] at hwi
      exact h.item_unlock hwi.1
  | item_trylock hm he hfree =>
      have hlock := h.take_lock hfree .maintenance
      have htables := hlock.tables
      have hmi := hlock.maintenance
      simp only [setLock, hm] at htables hmi
      exact {
        tables := htables.start
        power := hlock.power
        workers := hlock.workers
        maintenance := ⟨he, hmi he, rfl, Function.update_self ..⟩ }
  | item_trylock_failed => exact h
  | @relink l it next hm =>
      have hmi := h.maintenance
      have htables := h.tables
      rw [hm] at hmi htables
      exact h.maintain (m := .relinking l next) (htables.relink hmi.1) hmi
  | @clear l hm =>
      have hmi := h.maintenance
      have htables := h.tables
      rw [hm] at hmi htables
      exact h.maintain (m := .cleared l) htables.clear hmi
  | advance hm => exact h.advance hm
  | finish hm => exact h.finish hm
  | item_trylock_unlock hm => exact h.item_trylock_unlock hm
  | wait hm he =>
      have htables := h.tables
      rw [hm] at htables
      exact {
        tables := htables.congr (fun p => by cases p <;> rfl) rfl id fun _ => Nat.le_refl _
        power := h.power
        workers := h.workers
        maintenance := he }
  | assoc_expand hm hpaused => exact h.assoc_expand hm hmax hpaused
  | @assoc_start_expand n =>
      obtain ⟨b, hb⟩ : ∃ b, s.assoc.assoc_start_expand n = { s.assoc with started_expanding := b } := by
        unfold Assoc.assoc_start_expand
        split_ifs
        · exact ⟨s.assoc.started_expanding, rfl⟩
        · exact ⟨true, rfl⟩
        · exact ⟨s.assoc.started_expanding, rfl⟩
      rw [hb]
      have hsteady : Steady s { s with assoc := { s.assoc with started_expanding := b } } := ⟨rfl, rfl, rfl, rfl⟩
      exact {
        tables := h.tables.congr (fun p => by cases p <;> rfl) rfl id fun _ => Nat.le_refl _
        power := h.power
        workers := fun t => hsteady.worker (h.workers t) (fun _ => id) fun _ _ _ => id
        maintenance := hsteady.maintenance h.maintenance fun _ => id }

end Memcached.SlabsCurd.System

import Mathlib
import Memcached.SlabsCurd.Assoc

/-!
# Both tables together

`live` is the chain that counts at a place: the old buckets from `expand_bucket` on, and all primary buckets.
While bucket `expand_bucket` is migrated (`cur`), what counts there is the rest of the chain the maintenance thread
still has in hand. `Tables` says that the live chains hold each item of the map once, where it is looked up.
-/

namespace Memcached.SlabsCurd

/-! ## Masks -/

theorem and_hashmask (x n : Nat) : x &&& hashmask n = x % 2 ^ n := by
  rw [hashmask, hashsize, Nat.shiftLeft_eq, Nat.one_mul, Nat.and_two_pow_sub_one_eq_mod]

theorem and_hashmask_lt (x n : Nat) : x &&& hashmask n < hashsize n := by
  rw [and_hashmask, hashsize, Nat.shiftLeft_eq, Nat.one_mul]
  exact Nat.mod_lt _ (Nat.two_pow_pos n)

/-- A lower mask sees no difference between a hash value and its bucket. -/
theorem and_hashmask_and_hashmask (x : Nat) {m n : Nat} (h : m ≤ n) : (x &&& hashmask n) &&& hashmask m = x &&& hashmask m := by
  simp only [and_hashmask]
  exact Nat.mod_mod_of_dvd x (Nat.pow_dvd_pow 2 h)

theorem hashsize_eq (n : Nat) : hashsize n = 2 ^ n := by
  rw [hashsize, Nat.shiftLeft_eq, Nat.one_mul]

theorem hashsize_lt_two_pow {n : Nat} (h : n ≤ HASHPOWER_MAX) : hashsize (n - 1) < 2 ^ 32 := by
  unfold HASHPOWER_MAX at h
  rw [hashsize_eq]
  exact Nat.pow_lt_pow_right (by decide) (by omega)

namespace Assoc

variable {hash : Key → UInt32} {a : Assoc} {cur : Option (List Item)} {items : Key → Option Item}

/-! ## Live chains -/

def live (a : Assoc) (cur : Option (List Item)) : Place → List Item
  | .primary b => a.primary_hashtable b
  | .old b =>
      if a.expanding ∧ a.expand_bucket ≤ b then
        if b = a.expand_bucket then cur.getD (a.old_hashtable b) else a.old_hashtable b
      else []

/-- Old buckets below the frontier are empty or being emptied. -/
def frontier (a : Assoc) (cur : Option (List Item)) : Nat :=
  if cur.isSome then a.expand_bucket + 1 else a.expand_bucket

/-- An item with hash value `hv` may be at `p`. -/
def MayHold (a : Assoc) (hv : UInt32) : Place → Prop
  | .primary b => b = a.new_bucket hv
  | .old b => b = a.old_bucket hv

/-- `p` is where the items with hash value `hv` are, and the maintenance thread is not at it. -/
def Right (a : Assoc) (cur : Option (List Item)) (hv : UInt32) : Place → Prop
  | .primary b => b = a.new_bucket hv ∧ (a.expanding = true → a.old_bucket hv < a.expand_bucket)
  | .old b => b = a.old_bucket hv ∧ a.expanding = true ∧ a.expand_bucket ≤ b ∧ (b = a.expand_bucket → cur = none)

structure Tables (hash : Key → UInt32) (a : Assoc) (cur : Option (List Item)) (items : Key → Option Item) : Prop where
  located : ∀ p it, it ∈ a.live cur p → a.MayHold (hash it.key) p
  migrated : ∀ b it, a.expanding = true → it ∈ a.primary_hashtable b → a.old_bucket (hash it.key) < a.frontier cur
  keyed : ∀ key it, items key = some it → it.key = key
  count : ∀ it : Item, (a.live cur (.primary (a.new_bucket (hash it.key)))).count it +
    (a.live cur (.old (a.old_bucket (hash it.key)))).count it = if items it.key = some it then 1 else 0

theorem Tables.of_mem (h : Tables hash a cur items) {p : Place} {it : Item} (hm : it ∈ a.live cur p) :
    items it.key = some it := by
  have hp := h.located p it hm
  have hpos := List.count_pos_iff.mpr hm
  have hc := h.count it
  cases p with
  | primary b =>
      cases hp
      split at hc
      · assumption
      · omega
  | old b =>
      cases hp
      split at hc
      · assumption
      · omega

theorem Tables.count_le_one (h : Tables hash a cur items) (p : Place) (it : Item) : (a.live cur p).count it ≤ 1 := by
  by_cases hm : it ∈ a.live cur p
  · have hp := h.located p it hm
    have hc := h.count it
    rw [if_pos (h.of_mem hm)] at hc
    cases p with
    | primary b => cases hp; omega
    | old b => cases hp; omega
  · rw [List.count_eq_zero.mpr hm]; omega

theorem Tables.once (h : Tables hash a cur items) {p q : Place} {i j : Nat} {it : Item}
    (hi : (a.live cur p)[i]? = some it) (hj : (a.live cur q)[j]? = some it) : p = q ∧ i = j := by
  have hmp := List.mem_of_getElem? hi
  have hmq := List.mem_of_getElem? hj
  have hcp := List.count_pos_iff.mpr hmp
  have hcq := List.count_pos_iff.mpr hmq
  have hc := h.count it
  rw [if_pos (h.of_mem hmp)] at hc
  have hp := h.located p it hmp
  have hq := h.located q it hmq
  have hpq : p = q := by
    cases p <;> cases q <;> cases hp <;> cases hq <;> first | rfl | omega
  subst hpq
  have hnd : (a.live cur p).Nodup := List.nodup_iff_count_le_one.mpr (h.count_le_one p)
  exact ⟨rfl, (List.getElem?_inj (List.getElem?_eq_some_iff.mp hi).1 hnd).mp (hi.trans hj.symm)⟩

theorem Tables.mem_right (h : Tables hash a cur items) {p : Place} {it : Item}
    (hp : a.Right cur (hash it.key) p) : items it.key = some it ↔ it ∈ a.live cur p := by
  refine ⟨fun hit => ?_, h.of_mem⟩
  have hc := h.count it
  rw [if_pos hit] at hc
  cases p with
  | primary b =>
      obtain ⟨rfl, hlow⟩ := hp
      have hold : a.live cur (.old (a.old_bucket (hash it.key))) = [] := by
        refine if_neg fun hexp => ?_
        have := hlow hexp.1
        omega
      rw [hold, List.count_nil] at hc
      exact List.count_pos_iff.mp (by omega)
  | old b =>
      obtain ⟨rfl, hexp, hge, hcur⟩ := hp
      have hprim : it ∉ a.live cur (.primary (a.new_bucket (hash it.key))) := by
        intro hm
        have hlt := h.migrated _ it hexp hm
        unfold frontier at hlt
        cases cur with
        | none => simp at hlt; omega
        | some l =>
            have := hcur
            simp at hlt this
            omega
      rw [List.count_eq_zero.mpr hprim] at hc
      exact List.count_pos_iff.mp (by omega)

theorem Right.chain {hv : UInt32} {p : Place} (hp : a.Right cur hv p) : a.live cur p = a.chain p := by
  cases p with
  | primary b => rfl
  | old b =>
      obtain ⟨_, hexp, hge, hcur⟩ := hp
      simp only [live, hexp, hge, and_self, ↓reduceIte]
      split
      · rename_i hb; rw [hcur hb]; rfl
      · rfl

/-! ## Operations at the right place -/

theorem Tables.assoc_find (h : Tables hash a cur items) {p : Place} {key : Key} (hp : a.Right cur (hash key) p) :
    a.assoc_find p key = items key := by
  rw [Assoc.assoc_find, ← hp.chain]
  cases hf : (a.live cur p).find? fun it => it.key == key with
  | some it =>
      have hkey : it.key = key := by simpa using List.find?_some hf
      rw [← hkey, h.of_mem (List.mem_of_find?_eq_some hf)]
  | none =>
      cases hi : items key with
      | none => rfl
      | some it =>
          obtain rfl := h.keyed key it hi
          have hm := (h.mem_right hp).mp hi
          simpa using List.find?_eq_none.mp hf it hm

@[simp] theorem setChain_hashpower (a : Assoc) (p : Place) (l : List Item) :
    (a.setChain p l).hashpower = a.hashpower := by cases p <;> rfl

@[simp] theorem setChain_expanding (a : Assoc) (p : Place) (l : List Item) :
    (a.setChain p l).expanding = a.expanding := by cases p <;> rfl

@[simp] theorem setChain_started_expanding (a : Assoc) (p : Place) (l : List Item) :
    (a.setChain p l).started_expanding = a.started_expanding := by cases p <;> rfl

@[simp] theorem setChain_expand_bucket (a : Assoc) (p : Place) (l : List Item) :
    (a.setChain p l).expand_bucket = a.expand_bucket := by cases p <;> rfl

@[simp] theorem setChain_old_bucket (a : Assoc) (p : Place) (l : List Item) (hv : UInt32) :
    (a.setChain p l).old_bucket hv = a.old_bucket hv := by simp [old_bucket]

@[simp] theorem setChain_new_bucket (a : Assoc) (p : Place) (l : List Item) (hv : UInt32) :
    (a.setChain p l).new_bucket hv = a.new_bucket hv := by simp [new_bucket]

theorem Right.setChain {hv : UInt32} {p : Place} (hp : a.Right cur hv p) (l : List Item) (q : Place) :
    (a.setChain p l).live cur q = if q = p then l else a.live cur q := by
  cases p with
  | primary b =>
      cases q with
      | primary b' => by_cases hb : b' = b <;> simp [live, Assoc.setChain, hb]
      | old b' => rw [if_neg (fun he => nomatch he)]; rfl
  | old b =>
      obtain ⟨_, hexp, hge, hcur⟩ := hp
      cases q with
      | primary b' => simp [live, Assoc.setChain]
      | old b' =>
          by_cases hb : b' = b
          · subst hb
            by_cases he : b' = a.expand_bucket
            · simp [live, Assoc.setChain, hexp, hge, hcur he]
            · simp [live, Assoc.setChain, hexp, hge, he]
          · simp [live, Assoc.setChain, hb]

/-- A new chain at the right place: what enters or leaves it enters or leaves the map. -/
theorem Tables.setChain {items' : Key → Option Item} {hv : UInt32} {p : Place} {l : List Item}
    (h : Tables hash a cur items) (hp : a.Right cur hv p) (hmem : ∀ it ∈ l, it ∈ a.live cur p ∨ hash it.key = hv)
    (hkeyed : ∀ key it, items' key = some it → it.key = key)
    (hcount : ∀ it : Item, l.count it + (if items it.key = some it then 1 else 0) =
      (a.live cur p).count it + if items' it.key = some it then 1 else 0) :
    Tables hash (a.setChain p l) cur items' where
  located := by
    intro q it hm
    have hq : a.MayHold (hash it.key) q := by
      rw [hp.setChain] at hm
      split at hm
      · rename_i hqp
        rcases hmem it hm with hold | hnew
        · rw [hqp]; exact h.located p it hold
        · rw [hqp, hnew]
          cases p <;> exact hp.1
      · exact h.located q it hm
    cases q <;> simpa [MayHold] using hq
  migrated := by
    intro b it hexp hm
    rw [setChain_expanding] at hexp
    have hlive : it ∈ (a.setChain p l).live cur (.primary b) := hm
    rw [hp.setChain] at hlive
    rw [setChain_old_bucket, frontier, setChain_expand_bucket]
    split at hlive
    · rename_i hbp
      subst hbp
      rcases hmem it hlive with hold | hnew
      · exact h.migrated b it hexp hold
      · have := hp.2 hexp
        rw [hnew]
        split <;> omega
    · exact h.migrated b it hexp hlive
  keyed := hkeyed
  count := by
    intro it
    have hc := h.count it
    have hl := hcount it
    rw [setChain_new_bucket, setChain_old_bucket, hp.setChain, hp.setChain]
    by_cases h1 : Place.primary (a.new_bucket (hash it.key)) = p
    · subst h1
      rw [if_pos rfl, if_neg (fun he => nomatch he)]
      omega
    · by_cases h2 : Place.old (a.old_bucket (hash it.key)) = p
      · subst h2
        rw [if_neg h1, if_pos rfl]
        omega
      · rw [if_neg h1, if_neg h2, hc]
        have hnot : it ∉ a.live cur p := by
          intro hm
          have hpl := h.located p it hm
          cases p with
          | primary b => exact h1 (by rw [show b = a.new_bucket (hash it.key) from hpl])
          | old b => exact h2 (by rw [show b = a.old_bucket (hash it.key) from hpl])
        have hnot' : it ∉ l := by
          intro hm
          rcases hmem it hm with hold | hnew
          · exact hnot hold
          · cases p with
            | primary b => exact h1 (by rw [hnew]; exact congrArg _ hp.1.symm)
            | old b => exact h2 (by rw [hnew]; exact congrArg _ hp.1.symm)
        rw [List.count_eq_zero.mpr hnot, List.count_eq_zero.mpr hnot'] at hl
        omega

theorem Tables.assoc_insert (h : Tables hash a cur items) {p : Place} {it : Item}
    (hp : a.Right cur (hash it.key) p) (habsent : items it.key = none) :
    Tables hash (a.assoc_insert p it) cur (Function.update items it.key (some it)) := by
  refine h.setChain hp (fun x hx => ?_) (fun key x hx => ?_) fun x => ?_
  · rcases List.mem_cons.mp hx with rfl | hx
    · exact Or.inr rfl
    · exact Or.inl (by rw [hp.chain]; exact hx)
  · by_cases hk : key = it.key
    · subst hk
      rw [Function.update_self, Option.some.injEq] at hx
      rw [hx]
    · rw [Function.update_of_ne hk] at hx
      exact h.keyed key x hx
  · rw [hp.chain, List.count_cons]
    by_cases hk : x.key = it.key
    · rw [hk, Function.update_self, habsent]
      by_cases hx : it = x
      · subst hx; simp
      · simp [hx]
    · rw [Function.update_of_ne hk]
      have hx : it ≠ x := fun he => hk (by rw [he])
      simp [hx]

theorem Tables.assoc_delete (h : Tables hash a cur items) {p : Place} {key : Key}
    (hp : a.Right cur (hash key) p) (hpresent : items key ≠ none) :
    ∃ a', a.assoc_delete p key = some a' ∧ Tables hash a' cur (Function.update items key none) ∧
      ∃ l, a' = a.setChain p l := by
  obtain ⟨it, hit⟩ := Option.ne_none_iff_exists'.mp hpresent
  obtain rfl := h.keyed key it hit
  have hm := (h.mem_right hp).mp hit
  have hany : (a.chain p).any (fun x => x.key == it.key) = true := by
    rw [← hp.chain]
    exact List.any_eq_true.mpr ⟨it, hm, by simp⟩
  refine ⟨_, if_pos hany, ?_, _, rfl⟩
  have hex : ∃ x ∈ a.chain p, (x.key == it.key) = true := List.any_eq_true.mp hany
  obtain ⟨x, hx, hxk⟩ := hex
  obtain ⟨y, l1, l2, _, hy, hsplit, herase⟩ := List.exists_of_eraseP (p := fun z => z.key == it.key) hx hxk
  have hyit : y = it := by
    have hym : y ∈ a.live cur p := by rw [hp.chain, hsplit]; simp
    have hyi := h.of_mem hym
    rw [eq_of_beq hy, hit, Option.some.injEq] at hyi
    exact hyi.symm
  subst hyit
  refine h.setChain hp (fun z hz => Or.inl ?_) (fun key z hz => ?_) fun z => ?_
  · rw [hp.chain]; exact List.mem_of_mem_eraseP hz
  · by_cases hk : key = y.key
    · subst hk; rw [Function.update_self] at hz; exact nomatch hz
    · rw [Function.update_of_ne hk] at hz; exact h.keyed key z hz
  · rw [herase, hp.chain, hsplit, List.count_append, List.count_append, List.count_cons]
    by_cases hk : z.key = y.key
    · rw [hk, Function.update_self, hit]
      by_cases hz : y = z
      · subst hz; simp; omega
      · simp [hz]
    · rw [Function.update_of_ne hk]
      have hz : y ≠ z := fun he => hk (by rw [he])
      simp [hz]

/-! ## Migration -/

theorem Tables.congr {b : Assoc} {cur' : Option (List Item)} (h : Tables hash a cur items)
    (hlive : ∀ p, b.live cur' p = a.live cur p) (hpow : b.hashpower = a.hashpower)
    (hexp : b.expanding = true → a.expanding = true) (hfront : b.expanding = true → a.frontier cur ≤ b.frontier cur') :
    Tables hash b cur' items where
  located := by
    intro p it hm
    rw [hlive] at hm
    have hp := h.located p it hm
    cases p <;> simpa [MayHold, new_bucket, old_bucket, hpow] using hp
  migrated := by
    intro p it he hm
    have hprim : it ∈ a.primary_hashtable p := by
      have hl := hlive (.primary p)
      simp only [live] at hl
      rw [← hl]; exact hm
    have hlt := h.migrated p it (hexp he) hprim
    have hle := hfront he
    simp only [old_bucket, hpow] at hlt ⊢
    omega
  keyed := h.keyed
  count := by
    intro it
    have hc := h.count it
    simp only [hlive, new_bucket, old_bucket, hpow] at hc ⊢
    exact hc

theorem Tables.start (h : Tables hash a none items) : Tables hash a (some (a.old_hashtable a.expand_bucket)) items := by
  refine h.congr (fun p => ?_) rfl id fun _ => by simp [frontier]
  cases p with
  | primary b => rfl
  | old b =>
      simp only [live, Option.getD_some, Option.getD_none]
      split
      · split
        · rename_i hb; rw [hb]
        · rfl
      · rfl

theorem Tables.relink {it : Item} {next : List Item} (h : Tables hash a (some (it :: next)) items)
    (hexp : a.expanding = true) : Tables hash (a.relink hash it) (some next) items := by
  have hcur : it ∈ a.live (some (it :: next)) (.old a.expand_bucket) := by simp [live, hexp]
  have hbucket : a.expand_bucket = a.old_bucket (hash it.key) := h.located _ it hcur
  have hlive : ∀ p, (a.relink hash it).live (some next) p =
      if p = .primary (a.new_bucket (hash it.key)) then it :: a.primary_hashtable (a.new_bucket (hash it.key))
      else if p = .old a.expand_bucket then next else a.live (some (it :: next)) p := by
    intro p
    cases p with
    | primary b => by_cases hb : b = a.new_bucket (hash it.key) <;> simp [live, Assoc.relink, Assoc.setChain, hb]
    | old b => by_cases hb : b = a.expand_bucket <;> simp [live, Assoc.relink, Assoc.setChain, hb, hexp]
  have hold : a.live (some (it :: next)) (.old a.expand_bucket) = it :: next := by simp [live, hexp]
  exact {
    located := by
      intro p x hm
      have hp : a.MayHold (hash x.key) p := by
        rw [hlive] at hm
        split at hm
        · rename_i hpp
          subst hpp
          rcases List.mem_cons.mp hm with rfl | hm
          · rfl
          · exact h.located _ x hm
        · split at hm
          · rename_i hpo
            subst hpo
            exact h.located _ x (by rw [hold]; exact List.mem_cons_of_mem _ hm)
          · exact h.located p x hm
      cases p <;> simpa [MayHold, Assoc.relink] using hp
    migrated := by
      intro b x he hm
      have hx : x ∈ (a.relink hash it).live (some next) (.primary b) := hm
      rw [hlive] at hx
      have hlt : a.old_bucket (hash x.key) < a.frontier (some (it :: next)) := by
        split at hx
        · rcases List.mem_cons.mp hx with rfl | hx
          · rw [← hbucket]; simp [frontier]
          · exact h.migrated _ x hexp hx
        · rw [if_neg (fun he => nomatch he)] at hx
          exact h.migrated b x hexp hx
      simpa [frontier, Assoc.relink] using hlt
    keyed := h.keyed
    count := by
      intro x
      have hc := h.count x
      simp only [Assoc.relink, setChain_new_bucket, setChain_old_bucket] at hlive ⊢
      rw [hlive, hlive, if_neg (fun he : Place.old _ = Place.primary _ => nomatch he)]
      by_cases hx : x = it
      · subst hx
        rw [← hbucket, hold, List.count_cons_self] at hc
        rw [if_pos rfl, ← hbucket, if_pos rfl, List.count_cons_self]
        simp only [live] at hc
        omega
      · have hxi : it ≠ x := Ne.symm hx
        have h1 : ((if Place.primary (a.new_bucket (hash x.key)) = .primary (a.new_bucket (hash it.key))
            then it :: a.primary_hashtable (a.new_bucket (hash it.key))
            else if Place.primary (a.new_bucket (hash x.key)) = .old a.expand_bucket then next
            else a.live (some (it :: next)) (.primary (a.new_bucket (hash x.key)))) : List Item).count x =
            (a.live (some (it :: next)) (.primary (a.new_bucket (hash x.key)))).count x := by
          split
          · rename_i hb
            rw [Place.primary.injEq] at hb
            rw [List.count_cons_of_ne hxi, hb]
            rfl
          · rw [if_neg (fun he => nomatch he)]
        have h2 : ((if Place.old (a.old_bucket (hash x.key)) = .old a.expand_bucket then next
            else a.live (some (it :: next)) (.old (a.old_bucket (hash x.key)))) : List Item).count x =
            (a.live (some (it :: next)) (.old (a.old_bucket (hash x.key)))).count x := by
          split
          · rename_i hb
            rw [hb, hold, List.count_cons_of_ne hxi]
          · rfl
        rw [h1, h2]
        exact hc }

theorem Tables.clear (h : Tables hash a (some []) items) :
    Tables hash (a.setChain (.old a.expand_bucket) []) (some []) items := by
  refine h.congr (fun p => ?_) (by simp) (by simp) fun _ => by simp [frontier]
  cases p with
  | primary b => rfl
  | old b => by_cases hb : b = a.expand_bucket <;> simp [live, Assoc.setChain, hb]

theorem Tables.advance (h : Tables hash a (some []) items) (hlt : a.expand_bucket + 1 < 2 ^ 32) :
    Tables hash { a with expand_bucket := (a.expand_bucket + 1) % 2 ^ 32 } none items := by
  rw [Nat.mod_eq_of_lt hlt]
  refine h.congr (fun p => ?_) rfl id fun _ => by simp [frontier]
  cases p with
  | primary b => rfl
  | old b =>
      simp only [live, Option.getD_some, Option.getD_none]
      by_cases hexp : a.expanding = true
      · rcases Nat.lt_trichotomy b a.expand_bucket with hb | hb | hb
        · rw [if_neg (by omega), if_neg (by omega)]
        · rw [if_neg (by omega), if_pos ⟨hexp, by omega⟩, if_pos hb]
        · have hle : a.expand_bucket + 1 ≤ b := hb
          simp [hexp, hle, Nat.le_of_lt hb, Nat.ne_of_gt hb]
      · rw [if_neg (fun hc => hexp hc.1), if_neg (fun hc => hexp hc.1)]

theorem Tables.finish (h : Tables hash a none items) (hlast : a.expand_bucket = hashsize (a.hashpower - 1)) :
    Tables hash { a with expanding := false } none items := by
  refine h.congr (fun p => ?_) rfl (fun he => nomatch he) fun he => nomatch he
  cases p with
  | primary b => rfl
  | old b =>
      have hempty : a.live none (.old b) = [] := by
        rw [List.eq_nil_iff_forall_not_mem]
        intro it hm
        have hb : b = a.old_bucket (hash it.key) := h.located _ it hm
        have hlt : a.old_bucket (hash it.key) < hashsize (a.hashpower - 1) := and_hashmask_lt _ _
        rw [live] at hm
        split at hm
        · omega
        · exact List.not_mem_nil hm
      rw [hempty]
      simp [live]

theorem Tables.assoc_expand (h : Tables hash a none items) (hidle : a.expanding = false) (ok : Bool) :
    Tables hash (a.assoc_expand ok) none items := by
  have hold : ∀ b, a.live none (.old b) = [] := by simp [live, hidle]
  cases ok with
  | false => exact h.congr (fun p => by cases p <;> simp [live, Assoc.assoc_expand, hidle]) rfl id fun _ => Nat.le_refl _
  | true =>
      exact {
        located := by
          intro p it hm
          cases p with
          | primary b => exact absurd hm List.not_mem_nil
          | old b =>
              have hm : it ∈ a.live none (.primary b) := by
                simp only [live, Assoc.assoc_expand, ↓reduceIte, Nat.zero_le, and_self, Option.getD_none, ite_self] at hm
                exact hm
              exact h.located _ it hm
        migrated := fun b it _ hm => absurd hm List.not_mem_nil
        keyed := h.keyed
        count := by
          intro it
          have hc := h.count it
          rw [hold, List.count_nil] at hc
          simp only [live, Assoc.assoc_expand, ↓reduceIte, Nat.zero_le, and_self, Option.getD_none, ite_self,
            List.count_nil, old_bucket, Nat.add_one_sub_one]
          simp only [live, new_bucket] at hc
          omega }

theorem tables_assoc_init (n : Nat) : Tables hash (assoc_init n) none fun _ => none where
  located := by intro p it hm; cases p <;> simp [live, assoc_init] at hm
  migrated := fun _ _ he => nomatch he
  keyed := fun _ _ hi => nomatch hi
  count := by simp [live, assoc_init]

end Assoc

end Memcached.SlabsCurd

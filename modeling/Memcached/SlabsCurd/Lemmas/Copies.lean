import Memcached.Lib.Run
import Memcached.SlabsCurd.StoreItem

/-!
# Copies into chunks

A chain is filled from its front: only its last chunk has room. A copy appends to what is in it.
-/

namespace Memcached.SlabsCurd

open MemoryLru Transition

/-- The bytes in a chain. -/
def content (chain : List ItemChunk) : List UInt8 := chain.flatMap (·.data)

@[simp] theorem content_append {xs ys : List ItemChunk} : content (xs ++ ys) = content xs ++ content ys := List.flatMap_append

@[simp] theorem content_cons {ch : ItemChunk} {chain : List ItemChunk} : content (ch :: chain) = ch.data ++ content chain :=
  List.flatMap_cons

@[simp] theorem content_nil : content [] = [] := rfl

/-- All chunks but the last are full. -/
def Packed (chain : List ItemChunk) : Prop :=
  ∃ before last, chain = before ++ [last] ∧ (∀ ch ∈ before, ch.full) ∧ last.used ≤ last.size

namespace Filling

structure Packed (d : Filling) : Prop where
  before : ∀ ch ∈ d.before, ch.full
  fits : d.dch.used ≤ d.dch.size
  next : d.next = []

theorem Packed.chain {d : Filling} (h : d.Packed) : SlabsCurd.Packed d.chain :=
  ⟨d.before, d.dch, by rw [Filling.chain, h.next], h.before, h.fits⟩

variable {d d' : Filling} {before rest : List ItemChunk} {dch : ItemChunk}

theorem advance_chain : (advance before dch rest).chain = before ++ dch :: rest := by
  induction rest generalizing before dch with
  | nil => rfl
  | cons next rest ih =>
      unfold advance
      split
      · rw [ih, List.append_assoc]
        rfl
      · rfl

theorem advance_packed (hbefore : ∀ ch ∈ before, ch.full) (h : SlabsCurd.Packed (dch :: rest)) :
    (advance before dch rest).Packed := by
  induction rest generalizing before dch with
  | nil =>
      obtain ⟨before', last, hchain, -, hlast⟩ := h
      have hone : ([] : List ItemChunk) ++ [dch] = before' ++ [last] := hchain
      obtain rfl : dch = last := by simpa using (List.append_inj' hone rfl).2
      exact ⟨hbefore, hlast, rfl⟩
  | cons next rest ih =>
      obtain ⟨before', last, hchain, hfull, hlast⟩ := h
      cases before' with
      | nil => simp at hchain
      | cons ch before' =>
          obtain ⟨rfl, hrest⟩ := List.cons_eq_cons.mp hchain
          have hdch : dch.full := hfull dch List.mem_cons_self
          unfold advance
          rw [if_pos hdch]
          refine ih (fun ch hch => ?_) ⟨before', last, hrest, fun ch hch => hfull ch (List.mem_cons_of_mem _ hch), hlast⟩
          rcases List.mem_append.mp hch with hch | hch
          · exact hbefore ch hch
          · rw [List.mem_singleton.mp hch]
            exact hdch

/-- `bytes` that fit come at the end. -/
theorem Packed.put {bytes : List UInt8} (h : d.Packed) (hbytes : bytes.length ≤ d.dch.room) :
    (d.put bytes).Packed ∧ content (d.put bytes).chain = content d.chain ++ bytes := by
  have hfits := h.fits
  refine ⟨⟨h.before, ?_, h.next⟩, ?_⟩
  · simp only [Filling.put, ItemChunk.used, ItemChunk.room, List.length_append] at *
    omega
  · simp [Filling.chain, Filling.put, h.next]

section
variable {σ : Type} {alloc : σ → Nat → Option (σ × Option Nat)} {s s' : σ} {remain fuel copied : Nat} {ok : Bool}

theorem Packed.grow (h : d.Packed) (hgrow : d.grow alloc s remain = some (s', d', ok)) :
    d'.Packed ∧ content d'.chain = content d.chain := by
  unfold Filling.grow at hgrow
  split at hgrow
  · next hfull =>
    obtain ⟨⟨s₁, tch⟩, -, hgrow⟩ := Option.bind_eq_some_iff.mp hgrow
    cases tch with
    | none =>
        cases hgrow
        exact ⟨h, rfl⟩
    | some size =>
        cases hgrow
        refine ⟨⟨fun ch hch => ?_, Nat.zero_le _, rfl⟩, by simp [Filling.chain, h.next]⟩
        rcases List.mem_append.mp hch with hch | hch
        · exact h.before ch hch
        · rw [List.mem_singleton.mp hch]
          exact hfull
  · cases hgrow
    exact ⟨h, rfl⟩

/-- Of the bytes `src` the first `n` are copied: all `remain`, if `ok`. -/
structure Copied (d : Filling) (src : List UInt8) (remain : Nat) (d' : Filling) (ok : Bool) : Prop where
  packed : d'.Packed
  content : ∃ n ≤ remain, content d'.chain = content d.chain ++ src.take n ∧ (ok = true → n = remain ∧ remain ≤ src.length)

/-- `todo` bytes of `src` are put, and the copy goes on. -/
theorem Copied.after {d₁ : Filling} {src : List UInt8} {todo : Nat} (hremain : todo ≤ remain) (hsrc : todo ≤ src.length)
    (hcontent : SlabsCurd.content d₁.chain = SlabsCurd.content d.chain ++ src.take todo)
    (h : Copied d₁ (src.drop todo) (remain - todo) d' ok) : Copied d src remain d' ok := by
  obtain ⟨hpacked, n, hn, hall, hok⟩ := h
  refine ⟨hpacked, todo + n, by omega, ?_, fun h => ?_⟩
  · rw [hall, hcontent, List.append_assoc, List.take_add]
  · obtain ⟨rfl, hle⟩ := hok h
    rw [List.length_drop] at hle
    omega

theorem copy_chunks_copied {sch : List ItemChunk} (h : d.Packed) (hcopied : ∀ ch ∈ sch.head?, copied ≤ ch.used)
    (hcopy : d.copy_chunks alloc fuel s sch copied remain = some (s', d', ok)) :
    Copied d ((SlabsCurd.content sch).drop copied) remain d' ok := by
  induction fuel generalizing s d sch copied remain with
  | zero => cases hcopy
  | succ fuel ih =>
      have hdone (hremain : remain = 0) (hcopy : some (s, d, true) = some (s', d', ok)) (src : List UInt8) :
          Copied d src remain d' ok := by
        cases hcopy
        exact ⟨h, 0, Nat.zero_le _, by simp, fun _ => ⟨hremain.symm, by omega⟩⟩
      cases sch with
      | nil =>
          obtain ⟨hremain, hcopy⟩ := Option.ite_none_right_eq_some.mp hcopy
          exact hdone hremain hcopy _
      | cons ch rest =>
          rw [copy_chunks] at hcopy
          split at hcopy
          · next hremain => exact hdone hremain hcopy _
          split at hcopy
          · cases hcopy
          obtain ⟨⟨s₁, d₁, ok₁⟩, hgrow, hcopy⟩ := Option.bind_eq_some_iff.mp hcopy
          dsimp only at hcopy
          have hle : copied ≤ ch.used := hcopied ch (by simp)
          generalize htodo : min (min d.dch.room (ch.used - copied)) remain = todo at hgrow hcopy
          have hsrc : (SlabsCurd.content (ch :: rest)).drop copied = ch.data.drop copied ++ SlabsCurd.content rest := by
            rw [content_cons, List.drop_append_of_le_length hle]
          have hroom : todo ≤ (ch.data.drop copied).length := by
            rw [List.length_drop, ← ItemChunk.used]
            omega
          have htake : ((SlabsCurd.content (ch :: rest)).drop copied).take todo = (ch.data.drop copied).take todo := by
            rw [hsrc, List.take_append_of_le_length hroom]
          have hfits : ((ch.data.drop copied).take todo).length ≤ d.dch.room := by
            rw [List.length_take]
            omega
          obtain ⟨hput, hcontent⟩ := h.put hfits
          obtain ⟨hgrown, hsame⟩ := hput.grow hgrow
          rw [hcontent, ← htake] at hsame
          have hleft : todo ≤ ((SlabsCurd.content (ch :: rest)).drop copied).length := by
            rw [hsrc, List.length_append]
            omega
          refine Copied.after (by omega) hleft hsame ?_
          rw [List.drop_drop]
          split at hcopy
          · cases hcopy
            exact ⟨hgrown, 0, Nat.zero_le _, by simp, fun hok => by cases hok⟩
          split at hcopy
          · next hend =>
            have hnext := ih hgrown (fun _ _ => Nat.zero_le _) hcopy
            have hrest : (SlabsCurd.content (ch :: rest)).drop (copied + todo) = (SlabsCurd.content rest).drop 0 := by
              rw [content_cons, hend, ItemChunk.used, List.drop_left, List.drop_zero]
            rw [hrest]
            exact hnext
          · exact ih hgrown (fun c hc => by cases hc; omega) hcopy

theorem copy_data_copied {left : List UInt8} (h : d.Packed) (hcopy : d.copy_data alloc fuel s left = some (s', d', ok)) :
    Copied d left left.length d' ok := by
  induction fuel generalizing s d left with
  | zero => cases hcopy
  | succ fuel ih =>
      rw [copy_data] at hcopy
      split at hcopy
      · next hnil =>
        cases hcopy
        exact ⟨h, 0, Nat.zero_le _, by simp, fun _ => by simp [hnil]⟩
      split at hcopy
      · cases hcopy
      obtain ⟨⟨s₁, d₁, ok₁⟩, hgrow, hcopy⟩ := Option.bind_eq_some_iff.mp hcopy
      dsimp only at hcopy
      generalize htodo : min d.dch.room left.length = todo at hgrow hcopy
      have hfits : (left.take todo).length ≤ d.dch.room := by
        rw [List.length_take]
        omega
      obtain ⟨hput, hcontent⟩ := h.put hfits
      obtain ⟨hgrown, hsame⟩ := hput.grow hgrow
      refine Copied.after (by omega) (by omega) (hsame.trans hcontent) ?_
      rw [← List.length_drop]
      split at hcopy
      · cases hcopy
        exact ⟨hgrown, 0, Nat.zero_le _, by simp, fun hok => by cases hok⟩
      · exact ih hgrown hcopy

/-! ## The allocations -/

/-- An allocation, by its answer. -/
def Allocates (alloc : σ → Nat → Option (σ × Option Nat)) (s : σ) (tch : Option Nat) (s' : σ) : Prop :=
  ∃ remain, alloc s remain = some (s', tch)

/-- Allocations lead from `s` to `s'`, and all is well unless one of them gave nothing. -/
def Allocated (alloc : σ → Nat → Option (σ × Option Nat)) (s s' : σ) (ok : Bool) : Prop :=
  ∃ answers, Run (Allocates alloc) s answers s' ∧ (ok = true ↔ none ∉ answers)

theorem Allocated.refl : Allocated alloc s s true := ⟨[], .nil s, by simp⟩

theorem Allocated.trans {s₁ : σ} (h : Allocated alloc s s₁ true) (h' : Allocated alloc s₁ s' ok) : Allocated alloc s s' ok := by
  obtain ⟨answers, hrun, hall⟩ := h
  obtain ⟨answers', hrun', hok⟩ := h'
  refine ⟨answers ++ answers', hrun.append hrun', hok.trans ?_⟩
  rw [List.mem_append, not_or]
  exact (and_iff_right (hall.mp rfl)).symm

theorem grow_allocated (hgrow : d.grow alloc s remain = some (s', d', ok)) : Allocated alloc s s' ok := by
  unfold Filling.grow at hgrow
  split at hgrow
  · obtain ⟨⟨s₁, tch⟩, ha, hgrow⟩ := Option.bind_eq_some_iff.mp hgrow
    refine ⟨[tch], ?_, ?_⟩
    · cases tch <;> cases hgrow <;> exact .cons ⟨_, ha⟩ (.nil _)
    · cases tch <;> cases hgrow <;> simp
  · cases hgrow
    exact .refl

theorem copy_chunks_allocated {sch : List ItemChunk}
    (hcopy : d.copy_chunks alloc fuel s sch copied remain = some (s', d', ok)) : Allocated alloc s s' ok := by
  induction fuel generalizing s d sch copied remain with
  | zero => cases hcopy
  | succ fuel ih =>
      cases sch with
      | nil =>
          obtain ⟨-, hcopy⟩ := Option.ite_none_right_eq_some.mp hcopy
          cases hcopy
          exact .refl
      | cons ch rest =>
          rw [copy_chunks] at hcopy
          split at hcopy
          · cases hcopy
            exact .refl
          split at hcopy
          · cases hcopy
          obtain ⟨⟨s₁, d₁, ok₁⟩, hgrow, hcopy⟩ := Option.bind_eq_some_iff.mp hcopy
          have hfirst := grow_allocated hgrow
          dsimp only at hcopy
          cases ok₁ with
          | false =>
              cases hcopy
              exact hfirst
          | true =>
              rw [if_neg (by decide)] at hcopy
              split at hcopy
              · exact hfirst.trans (ih hcopy)
              · exact hfirst.trans (ih hcopy)

theorem copy_data_allocated {left : List UInt8} (hcopy : d.copy_data alloc fuel s left = some (s', d', ok)) :
    Allocated alloc s s' ok := by
  induction fuel generalizing s d left with
  | zero => cases hcopy
  | succ fuel ih =>
      rw [copy_data] at hcopy
      split at hcopy
      · cases hcopy
        exact .refl
      split at hcopy
      · cases hcopy
      obtain ⟨⟨s₁, d₁, ok₁⟩, hgrow, hcopy⟩ := Option.bind_eq_some_iff.mp hcopy
      have hfirst := grow_allocated hgrow
      dsimp only at hcopy
      cases ok₁ with
      | false =>
          cases hcopy
          exact hfirst
      | true =>
          rw [if_neg (by decide)] at hcopy
          exact hfirst.trans (ih hcopy)

/-- What allocations keep, a copy keeps. -/
theorem Allocated.keeps {P : σ → Prop} (h : Allocated alloc s s' ok)
    (halloc : ∀ {s remain s' tch}, P s → alloc s remain = some (s', tch) → P s') (hs : P s) : P s' := by
  obtain ⟨answers, hrun, -⟩ := h
  refine hrun.invariant (fun hs hstep => ?_) hs
  obtain ⟨remain, ha⟩ := hstep
  exact halloc hs ha

/-! ## The loops end -/

/-- Every allocation is answered, and a chunk for some bytes has room. -/
structure Answers (alloc : σ → Nat → Option (σ × Option Nat)) : Prop where
  answered : ∀ s remain, (alloc s remain).isSome
  room : ∀ {s remain s' size}, alloc s remain = some (s', some size) → 0 < remain → 0 < size

/-- What the loops still have to do, the chunks of the source apart: a full chunk costs a round. -/
def work (d : Filling) (remain : Nat) : Nat := 2 * remain + d.dch.full.toNat

/-- Where bytes remain, the chunk has room for some of them. -/
theorem grow_room (halloc : Answers alloc) : ∃ s' d' ok, d.grow alloc s remain = some (s', d', ok) ∧
    (ok = true → d'.work remain ≤ 2 * remain + 1 ∧ (0 < remain → d'.work remain = 2 * remain)) := by
  unfold Filling.grow
  split
  · obtain ⟨⟨s', tch⟩, hs'⟩ := Option.isSome_iff_exists.mp (halloc.answered s remain)
    rw [hs']
    cases tch with
    | none => exact ⟨s', _, _, rfl, fun hok => by cases hok⟩
    | some size =>
        refine ⟨s', _, _, rfl, fun _ => ⟨Nat.add_le_add_left (Bool.toNat_le _) _, fun hremain => ?_⟩⟩
        have hsize := halloc.room hs' hremain
        simp [work, ItemChunk.full, ItemChunk.used, hsize.ne']
  · next hnot => exact ⟨s, _, _, rfl, fun _ => by simp [work, hnot]⟩

/-- A round does some of the work: it copies bytes, or fills the chunk, or ends a chunk of the source. -/
theorem Packed.round_work {d₁ : Filling} {todo avail : Nat} (h : d.Packed) (hremain : 0 < remain)
    (htodo : min (min d.dch.room avail) remain = todo)
    (hwork : d₁.work (remain - todo) ≤ 2 * (remain - todo) + 1 ∧
      (0 < remain - todo → d₁.work (remain - todo) = 2 * (remain - todo))) :
    d₁.work (remain - todo) < d.work remain ∨ avail = todo ∧ d₁.work (remain - todo) ≤ d.work remain := by
  have hfits := h.fits
  obtain ⟨hle, hroom⟩ := hwork
  have hself : 2 * remain ≤ d.work remain := Nat.le_add_right _ _
  by_cases hrest : 0 < remain - todo
  · have hroom := hroom hrest
    by_cases hnone : todo = 0
    · by_cases hfull : d.dch.room = 0
      · have hone : d.work remain = 2 * remain + 1 := by
          have hsize : d.dch.size = d.dch.used := by
            simp only [ItemChunk.room] at hfull
            omega
          simp [work, ItemChunk.full, hsize]
        omega
      · exact .inr (by omega)
    · exact .inl (by omega)
  · exact .inl (by omega)

theorem copy_chunks_total {sch : List ItemChunk} (halloc : Answers alloc) (h : d.Packed)
    (hcopied : ∀ ch ∈ sch.head?, copied ≤ ch.used) (hremain : remain ≤ ((SlabsCurd.content sch).drop copied).length)
    (hfuel : d.work remain + sch.length < fuel) : (d.copy_chunks alloc fuel s sch copied remain).isSome := by
  induction fuel generalizing s d sch copied remain with
  | zero => omega
  | succ fuel ih =>
      cases sch with
      | nil =>
          obtain rfl : remain = 0 := by simpa using hremain
          rfl
      | cons ch rest =>
          rw [copy_chunks]
          split
          · rfl
          next hsome =>
          rw [if_neg (Nat.not_lt.mpr h.fits)]
          have hle : copied ≤ ch.used := hcopied ch (by simp)
          dsimp only
          generalize htodo : min (min d.dch.room (ch.used - copied)) remain = todo
          obtain ⟨s₁, d₁, ok, hgrow, hwork⟩ :=
            @grow_room (d.put ((ch.data.drop copied).take todo)) σ alloc s (remain - todo) halloc
          have htaken : ((ch.data.drop copied).take todo).length ≤ d.dch.room := by
            rw [List.length_take]
            omega
          obtain ⟨hgrown, -⟩ := (h.put htaken).1.grow hgrow
          rw [hgrow]
          cases ok with
          | false => rfl
          | true =>
              have hsrc : (SlabsCurd.content (ch :: rest)).length = ch.used + (SlabsCurd.content rest).length := by
                rw [content_cons, List.length_append, ItemChunk.used]
              rw [List.length_drop, hsrc] at hremain
              have hround := h.round_work (Nat.pos_of_ne_zero hsome) htodo (hwork rfl)
              rw [List.length_cons] at hfuel
              simp only [Option.bind_eq_bind, Option.bind_some, Bool.not_true, Bool.false_eq_true, if_false]
              split
              · refine ih hgrown (fun _ _ => Nat.zero_le _) ?_ (by omega)
                rw [List.drop_zero]
                omega
              · refine ih hgrown (fun c hc => by cases hc; omega) ?_ (by rw [List.length_cons]; omega)
                rw [List.length_drop, hsrc]
                omega

theorem copy_data_total {left : List UInt8} (halloc : Answers alloc) (h : d.Packed) (hfuel : d.work left.length < fuel) :
    (d.copy_data alloc fuel s left).isSome := by
  induction fuel generalizing s d left with
  | zero => omega
  | succ fuel ih =>
      rw [copy_data]
      split
      · rfl
      next hsome =>
      rw [if_neg (Nat.not_lt.mpr h.fits)]
      dsimp only
      generalize htodo : min d.dch.room left.length = todo
      obtain ⟨s₁, d₁, ok, hgrow, hwork⟩ := @grow_room (d.put (left.take todo)) σ alloc s (left.length - todo) halloc
      have htaken : (left.take todo).length ≤ d.dch.room := by
        rw [List.length_take]
        omega
      obtain ⟨hgrown, -⟩ := (h.put htaken).1.grow hgrow
      rw [hgrow]
      cases ok with
      | false => rfl
      | true =>
          have hpos := List.length_pos_iff.mpr hsome
          have hself : 2 * left.length ≤ d.work left.length := Nat.le_add_right _ _
          have hlow := (hwork rfl).1
          have hround := @Packed.round_work d left.length d₁ todo left.length h hpos (by omega) (hwork rfl)
          simp only [Option.bind_eq_bind, Option.bind_some, Bool.not_true, Bool.false_eq_true, if_false]
          refine ih hgrown ?_
          rw [List.length_drop]
          omega

/-- With the rounds that `store_item_copy_chunks` gives it, a copy ends: it appends all, or what it could before an
allocation gave nothing. -/
theorem copy_chunks_appends {sch : List ItemChunk} {len : Nat} (halloc : Answers alloc) (h : d.Packed)
    (hlen : len ≤ (SlabsCurd.content sch).length) :
    ∃ s' d' ok, d.copy_chunks alloc (2 * len + sch.length + 2) s sch 0 len = some (s', d', ok) ∧
      Copied d (SlabsCurd.content sch) len d' ok ∧ Allocated alloc s s' ok := by
  have hflag : d.work len ≤ 2 * len + 1 := Nat.add_le_add_left (Bool.toNat_le _) _
  have htotal : (d.copy_chunks alloc (2 * len + sch.length + 2) s sch 0 len).isSome :=
    copy_chunks_total halloc h (fun _ _ => Nat.zero_le _) hlen (by omega)
  obtain ⟨⟨s', d', ok⟩, hcopy⟩ := Option.isSome_iff_exists.mp htotal
  exact ⟨s', d', ok, hcopy, copy_chunks_copied h (fun _ _ => Nat.zero_le _) hcopy, copy_chunks_allocated hcopy⟩

theorem copy_data_appends {left : List UInt8} (halloc : Answers alloc) (h : d.Packed) :
    ∃ s' d' ok, d.copy_data alloc (2 * left.length + 2) s left = some (s', d', ok) ∧ Copied d left left.length d' ok ∧
      Allocated alloc s s' ok := by
  have hflag : d.work left.length ≤ 2 * left.length + 1 := Nat.add_le_add_left (Bool.toNat_le _) _
  have htotal : (d.copy_data alloc (2 * left.length + 2) s left).isSome := copy_data_total halloc h (by omega)
  obtain ⟨⟨s', d', ok⟩, hcopy⟩ := Option.isSome_iff_exists.mp htotal
  exact ⟨s', d', ok, hcopy, copy_data_copied h hcopy, copy_data_allocated hcopy⟩

end

end Filling

end Memcached.SlabsCurd

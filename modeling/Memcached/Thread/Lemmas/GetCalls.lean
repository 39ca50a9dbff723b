import Memcached.Lib.Faults
import Memcached.Thread.Lemmas.Visits

/-!
# The calls of a get command

A hit makes its calls in a fixed order, and all but one are checked: the data of a plain item behind a suffix buffer is
added whatever `add_iov` returns.
-/

namespace Memcached.Thread.Get

open GetConn

/-- The calls made for a hit. -/
def hit_plan (env : Env) (return_cas : Bool) (it : GetItem) : List Bool :=
  true ::
    if with_suffix env return_cas then
      true :: ((true :: true :: if env.inline_ascii_response then [true, true] else [true]) ++ [it.hdr || it.chunked])
    else true :: true :: if it.chunked then [true, true] else [true]

/-- The items found, in order. -/
def hits (env : Env) (exptime : Option Int32) (keys : List (List UInt8)) : List GetItem :=
  keys.filterMap fun key => env.limited_get key exptime

def plan (env : Env) (return_cas : Bool) (exptime : Option Int32) (keys : List (List UInt8)) : List Bool :=
  (hits env exptime keys).flatMap (hit_plan env return_cas)

namespace GetConn

/-- What is held and given back, without the output. -/
def books (c : GetConn) : GetConn := { c with iov := [], calls := 0 }

/-- What is held for a hit. -/
def hold (c : GetConn) (env : Env) (it : GetItem) (return_cas : Bool) : GetConn :=
  { c with
    ilist := if it.hdr then c.ilist else c.ilist ++ [it]
    suffixlist := if with_suffix env return_cas then c.suffixlist ++ [c.suffix_taken.length] else c.suffixlist
    suffix_taken := if with_suffix env return_cas then c.suffix_taken.length :: c.suffix_taken else c.suffix_taken
    io_wraplist := if with_suffix env return_cas && it.hdr then it :: c.io_wraplist else c.io_wraplist }

end GetConn

section
variable {env : Env} {return_cas : Bool} {exptime : Option Int32} {it : GetItem} {c c' : GetConn}
  {key : List UInt8} {keys : List (List UInt8)}

/-! ## The plan of a hit -/

theorem call_follows : Faults.Follows env.ok calls [true] fun c => c.call env := by
  intro c
  cases h : env.ok c.calls <;> simp [Faults.run, call, h]

theorem add_iov_follows (bytes : List UInt8) : Faults.Follows env.ok calls [true] fun c => c.add_iov env bytes := by
  intro c
  cases h : env.ok c.calls <;> simp [Faults.run, add_iov, call, h]

theorem add_chunked_follows : Faults.Follows env.ok calls [true] fun c => c.add_chunked_item_iovs env it := by
  intro c
  cases h : env.ok c.calls <;> simp [Faults.run, add_chunked_item_iovs, call, h]

theorem get_suffix_follows : Faults.Follows env.ok calls [true] fun c => c._ascii_get_suffix_buf env := by
  intro c
  cases h : env.ok c.calls <;> simp [Faults.run, _ascii_get_suffix_buf, call, h]

theorem add_iovs_follows {pieces : List (List UInt8)} :
    Faults.Follows env.ok calls (pieces.map fun _ => true) (add_iovs env pieces) := by
  induction pieces with
  | nil => exact fun _ => rfl
  | cons bytes pieces ih =>
      intro c
      have h := (add_iov_follows bytes).bind ih (fun c => (rfl : calls (id c) = c.calls)) c
      rw [List.singleton_append] at h
      rw [List.map_cons, ← h, add_iovs]
      cases hok : (c.add_iov env bytes).2 <;> simp [hok]

theorem add_data_follows : Faults.Follows env.ok calls [it.hdr || it.chunked] fun c =>
    if it.hdr then if !(c._get_extstore env it).2 then ((c._get_extstore env it).1.item_remove it, false)
      else ((c._get_extstore env it).1, true)
    else if !it.chunked then ((c.add_iov env it.data).1, true)
    else if !(c.add_chunked_item_iovs env it).2 then ((c.add_chunked_item_iovs env it).1.item_remove it, false)
      else ((c.add_chunked_item_iovs env it).1, true) := by
  intro c
  cases it.hdr with
  | true =>
      cases h : env.ok c.calls <;> simp [Faults.run, _get_extstore, call, h, item_remove]
  | false =>
      cases it.chunked <;> cases h : env.ok c.calls <;>
        simp [Faults.run, add_iov, add_chunked_item_iovs, call, h, item_remove]

theorem add_with_suffix_follows : Faults.Follows env.ok calls
    (true :: ((true :: true :: if env.inline_ascii_response then [true, true] else [true]) ++ [it.hdr || it.chunked]))
    fun c => c.add_with_suffix env it return_cas := by
  have hremove (c : GetConn) : calls (c.item_remove it) = c.calls := rfl
  have hdata := @add_data_follows env it
  have hiovs := @add_iovs_follows env ([c_string "VALUE" ++ [0], it.key] ++
    (if env.inline_ascii_response then [it.suffix.take (it.suffix.length - 2)] else []) ++
    [env.make_ascii_get_suffix it return_cas])
  have hplan : (([c_string "VALUE" ++ [0], it.key] ++
      (if env.inline_ascii_response then [it.suffix.take (it.suffix.length - 2)] else []) ++
      [env.make_ascii_get_suffix it return_cas]).map fun _ => true) =
      true :: true :: if env.inline_ascii_response then [true, true] else [true] := by
    cases env.inline_ascii_response <;> rfl
  rw [hplan] at hiovs
  exact get_suffix_follows.bind (hiovs.bind hdata hremove) hremove

theorem add_inline_follows : Faults.Follows env.ok calls (true :: true :: if it.chunked then [true, true] else [true])
    fun c => c.add_inline env it := by
  have hremove (c : GetConn) : calls (c.item_remove it) = c.calls := rfl
  have hhead := @add_iovs_follows env [c_string "VALUE ", it.key]
  have hdone : Faults.Follows env.ok calls [] fun c : GetConn => (c, true) := fun _ => rfl
  intro c
  change ((c.add_inline env it).1.calls, (c.add_inline env it).2) = _
  rw [add_inline]
  cases it.chunked with
  | false => exact hhead.bind ((add_iov_follows _).bind hdone hremove) hremove c
  | true => exact hhead.bind ((add_iov_follows _).bind (add_chunked_follows.bind hdone hremove) hremove) hremove c

theorem hit_follows : Faults.Follows env.ok calls (hit_plan env return_cas it) fun c => c.hit env it return_cas := by
  have hremove (c : GetConn) : calls (c.item_remove it) = c.calls := rfl
  have hkeep (c : GetConn) : calls (id c) = c.calls := rfl
  have hdone : Faults.Follows env.ok calls [] fun c : GetConn =>
      if !it.hdr then ({ c with ilist := c.ilist ++ [it] }, true) else (c, true) := by
    intro c
    cases it.hdr <;> rfl
  intro c
  change ((c.hit env it return_cas).1.calls, (c.hit env it return_cas).2) = _
  rw [hit_plan, hit]
  cases with_suffix env return_cas with
  | true =>
      have h := call_follows.bind ((@add_with_suffix_follows env return_cas it).bind hdone hkeep) hremove c
      rw [List.append_nil] at h
      exact h
  | false =>
      have h := call_follows.bind ((@add_inline_follows env it).bind hdone hkeep) hremove c
      rw [List.append_nil] at h
      exact h

/-! ## The plan of a list of keys -/

theorem hits_miss (h : env.limited_get key exptime = none) : hits env exptime (key :: keys) = hits env exptime keys := by
  simp [hits, h]

theorem hits_hit (h : env.limited_get key exptime = some it) :
    hits env exptime (key :: keys) = it :: hits env exptime keys := by
  simp [hits, h]

/-- A visit that follows its plan to the end passes all keys, and else stops at a hit. -/
inductive Follows (env : Env) (return_cas : Bool) (exptime : Option Int32) (keys : List (List UInt8)) (c : GetConn) :
    Visited → Prop
  | passed {c' : GetConn} (run : Faults.run env.ok c.calls (plan env return_cas exptime keys) = (c'.calls, true)) :
      Follows env return_cas exptime keys c (.passed c')
  | broke {c' : GetConn} {key : List UInt8} {it : GetItem} (mem : key ∈ keys)
      (found : env.limited_get key exptime = some it)
      (run : Faults.run env.ok c.calls (plan env return_cas exptime keys) = (c'.calls, false)) :
      Follows env return_cas exptime keys c (.broke c' key)

theorem visit_follows (hshort : ∀ key ∈ keys, key.length ≤ KEY_MAX_LENGTH) :
    Follows env return_cas exptime keys c (c.visit env return_cas exptime keys) := by
  induction keys generalizing c with
  | nil => exact .passed rfl
  | cons key keys ih =>
      have hkey := hshort key List.mem_cons_self
      have ih (c) := @ih c fun key hmem => hshort key (List.mem_cons_of_mem _ hmem)
      rw [visit, if_neg (Nat.not_lt_of_le hkey)]
      cases hfound : env.limited_get key exptime with
      | none =>
          have hplan : plan env return_cas exptime (key :: keys) = plan env return_cas exptime keys := by
            rw [plan, hits_miss hfound, plan]
          dsimp only
          have hrest := ih { c with gets := c.gets ++ [key] }
          generalize visit env return_cas exptime keys { c with gets := c.gets ++ [key] } = v at hrest ⊢
          cases hrest with
          | passed hrun => exact .passed (by rw [hplan]; exact hrun)
          | broke hmem hsome hrun => exact .broke (List.mem_cons_of_mem _ hmem) hsome (by rw [hplan]; exact hrun)
      | some it =>
          have hplan : plan env return_cas exptime (key :: keys) =
              hit_plan env return_cas it ++ plan env return_cas exptime keys := by
            rw [plan, hits_hit hfound, List.flatMap_cons, plan]
          have hhit := @hit_follows env return_cas it { c with gets := c.gets ++ [key], taken := it :: c.taken }
          dsimp only at hhit ⊢
          generalize hit env _ it return_cas = r at hhit ⊢
          obtain ⟨c', _ | _⟩ := r
          · refine .broke List.mem_cons_self hfound ?_
            rw [hplan, Faults.run_append, ← hhit]
            rfl
          · dsimp only
            have hrest := ih c'
            have hrun : Faults.run env.ok c.calls (plan env return_cas exptime (key :: keys)) =
                Faults.run env.ok c'.calls (plan env return_cas exptime keys) := by
              rw [hplan, Faults.run_append, ← hhit]
              rfl
            generalize visit env return_cas exptime keys c' = v at hrest ⊢
            cases hrest with
            | passed h => exact .passed (hrun.trans h)
            | broke hmem hsome h => exact .broke (List.mem_cons_of_mem _ hmem) hsome (hrun.trans h)

/-! ## What a hit holds -/

theorem call_yields : Faults.Yields books id fun c => c.call env := fun _ _ => rfl

theorem add_iov_yields (bytes : List UInt8) : Faults.Yields books id fun c => c.add_iov env bytes := by
  intro c _
  cases h : env.ok c.calls <;> simp [add_iov, call, h, books]

theorem add_chunked_yields : Faults.Yields books id fun c => c.add_chunked_item_iovs env it := by
  intro c _
  cases h : env.ok c.calls <;> simp [add_chunked_item_iovs, call, h, books]

theorem add_iovs_yields (pieces : List (List UInt8)) : Faults.Yields books id (add_iovs env pieces) := by
  induction pieces with
  | nil => exact fun _ _ => rfl
  | cons bytes pieces ih =>
      have h := (@add_iov_yields env bytes).bind ih id
      intro c hc
      have h := h c
      rw [add_iovs] at hc ⊢
      cases hok : (c.add_iov env bytes).2 <;> simp [hok] at h hc ⊢
      exact h hc

theorem add_inline_yields : Faults.Yields books id fun c => c.add_inline env it := by
  have hdone : Faults.Yields books id fun c : GetConn => (c, true) := fun _ _ => rfl
  have hhead := @add_iovs_yields env [c_string "VALUE ", it.key]
  intro c
  change (c.add_inline env it).2 = true → (c.add_inline env it).1.books = _
  rw [add_inline]
  cases it.chunked with
  | false => exact hhead.bind ((add_iov_yields _).bind hdone (item_remove · it)) (item_remove · it) c
  | true =>
      exact hhead.bind ((add_iov_yields _).bind (add_chunked_yields.bind hdone (item_remove · it)) (item_remove · it))
        (item_remove · it) c

theorem add_data_yields : Faults.Yields books
    (fun c => { c with io_wraplist := if it.hdr then it :: c.io_wraplist else c.io_wraplist }) fun c =>
    if it.hdr then if !(c._get_extstore env it).2 then ((c._get_extstore env it).1.item_remove it, false)
      else ((c._get_extstore env it).1, true)
    else if !it.chunked then ((c.add_iov env it.data).1, true)
    else if !(c.add_chunked_item_iovs env it).2 then ((c.add_chunked_item_iovs env it).1.item_remove it, false)
      else ((c.add_chunked_item_iovs env it).1, true) := by
  intro c
  cases it.hdr with
  | true =>
      cases h : env.ok c.calls <;> simp [_get_extstore, call, h, books]
  | false =>
      cases it.chunked <;> cases h : env.ok c.calls <;> simp [add_iov, add_chunked_item_iovs, call, h, books]

theorem get_suffix_yields : Faults.Yields books
    (fun c => { c with
      suffixlist := c.suffixlist ++ [c.suffix_taken.length]
      suffix_taken := c.suffix_taken.length :: c.suffix_taken })
    fun c => c._ascii_get_suffix_buf env := by
  intro c
  cases h : env.ok c.calls <;> simp [_ascii_get_suffix_buf, call, h, books]

theorem add_with_suffix_yields : Faults.Yields books
    (fun c => { c with
      suffixlist := c.suffixlist ++ [c.suffix_taken.length]
      suffix_taken := c.suffix_taken.length :: c.suffix_taken
      io_wraplist := if it.hdr then it :: c.io_wraplist else c.io_wraplist })
    fun c => c.add_with_suffix env it return_cas := by
  have hiovs := @add_iovs_yields env ([c_string "VALUE" ++ [0], it.key] ++
    (if env.inline_ascii_response then [it.suffix.take (it.suffix.length - 2)] else []) ++
    [env.make_ascii_get_suffix it return_cas])
  exact get_suffix_yields.bind (hiovs.bind (@add_data_yields env it) (item_remove · it)) (item_remove · it)

theorem hit_yields : Faults.Yields books (fun c => c.hold env it return_cas) fun c => c.hit env it return_cas := by
  have hdone : Faults.Yields books (fun c => { c with ilist := if it.hdr then c.ilist else c.ilist ++ [it] })
      fun c : GetConn => if !it.hdr then ({ c with ilist := c.ilist ++ [it] }, true) else (c, true) := by
    intro c _
    cases it.hdr <;> rfl
  intro c
  change (c.hit env it return_cas).2 = true → (c.hit env it return_cas).1.books = c.books.hold env it return_cas
  rw [hit, hold]
  cases with_suffix env return_cas with
  | true => exact call_yields.bind ((@add_with_suffix_yields env return_cas it).bind hdone id) (item_remove · it) c
  | false => exact call_yields.bind ((@add_inline_yields env it).bind hdone id) (item_remove · it) c

end

end Memcached.Thread.Get

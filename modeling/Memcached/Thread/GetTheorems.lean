import Mathlib.Data.List.TakeWhile
import Memcached.Thread.Lemmas.GetBooks

/-!
# The get commands

What `get`, `gets`, `gat` and `gats` look up, send and hold, over every command line.
-/

namespace Memcached.Thread.Get

open GetConn

/-! ## The keys visited -/

section
variable {env : Env} {return_cas should_touch : Bool} {exptime : Option Int32} {line : List UInt8} {c c' : GetConn}
  {keys : List (List UInt8)}

theorem visit_passed (hok : ∀ n, env.ok n = true) (hshort : ∀ key ∈ keys, key.length ≤ KEY_MAX_LENGTH) :
    ∃ c', c.visit env return_cas exptime keys = .passed c' := by
  have hfollows := @visit_follows env return_cas exptime c keys hshort
  generalize c.visit env return_cas exptime keys = v at hfollows ⊢
  cases hfollows with
  | passed => exact ⟨_, rfl⟩
  | broke _ _ hrun =>
      rw [Faults.run_of_ok fun i _ => hok i] at hrun
      exact nomatch congrArg Prod.snd hrun

theorem finish_written (hok : ∀ n, c.calls ≤ n → env.ok n = true) : (c.finish env return_cas).2 = .written ∧
    (c.finish env return_cas).1.iov = c.iov ++ [c_string "END\r\n"] ∧ (c.finish env return_cas).1.gets = c.gets := by
  have h₀ := hok c.calls (Nat.le_refl _)
  have h₁ := hok (c.calls + 1) (Nat.le_succ _)
  cases hsuffix : with_suffix env return_cas <;> cases hudp : env.udp <;>
    simp [finish, add_iov, call, hsuffix, hudp, h₀, h₁]

theorem process_command_passed (hline : 0 ∉ line) (hkeys : command_keys should_touch line ≠ [])
    (hexptime : command_exptime env should_touch line = some exptime) (hok : ∀ n, env.ok n = true)
    (hshort : ∀ key ∈ command_keys should_touch line, key.length ≤ KEY_MAX_LENGTH) :
    ∃ n c, idle.visit env return_cas exptime (command_keys should_touch line) = .passed c ∧
      ∀ rounds, n ≤ rounds → process_command env return_cas should_touch rounds line =
        some ((c.finish env return_cas).1, .written) := by
  obtain ⟨c, hvisit⟩ := @visit_passed env return_cas exptime idle _ hok hshort
  have hvisits : command_visits env return_cas should_touch 1 line = some (c.finish env return_cas) := by
    rw [command_visits, hexptime]
    dsimp only
    rw [visits, hvisit]
  obtain ⟨n, hn⟩ := (process_command_visits hline hkeys).mpr ⟨1, hvisits⟩
  refine ⟨n, c, hvisit, fun rounds hle => ?_⟩
  rw [process_command_mono hn hle, ← (@finish_written env return_cas c fun n _ => hok n).1]

theorem gets_every_key (hline : 0 ∉ line) (hkeys : command_keys should_touch line ≠ [])
    (hexptime : command_exptime env should_touch line ≠ none) (hok : ∀ n, env.ok n = true)
    (hshort : ∀ key ∈ command_keys should_touch line, key.length ≤ KEY_MAX_LENGTH) :
    ∃ n c, (∀ rounds, n ≤ rounds → process_command env return_cas should_touch rounds line = some (c, .written)) ∧
      c.gets = command_keys should_touch line ∧ c.iov.getLast? = some (c_string "END\r\n") := by
  obtain ⟨exptime, hexptime⟩ := Option.ne_none_iff_exists'.mp hexptime
  obtain ⟨n, c, hvisit, hn⟩ := @process_command_passed env return_cas _ _ _ hline hkeys hexptime hok hshort
  obtain ⟨-, hiov, hgets⟩ := @finish_written env return_cas c fun n _ => hok n
  have hholding := visit_holding idle_holding hvisit
  refine ⟨n, (c.finish env return_cas).1, hn, ?_, by rw [hiov, List.getLast?_concat]⟩
  rw [hgets, hholding.gets, List.nil_append]

/-- Nothing is stored, and no call fails. -/
def cold : Env where
  inline_ascii_response := true
  udp := false
  limited_get := fun _ _ => none
  safe_strtol := fun _ => none
  make_ascii_get_suffix := fun _ _ => []
  ok := fun _ => true

theorem gets_every_key_witness : ∃ n c,
    (∀ rounds, n ≤ rounds → process_command cold false false rounds (c_string "get a  b c d e f g h ") =
      some (c, .written)) ∧
      c.gets = ["a", "b", "c", "d", "e", "f", "g", "h"].map c_string ∧ c.iov.getLast? = some (c_string "END\r\n") :=
  gets_every_key (by decide) (by decide) (by decide) (fun _ => rfl) (by decide)

end

/-! ## What is given back -/

/-- Each reference and each suffix is given back once, the rest of them when the connection releases its items. -/
def Accounted (c : GetConn) : Prop :=
  c.conn_release_items.removed.Perm c.taken ∧ c.conn_release_items.suffix_freed.Perm c.suffix_taken

section
variable {env : Env} {return_cas : Bool} {c : GetConn} {keys : List (List UInt8)} {found : List GetItem}

theorem finish_books : (c.finish env return_cas).1.books = { c.books with
    ileft := c.ilist.length
    suffixleft := if with_suffix env return_cas then c.suffixlist.length else c.suffixleft } := by
  cases hsuffix : with_suffix env return_cas <;> cases hend : env.ok c.calls <;> cases hudp : env.udp <;>
    cases hheaders : env.ok (c.calls + 1) <;> simp [finish, add_iov, call, books, hsuffix, hend, hudp, hheaders]

theorem finish_error : (∃ message, (c.finish env return_cas).2 = .error message) ↔
    env.ok c.calls = false ∨ env.udp = true ∧ env.ok (c.calls + 1) = false := by
  cases hsuffix : with_suffix env return_cas <;> cases hend : env.ok c.calls <;> cases hudp : env.udp <;>
    cases hheaders : env.ok (c.calls + 1) <;> simp [finish, add_iov, call, hsuffix, hend, hudp, hheaders]

theorem finish_faults : (∃ i < (c.finish env return_cas).1.calls, env.ok i = false) ↔
    (∃ i < c.calls, env.ok i = false) ∨ env.ok c.calls = false ∨ env.udp = true ∧ env.ok (c.calls + 1) = false := by
  have hcalls : (c.finish env return_cas).1.calls =
      if env.ok c.calls ∧ env.udp then c.calls + 1 + 1 else c.calls + 1 := by
    cases hsuffix : with_suffix env return_cas <;> cases hend : env.ok c.calls <;> cases hudp : env.udp <;>
      simp [finish, add_iov, call, hsuffix, hend, hudp] <;> split <;> rfl
  rw [hcalls]
  split
  next h => rw [Nat.exists_lt_succ_right, Nat.exists_lt_succ_right, or_assoc, and_iff_right h.2]
  next h =>
    rw [Nat.exists_lt_succ_right]
    cases hend : env.ok c.calls with
    | true =>
        have hudp : env.udp = false := Bool.eq_false_iff.mpr fun hudp => h ⟨hend, hudp⟩
        simp only [hudp, Bool.false_eq_true, false_and, or_false]
    | false => simp only [true_or, or_true]

theorem finish_accounted (h : Holding env return_cas keys found c) :
    Accounted (c.finish env return_cas).1 ↔ ∀ it ∈ found, it.hdr = true → with_suffix env return_cas = true := by
  have hbooks := @finish_books env return_cas c
  have haccounted : Accounted (c.finish env return_cas).1 ↔ Accounted (c.finish env return_cas).1.books := Iff.rfl
  rw [haccounted, hbooks]
  simp only [Accounted, conn_release_items, books, h.taken, h.ilist, h.io_wraplist, h.removed, h.suffix_taken,
    h.suffix_freed, h.suffixleft, List.take_length, List.append_nil]
  have hlen := h.suffixlist
  cases hsuffix : with_suffix env return_cas with
  | true =>
      have hperm : (found.filter (!·.hdr) ++ (found.filter (·.hdr)).reverse).Perm found.reverse := by
        have h := List.filter_append_perm (!·.hdr) found
        simp only [Bool.not_not] at h
        exact ((List.reverse_perm _).append_left _).trans (h.trans (List.reverse_perm found).symm)
      simpa using hperm
  | false =>
      rw [hsuffix] at hlen
      simp only [Bool.false_eq_true, if_false] at hlen
      simp only [Bool.false_and, List.filter_false, List.reverse_nil, List.append_nil, Bool.false_eq_true, if_false,
        List.take_zero, List.length_eq_zero_iff.mp hlen, List.Perm.refl, and_true, imp_false]
      constructor
      · intro hperm it hit
        have hlength := hperm.length_eq
        rw [List.length_reverse] at hlength
        simpa using List.length_filter_eq_length_iff.mp hlength it hit
      · intro hhdr
        rw [List.filter_eq_self.mpr fun it hit => by simpa using hhdr it hit]
        exact (List.reverse_perm found).symm

theorem too_long_accounted (h : Holding env return_cas keys found c) :
    Accounted (c.too_long env return_cas) ↔ ∀ it ∈ found, it.hdr = false := by
  simp only [Accounted, conn_release_items, too_long, h.taken, h.ilist, h.io_wraplist, h.removed, h.suffix_taken,
    h.suffix_freed, h.suffixleft, h.ileft, List.take_zero, List.append_nil, List.nil_append]
  have hlen := h.suffixlist
  constructor
  · rintro ⟨hitems, hsuffixes⟩ it hit
    cases hsuffix : with_suffix env return_cas with
    | true =>
        rw [hsuffix, if_pos rfl] at hsuffixes hlen
        have hlength := hsuffixes.length_eq
        rw [List.length_take, List.length_reverse, hlen] at hlength
        have hall := Nat.le_antisymm (List.length_filter_le _ found) (hlength ▸ Nat.min_le_left ..)
        simpa using List.length_filter_eq_length_iff.mp hall it hit
    | false =>
        rw [hsuffix] at hitems
        have hlength := hitems.length_eq
        simp only [Bool.false_and, List.filter_false, List.reverse_nil, List.nil_append, List.length_reverse] at hlength
        simpa using List.length_filter_eq_length_iff.mp hlength it hit
  · intro hhdr
    have hall : found.filter (!·.hdr) = found := List.filter_eq_self.mpr fun it hit => by simp [hhdr it hit]
    have hnone : (found.filter fun it => with_suffix env return_cas && it.hdr) = [] :=
      List.filter_eq_nil_iff.mpr fun it hit => by simp [hhdr it hit]
    rw [hall, hnone, List.reverse_nil, List.nil_append]
    refine ⟨(List.reverse_perm found).symm, ?_⟩
    cases hsuffix : with_suffix env return_cas with
    | true =>
        rw [hsuffix, if_pos rfl] at hlen
        rw [if_pos rfl, ← hlen, List.take_length]
        exact (List.reverse_perm _).symm
    | false =>
        rw [hsuffix] at hlen
        simp only [Bool.false_eq_true, if_false] at hlen
        simp [List.length_eq_zero_iff.mp hlen]

end

/-! ## A failed key is tried again -/

/-- No call fails, one does, or all from one on. -/
def Faulty (ok : Nat → Bool) : Prop :=
  (∀ i, ok i = true) ∨ ∃ n, (∀ i, ok i = decide (i ≠ n)) ∨ ∀ i, ok i = decide (i < n)

section
variable {env : Env} {return_cas : Bool} {exptime : Option Int32} {c : GetConn} {key : List UInt8} {it : GetItem}
  {keys : List (List UInt8)} {r : GetConn × Response}

theorem visits_none {n : Nat} (hshort : key.length ≤ KEY_MAX_LENGTH) (hfound : env.limited_get key exptime = some it)
    (hok : ∀ i, n ≤ i → env.ok i = false) (hle : n ≤ c.calls) (m : Nat) :
    c.visits env return_cas exptime m [key] = none := by
  induction m generalizing c with
  | zero => rfl
  | succ m ih =>
      have hrun : Faults.run env.ok c.calls (plan env return_cas exptime [key]) = (c.calls + 1, false) := by
        rw [plan, hits_hit hfound, List.flatMap_cons, hit_plan, List.cons_append, Faults.run, hok c.calls hle]
        rfl
      have hfollows := @visit_follows env return_cas exptime c [key] fun key' hmem => by
        rwa [List.mem_singleton.mp hmem]
      rw [visits]
      generalize c.visit env return_cas exptime [key] = v at hfollows ⊢
      cases hfollows with
      | passed h => cases congrArg Prod.snd (hrun.symm.trans h)
      | @broke c' key' _ hmem _ h =>
          rw [List.mem_singleton.mp hmem]
          have hcalls : c.calls + 1 = c'.calls := congrArg Prod.fst (hrun.symm.trans h)
          exact ih (by omega)

/-- After a failed call, there is no answer, or an answer without an error. -/
theorem visits_broke (hfaulty : Faulty env.ok) (hshort : key.length ≤ KEY_MAX_LENGTH)
    (hfound : env.limited_get key exptime = some it) {j m : Nat} (hj : env.ok j = false) (hcalls : c.calls = j + 1)
    (hvisits : c.visits env return_cas exptime m [key] = some r) :
    r.2 = .written ∧ ∃ i < r.1.calls, env.ok i = false := by
  rcases hfaulty with hall | ⟨n, honce | hfrom⟩
  · rw [hall] at hj
    cases hj
  · have hn : j = n := by simpa [honce] using hj
    have hok (i) (hi : c.calls ≤ i) : env.ok i = true := by
      rw [honce, decide_eq_true_eq]
      omega
    cases m with
    | zero => cases hvisits
    | succ m =>
        have hfollows := @visit_follows env return_cas exptime c [key] fun key' hmem => by
          rwa [List.mem_singleton.mp hmem]
        rw [visits] at hvisits
        generalize c.visit env return_cas exptime [key] = v at hfollows hvisits
        cases hfollows with
        | @passed c' h =>
            cases hvisits
            have hle : c.calls ≤ c'.calls := by
              rw [Faults.run_of_ok hok] at h
              exact Nat.le_trans (Nat.le_add_right ..) (Nat.le_of_eq (congrArg Prod.fst h))
            refine ⟨(finish_written fun i hi => hok i (Nat.le_trans hle hi)).1, ?_⟩
            exact finish_faults.mpr (.inl ⟨j, by omega, hj⟩)
        | broke _ _ h =>
            rw [Faults.run_of_ok hok] at h
            cases congrArg Prod.snd h
  · have hn : n ≤ j := by simpa [hfrom] using hj
    rw [visits_none hshort hfound (fun i hi => by simpa [hfrom] using hi) (by omega)] at hvisits
    cases hvisits

end

/-! ## The error paths -/

/-- The command ends in an error before `END`: its `exptime` is no number, or a key is too long. -/
def Rejected (env : Env) (should_touch : Bool) (line : List UInt8) : Prop :=
  command_exptime env should_touch line = none ∨ ∃ key ∈ command_keys should_touch line, KEY_MAX_LENGTH < key.length

/-- What is found under the keys before the first that is too long. -/
def command_hits (env : Env) (should_touch : Bool) (line : List UInt8) : List GetItem :=
  match command_exptime env should_touch line with
  | none => []
  | some exptime =>
      hits env exptime ((command_keys should_touch line).takeWhile fun key => decide (key.length ≤ KEY_MAX_LENGTH))

/-- The calls made for them, in order. -/
def command_plan (env : Env) (return_cas should_touch : Bool) (line : List UInt8) : List Bool :=
  (command_hits env should_touch line).flatMap (hit_plan env return_cas)

/-- The answer to a command that met a failure is an error, and what it took is accounted for. -/
structure Handled (env : Env) (should_touch : Bool) (line : List UInt8) (c : GetConn) (r : Response) : Prop where
  error : (Rejected env should_touch line ∨ ∃ i < c.calls, env.ok i = false) → ∃ message, r = .error message
  complete : r = .written → c.gets = command_keys should_touch line
  accounted : Accounted c

/-- The failures that the command handles. -/
structure Handles (env : Env) (return_cas should_touch : Bool) (line : List UInt8) : Prop where
  checked : ∀ i, (command_plan env return_cas should_touch line)[i]? = some true → env.ok i = true
  unchecked : ¬ Rejected env should_touch line →
    (∃ i < (command_plan env return_cas should_touch line).length, env.ok i = false) →
      env.ok (command_plan env return_cas should_touch line).length = false ∨
        env.udp = true ∧ env.ok ((command_plan env return_cas should_touch line).length + 1) = false
  headers : ∀ it ∈ command_hits env should_touch line, it.hdr = true →
    with_suffix env return_cas = true ∧ ¬ Rejected env should_touch line

section
variable {env : Env} {return_cas should_touch : Bool} {exptime : Option Int32} {line : List UInt8}
  {first rest : List (List UInt8)}

theorem command_hits_eq (h : command_exptime env should_touch line = some exptime) : ∃ first rest,
    command_keys should_touch line = first ++ rest ∧ (∀ key ∈ first, key.length ≤ KEY_MAX_LENGTH) ∧
      (∀ key ∈ rest.head?, KEY_MAX_LENGTH < key.length) ∧ command_hits env should_touch line = hits env exptime first := by
  refine ⟨_, _, List.takeWhile_append_dropWhile.symm, fun key hkey => ?_, fun key hkey => ?_, by rw [command_hits, h]⟩
  · simpa using List.mem_takeWhile_imp hkey
  · have hhead := List.head?_dropWhile_not (fun key => decide (key.length ≤ KEY_MAX_LENGTH)) (command_keys should_touch line)
    rw [Option.mem_def.mp hkey] at hhead
    simpa using hhead

theorem rejected_iff (h : command_exptime env should_touch line = some exptime)
    (hsplit : command_keys should_touch line = first ++ rest) (hshort : ∀ key ∈ first, key.length ≤ KEY_MAX_LENGTH)
    (hlong : ∀ key ∈ rest.head?, KEY_MAX_LENGTH < key.length) : Rejected env should_touch line ↔ rest ≠ [] := by
  rw [Rejected, h, hsplit]
  constructor
  · rintro (hnone | ⟨key, hmem, hlt⟩) rfl
    · cases hnone
    · rw [List.append_nil] at hmem
      exact Nat.not_lt_of_le (hshort key hmem) hlt
  · intro hne
    cases rest with
    | nil => exact absurd rfl hne
    | cons key rest => exact .inr ⟨key, by simp, hlong key rfl⟩

theorem passed_handled_iff {c : GetConn} (hvisit : idle.visit env return_cas exptime first = .passed c)
    (hvisits : ∀ m, command_visits env return_cas should_touch m line = idle.visits env return_cas exptime m first)
    (hsplit : command_keys should_touch line = first)
    (hholding : Holding env return_cas first (command_hits env should_touch line) c)
    (hnot : ¬ Rejected env should_touch line) :
    (∃ m c r, command_visits env return_cas should_touch m line = some (c, r) ∧ Handled env should_touch line c r) ↔
      ((∃ i < c.calls, env.ok i = false) → env.ok c.calls = false ∨ env.udp = true ∧ env.ok (c.calls + 1) = false) ∧
        ∀ it ∈ command_hits env should_touch line, it.hdr = true → with_suffix env return_cas = true := by
  have hfinish (m) : command_visits env return_cas should_touch (m + 1) line = some (c.finish env return_cas) := by
    rw [hvisits, visits, hvisit]
  rw [← finish_accounted hholding, ← @finish_error env return_cas c]
  constructor
  · rintro ⟨m, c', r, hm, hhandled⟩
    cases m with
    | zero =>
        rw [hvisits] at hm
        cases hm
    | succ m =>
        obtain ⟨rfl, rfl⟩ := Prod.ext_iff.mp (Option.some.inj ((hfinish m).symm.trans hm))
        exact ⟨fun hfault => hhandled.error (.inr (finish_faults.mpr (.inl hfault))), hhandled.accounted⟩
  · rintro ⟨herror, haccounted⟩
    refine ⟨1, _, _, hfinish 0, ⟨?_, fun _ => ?_, haccounted⟩⟩
    · rintro (hrejected | hfault)
      · exact absurd hrejected hnot
      · rcases finish_faults.mp hfault with hfault | hend
        · exact herror hfault
        · exact finish_error.mpr hend
    · have hgets := congrArg GetConn.gets (@finish_books env return_cas c)
      exact hgets.trans (hholding.gets.trans hsplit.symm)

theorem rejected_handled_iff {c : GetConn} {key : List UInt8}
    (hvisit : idle.visit env return_cas exptime first = .passed c) (hlong : KEY_MAX_LENGTH < key.length)
    (hvisits : ∀ m, command_visits env return_cas should_touch m line =
      idle.visits env return_cas exptime m (first ++ key :: rest))
    (hholding : Holding env return_cas first (command_hits env should_touch line) c) :
    (∃ m c r, command_visits env return_cas should_touch m line = some (c, r) ∧ Handled env should_touch line c r) ↔
      ∀ it ∈ command_hits env should_touch line, it.hdr = false := by
  have hreturned (m) : command_visits env return_cas should_touch (m + 1) line =
      some (c.too_long env return_cas, .error "CLIENT_ERROR bad command line format") := by
    rw [hvisits, visits, visit_append, hvisit]
    dsimp only
    rw [visit, if_pos hlong]
  rw [← too_long_accounted hholding]
  constructor
  · rintro ⟨m, c', r, hm, hhandled⟩
    cases m with
    | zero =>
        rw [hvisits] at hm
        cases hm
    | succ m =>
        obtain ⟨rfl, rfl⟩ := Prod.ext_iff.mp (Option.some.inj ((hreturned m).symm.trans hm))
        exact hhandled.accounted
  · intro haccounted
    exact ⟨1, _, _, hreturned 0, ⟨fun _ => ⟨_, rfl⟩, fun h => (by cases h), haccounted⟩⟩

theorem visits_not_handled {c : GetConn} {key : List UInt8} {it : GetItem} {m : Nat} {r : GetConn × Response}
    (hfaulty : Faulty env.ok) (hvisit : idle.visit env return_cas exptime first = .broke c key)
    (hrun : Faults.run env.ok idle.calls (plan env return_cas exptime first) = (c.calls, false))
    (hshort : key.length ≤ KEY_MAX_LENGTH) (hfound : env.limited_get key exptime = some it)
    (hvisits : idle.visits env return_cas exptime m (first ++ rest) = some r) :
    r.2 = .written ∧ ∃ i < r.1.calls, env.ok i = false := by
  cases m with
  | zero => cases hvisits
  | succ m =>
      rw [visits, visit_append, hvisit] at hvisits
      obtain ⟨j, -, hj, hend⟩ := Faults.run_fault (congrArg Prod.snd hrun)
      exact visits_broke hfaulty hshort hfound hj (congrArg Prod.fst (hrun.symm.trans hend)) hvisits

end

theorem handles_errors_iff {env : Env} {return_cas should_touch : Bool} {line : List UInt8} (hline : 0 ∉ line)
    (hkeys : command_keys should_touch line ≠ []) (hfaulty : Faulty env.ok) :
    (∃ rounds c r, process_command env return_cas should_touch rounds line = some (c, r) ∧
      Handled env should_touch line c r) ↔ Handles env return_cas should_touch line := by
  have hreturns : (∃ rounds c r, process_command env return_cas should_touch rounds line = some (c, r) ∧
      Handled env should_touch line c r) ↔ ∃ m c r, command_visits env return_cas should_touch m line = some (c, r) ∧
      Handled env should_touch line c r := by
    constructor
    · rintro ⟨rounds, c, r, h, hhandled⟩
      obtain ⟨m, hm⟩ := (process_command_visits hline hkeys).mp ⟨rounds, h⟩
      exact ⟨m, c, r, hm, hhandled⟩
    · rintro ⟨m, c, r, h, hhandled⟩
      obtain ⟨rounds, hrounds⟩ := (process_command_visits hline hkeys).mpr ⟨m, h⟩
      exact ⟨rounds, c, r, hrounds, hhandled⟩
  rw [hreturns]
  cases hexptime : command_exptime env should_touch line with
  | none =>
      have hhits : command_hits env should_touch line = [] := by rw [command_hits, hexptime]
      constructor
      · intro _
        constructor <;> simp [command_plan, hhits]
      · intro _
        refine ⟨0, _, _, by rw [command_visits, hexptime], ⟨fun _ => ⟨_, rfl⟩, fun h => (by cases h), ?_⟩⟩
        constructor <;> exact .refl _
  | some exptime =>
      obtain ⟨first, rest, hsplit, hshort, hlong, hhits⟩ := command_hits_eq hexptime
      have hvisits (m) : command_visits env return_cas should_touch m line =
          idle.visits env return_cas exptime m (first ++ rest) := by
        rw [command_visits, hexptime, hsplit]
      have hplan : command_plan env return_cas should_touch line = plan env return_cas exptime first := by
        rw [command_plan, hhits, plan]
      have hrejected := rejected_iff hexptime hsplit hshort hlong
      have hfollows := @visit_follows env return_cas exptime idle first hshort
      generalize hvisit : idle.visit env return_cas exptime first = v at hfollows
      cases hfollows with
      | @passed c hrun =>
          have hholding := visit_holding idle_holding hvisit
          rw [List.nil_append, List.nil_append, ← hhits] at hholding
          have hcalls : (command_plan env return_cas should_touch line).length = c.calls := by
            have hfst := Faults.run_fst (congrArg Prod.snd hrun)
            rw [hrun, ← hplan] at hfst
            simpa [idle] using hfst.symm
          have hchecked : ∀ i, (command_plan env return_cas should_touch line)[i]? = some true → env.ok i = true := by
            intro i hi
            rw [hplan] at hi
            simpa [idle] using Faults.run_snd.mp (congrArg Prod.snd hrun) i hi
          cases rest with
          | nil =>
              rw [List.append_nil] at hsplit hvisits
              have hnot : ¬ Rejected env should_touch line := fun h => hrejected.mp h rfl
              exact (passed_handled_iff hvisit hvisits hsplit hholding hnot).trans
                ⟨fun h => ⟨hchecked, fun _ => hcalls ▸ h.1, fun it hit hhdr => ⟨h.2 it hit hhdr, hnot⟩⟩,
                  fun h => ⟨hcalls ▸ h.unchecked hnot, fun it hit hhdr => (h.headers it hit hhdr).1⟩⟩
          | cons key rest =>
              have hyes : Rejected env should_touch line := hrejected.mpr (by simp)
              refine (rejected_handled_iff hvisit (hlong key rfl) hvisits hholding).trans
                ⟨fun h => ⟨hchecked, fun hnot => absurd hyes hnot, fun it hit hhdr => ?_⟩, fun h it hit => ?_⟩
              · rw [h it hit] at hhdr
                cases hhdr
              · cases hhdr : it.hdr with
                | false => rfl
                | true => exact absurd hyes (h.headers it hit hhdr).2
      | @broke c key it hmem hfound hrun =>
          constructor
          · rintro ⟨m, c', r, hm, hhandled⟩
            rw [hvisits] at hm
            obtain ⟨hwritten, hfault⟩ := visits_not_handled hfaulty hvisit hrun (hshort key hmem) hfound hm
            obtain ⟨message, hmessage⟩ := hhandled.error (.inr hfault)
            cases hwritten.symm.trans hmessage
          · intro hhandles
            have hchecked := hhandles.checked
            rw [hplan] at hchecked
            have htrue := (@Faults.run_snd _ 0 _).mpr fun i hi => by simpa using hchecked i hi
            cases htrue.symm.trans (congrArg Prod.snd hrun)

/-- Every key is found, and the first call fails. -/
def flaky : Env :=
  { cold with
    limited_get := fun key _ => some ⟨0, key, [], [], [], [], false, false⟩
    ok := fun i => decide (i ≠ 0) }

theorem handles_errors_iff_witness : (∃ rounds c r, process_command flaky false false rounds (c_string "get a b") = some (c, r) ∧
    Handled flaky false (c_string "get a b") c r) ↔ Handles flaky false false (c_string "get a b") :=
  handles_errors_iff (by decide) (by decide) (.inr ⟨0, .inl fun _ => rfl⟩)

theorem retry_drops_keys : ¬ ∃ rounds c r,
    process_command flaky false false rounds (c_string "get a b") = some (c, r) ∧
      Handled flaky false (c_string "get a b") c r := by
  rintro ⟨rounds, c, r, h, hhandled⟩
  obtain ⟨c', hretry, hgets⟩ : ∃ c', process_command flaky false false 3 (c_string "get a b") = some (c', .written) ∧
      c'.gets = ["a", "a"].map c_string := ⟨_, rfl, by decide⟩
  cases process_command_unique hretry h
  exact absurd (hgets.symm.trans (hhandled.complete rfl)) (by decide)

end Memcached.Thread.Get

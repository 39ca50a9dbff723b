import Memcached.Thread.Lemmas.GetCalls

/-!
# What a get command holds

After a visit, each hit is in `ilist`, or has an `io_wrap` if it is in external storage and its suffix is made here;
and then there is one suffix for each hit.
-/

namespace Memcached.Thread.Get

open GetConn

/-- What the command holds after `keys`, where it found `found`. -/
structure Holding (env : Env) (return_cas : Bool) (keys : List (List UInt8)) (found : List GetItem) (c : GetConn) :
    Prop where
  gets : c.gets = keys
  taken : c.taken = found.reverse
  ilist : c.ilist = found.filter (!·.hdr)
  io_wraplist : c.io_wraplist = (found.filter fun it => with_suffix env return_cas && it.hdr).reverse
  removed : c.removed = []
  suffixlist : c.suffixlist.length = if with_suffix env return_cas then found.length else 0
  suffix_taken : c.suffix_taken = c.suffixlist.reverse
  suffix_freed : c.suffix_freed = []
  ileft : c.ileft = 0
  suffixleft : c.suffixleft = 0

section
variable {env : Env} {return_cas : Bool} {exptime : Option Int32} {it : GetItem} {c c' : GetConn}
  {key : List UInt8} {keys keys' : List (List UInt8)} {found : List GetItem}

theorem idle_holding : Holding env return_cas [] [] idle := by
  constructor <;> simp [idle]

theorem Holding.miss (h : Holding env return_cas keys found c) :
    Holding env return_cas (keys ++ [key]) found { c with gets := c.gets ++ [key] } :=
  ⟨by rw [h.gets], h.taken, h.ilist, h.io_wraplist, h.removed, h.suffixlist, h.suffix_taken, h.suffix_freed, h.ileft,
    h.suffixleft⟩

theorem Holding.hit (h : Holding env return_cas keys found c)
    (hhit : hit env { c with gets := c.gets ++ [key], taken := it :: c.taken } it return_cas = (c', true)) :
    Holding env return_cas (keys ++ [key]) (found ++ [it]) c' := by
  have hbooks := @hit_yields env return_cas it { c with gets := c.gets ++ [key], taken := it :: c.taken }
  simp only [hhit, forall_const] at hbooks
  have hfield {α : Type} (f : GetConn → α) : f c'.books = _ := congrArg f hbooks
  constructor
  · exact (hfield GetConn.gets).trans (congrArg (· ++ [key]) h.gets)
  · refine (hfield GetConn.taken).trans ?_
    simp [hold, books, h.taken]
  · refine (hfield GetConn.ilist).trans ?_
    cases hhdr : it.hdr <;> simp [hold, books, h.ilist, hhdr]
  · refine (hfield GetConn.io_wraplist).trans ?_
    cases hsuffix : with_suffix env return_cas <;> cases hhdr : it.hdr <;>
      simp [hold, books, h.io_wraplist, hhdr, hsuffix]
  · exact (hfield GetConn.removed).trans h.removed
  · have hlist := hfield GetConn.suffixlist
    have hlen := h.suffixlist
    change c'.suffixlist = _ at hlist
    cases hsuffix : with_suffix env return_cas <;> simp_all [hold, books]
  · have hlist := hfield GetConn.suffixlist
    have htaken := hfield GetConn.suffix_taken
    have hrev := h.suffix_taken
    change c'.suffixlist = _ at hlist
    change c'.suffix_taken = _ at htaken
    rw [hlist, htaken]
    cases hsuffix : with_suffix env return_cas <;> simp [hold, books, hsuffix, hrev]
  · exact (hfield GetConn.suffix_freed).trans h.suffix_freed
  · exact (hfield GetConn.ileft).trans h.ileft
  · exact (hfield GetConn.suffixleft).trans h.suffixleft

theorem visit_holding (h : Holding env return_cas keys' found c)
    (hvisit : c.visit env return_cas exptime keys = .passed c') :
    Holding env return_cas (keys' ++ keys) (found ++ hits env exptime keys) c' := by
  induction keys generalizing keys' found c with
  | nil =>
      cases hvisit
      simpa [hits] using h
  | cons key keys ih =>
      rw [visit] at hvisit
      split at hvisit
      · cases hvisit
      cases hfound : env.limited_get key exptime with
      | none =>
          rw [hfound] at hvisit
          have h' := ih h.miss hvisit
          rw [hits_miss hfound]
          rwa [List.append_assoc, List.singleton_append] at h'
      | some it =>
          rw [hfound] at hvisit
          dsimp only at hvisit
          split at hvisit
          next hhit =>
            have h' := ih (h.hit hhit) hvisit
            rw [hits_hit hfound]
            rwa [List.append_assoc, List.append_assoc, List.singleton_append, List.singleton_append] at h'
          next => cases hvisit

end

end Memcached.Thread.Get

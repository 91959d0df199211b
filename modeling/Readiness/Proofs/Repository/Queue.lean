import Readiness.Repository.Queue

/-!
# Repository — what a queue keeps

A queue of commits is a heap, and its order is that of the heap.  What is in it does not depend on
that order.

* `Queue.push_perm`: a commit that is put in is added to those that are there.
* `Queue.pop?_eq_some`, `Queue.pop?_eq_none`: a commit that is taken out is one of those that are
  there, and the others stay; there is none to take only where the queue is empty.
-/

namespace Readiness.Queue

variable {q q' : Queue} {c : Commit}

theorem raise_perm (q : Queue) (i : Nat) : (raise q i).Perm q := by
  fun_induction raise q i with
  | case1 q i h hlt ih => exact ih.trans (Array.swap_perm _ _)
  | case2 | case3 => exact .refl _

theorem sink_perm (q : Queue) (i : Nat) : (sink q i).Perm q := by
  fun_induction sink q i with
  | case1 => exact .refl _
  | case2 q i k hk _ hlt ih => exact ih.trans (Array.swap_perm _ _)
  | case3 => exact .refl _

theorem push_perm (q : Queue) (c : Commit) : (push q c).toList.Perm (c :: q.toList) := by
  have h : (push q c).toList.Perm (Array.push q c).toList :=
    (raise_perm (Array.push q c) q.size).toList
  rw [Array.toList_push] at h
  exact h.trans (List.perm_append_singleton c q.toList)

/-- The last place of an array and the others. -/
theorem pop_perm {α : Type} {a : Array α} (h : 0 < a.size) :
    a.toList.Perm (a[a.size - 1] :: a.pop.toList) := by
  have hne : a.toList ≠ [] := by
    rw [ne_eq, ← List.length_eq_zero_iff, Array.length_toList]
    omega
  have hlast : a.toList.getLast hne = a[a.size - 1] := by
    simp [List.getLast_eq_getElem]
  have hcut : a.toList = a.pop.toList ++ [a[a.size - 1]] := by
    rw [Array.toList_pop, ← hlast, List.dropLast_concat_getLast hne]
  exact (List.Perm.of_eq hcut).trans (List.perm_append_singleton _ _)

theorem pop?_eq_some (h : q.pop? = some (c, q')) : q.toList.Perm (c :: q'.toList) := by
  rw [pop?] at h
  split at h
  · rename_i hs
    obtain ⟨rfl, rfl⟩ := Prod.mk.inj (Option.some.inj h)
    -- the front is at the last place once it has changed places with what was there
    have hswap : q.Perm (q.swap 0 (q.size - 1)) :=
      (Array.swap_perm hs (Nat.sub_lt hs Nat.one_pos)).symm
    have hpop := pop_perm (a := q.swap 0 (q.size - 1)) (by rwa [Array.size_swap])
    simp only [Array.size_swap, Array.getElem_swap_right] at hpop
    exact (hswap.toList.trans hpop).trans ((sink_perm _ 0).symm.toList.cons _)
  · cases h

theorem pop?_eq_none : q.pop? = none ↔ q.toList = [] := by
  rw [pop?]
  split
  · rename_i hs
    refine iff_of_false nofun fun h => ?_
    rw [← Array.length_toList, h] at hs
    cases hs
  · rename_i hs
    refine iff_of_true rfl (List.length_eq_zero_iff.mp ?_)
    rw [Array.length_toList]
    omega

end Readiness.Queue

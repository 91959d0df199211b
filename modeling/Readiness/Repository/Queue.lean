import Readiness.Repository.Commit

/-!
# Repository — Queue

Commits that wait to be shown, the newest in front.  The queue is a binary heap: no commit is newer
than the one at half its position.  Among commits of one time the heap's own order decides.

* `Queue.push` and `Queue.pop?` keep the commits and only move them.
-/

namespace Readiness

/-- Waiting commits. -/
abbrev Queue := Array Commit

namespace Queue

/-- Moves the commit at `i` towards the front, past those that are older. -/
def raise (q : Queue) (i : Nat) : Queue :=
  if h : 0 < i ∧ i < q.size then
    if q[(i - 1) / 2].time < q[i].time then raise (q.swap i ((i - 1) / 2)) ((i - 1) / 2) else q
  else q
termination_by i

/-- The newer one of the positions below `i`. -/
def below? (q : Queue) (i : Nat) : Option (Fin q.size) :=
  if h : 2 * i + 1 < q.size then
    if h' : 2 * i + 2 < q.size then
      if q[2 * i + 1].time < q[2 * i + 2].time then some ⟨2 * i + 2, h'⟩ else some ⟨2 * i + 1, h⟩
    else some ⟨2 * i + 1, h⟩
  else none

theorem lt_of_below? {q : Queue} {i : Nat} {k : Fin q.size} (h : q.below? i = some k) :
    i < k.val := by
  unfold below? at h
  split at h
  · split at h
    · split at h <;> cases h <;> simp <;> omega
    · cases h; simp; omega
  · cases h

/-- Moves the commit at `i` away from the front, behind those that are newer. -/
def sink (q : Queue) (i : Nat) : Queue :=
  match h : q.below? i with
  | none => q
  | some k =>
    have : i < k.val := lt_of_below? h
    if q[i].time < q[k].time then sink (q.swap i k) k else q
termination_by q.size - i
decreasing_by
  have := k.isLt
  simp only [Array.size_swap]
  omega

/-- The queue with one commit more. -/
def push (q : Queue) (c : Commit) : Queue := raise (Array.push q c) q.size

/-- The commit in front, and the queue without it; the last commit takes the vacant place first. -/
def pop? (q : Queue) : Option (Commit × Queue) :=
  if h : 0 < q.size then some (q[0], sink (q.swap 0 (q.size - 1)).pop 0) else none

end Queue

end Readiness

import Readiness.Repository.Queue

/-!
# Repository — History

The commits that are reachable from one of them, in the order a log shows them: none before one of
its descendants, and the newest first among those that may come next.

* `CommitGraph.reachable` finds the commits;
* `CommitGraph.log` orders them.
-/

namespace Readiness.CommitGraph

/-! ### Reachable commits -/

/-- How many visits the search for reachable commits can take. -/
def visits (g : CommitGraph) : Nat :=
  (g.commits.flatMap (·.parents)).length + g.commits.length + 1

/-- The commits in `seen`, and those reachable from the ids in `todo`; nothing when a commit on the
way is missing. -/
def collect (g : CommitGraph) : Nat → List String → List Commit → Option (List Commit)
  | _, [], seen => some seen
  | 0, _ :: _, seen => some seen
  | n + 1, id :: todo, seen =>
    if seen.any (·.id == id) then g.collect n todo seen
    else
      match g.commit? id with
      | some c => g.collect n (c.parents ++ todo) (seen ++ [c])
      | none => none

/-- The commits reachable from `head`, itself among them. -/
def reachable (g : CommitGraph) (head : Commit) : Option (List Commit) :=
  g.collect g.visits [head.id] []

/-! ### Order -/

/-- The parents of a commit that has been shown.  `links` are the parents of commits that have not
been shown, one for each link; a parent without links left joins the queue. -/
def release (g : CommitGraph) : List String → Queue → List String → Queue × List String
  | [], q, links => (q, links)
  | p :: ps, q, links =>
    let links := links.erase p
    if links.contains p then g.release ps q links
    else
      match g.commit? p with
      | some c => g.release ps (q.push c) links
      | none => g.release ps q links

/-- At most `n` commits: the front of the queue, then what its parents let through. -/
def unroll (g : CommitGraph) : Nat → Queue → List String → List Commit
  | 0, _, _ => []
  | n + 1, q, links =>
    match q.pop? with
    | none => []
    | some (c, q) =>
      let (q, links) := g.release c.parents q links
      c :: g.unroll n q links

/-- The commits reachable from `head` in the order of a log. -/
def log (g : CommitGraph) (head : Commit) : Option (List Commit) :=
  (g.reachable head).map fun cs => g.unroll cs.length #[head] (cs.flatMap Commit.parents)

end Readiness.CommitGraph

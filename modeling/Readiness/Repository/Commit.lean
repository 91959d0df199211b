import Readiness.Proof.Token
import Readiness.Text.Utf8

/-!
# Repository — Commit

Commits and the graph their parents make.

* `CommitGraph.commit?` finds a commit by its id;
* `CommitGraph.abbreviate` is the shortest text that still names a commit.
-/

namespace Readiness

/-- A commit as its history needs it. -/
structure Commit where
  /-- The object id: forty hexadecimal digits, letters in lower case. -/
  id : String
  /-- The time of the commit, in seconds. -/
  time : Int
  /-- The ids of the parents, in order. -/
  parents : List String
  /-- The message as it is stored. -/
  message : ByteArray
deriving DecidableEq

/-- The message without the line breaks it begins with; bytes that are not UTF-8 are replaced. -/
def Commit.messageText (c : Commit) : String :=
  Text.Utf8.lossy ⟨(c.message.toList.dropWhile (· == 0x0A)).toArray⟩

/-- The commits of a repository. -/
structure CommitGraph where
  commits : List Commit

namespace CommitGraph

def empty : CommitGraph := ⟨[]⟩

def commit? (g : CommitGraph) (id : String) : Option Commit := g.commits.find? fun c => c.id == id

/-- The graph with one commit more. -/
def add (g : CommitGraph) (c : Commit) : CommitGraph := ⟨g.commits ++ [c]⟩

/-! ### Abbreviated ids -/

/-- How long an abbreviated id is at least, and how long an id is. -/
def shortLength : Nat := 7
def idLength : Nat := 40

/-- No other commit's id begins with the first `n` characters of `id`. -/
def isUnambiguous (g : CommitGraph) (id : String) (n : Nat) : Bool :=
  g.commits.all fun c => c.id == id || c.id.toList.take n != id.toList.take n

/-- The length of the abbreviation of `id`. -/
def abbreviationLength (g : CommitGraph) (id : String) : Nat :=
  ((List.range' shortLength (idLength - shortLength)).find? (g.isUnambiguous id)).getD idLength

/-- The shortest beginning of an id that names one commit only. -/
def abbreviate (g : CommitGraph) (id : String) : String :=
  String.ofList (id.toList.take (g.abbreviationLength id))

/-- A commit as a run sees it. -/
def revision (g : CommitGraph) (c : Commit) : Revision := ⟨c.id, g.abbreviate c.id⟩

end CommitGraph

end Readiness

import Readiness.Repository.Config
import Readiness.Repository.History
import Readiness.Repository.Reference
import Readiness.Vcs

/-!
# Repository — Basic

A repository: its git directory among the files, and its commits.

* `Repository.head` resolves HEAD, and says apart whether there is nothing yet or something broken;
* `Repository.vcs` is everything a command may ask.
-/

namespace Readiness

structure Repository where
  /-- The git directory, an absolute path. -/
  gitDir : String
  files : FileTree
  graph : CommitGraph

/-- Why a reference leads to no commit. -/
inductive RefProblem where
  /-- There is no such reference. -/
  | missing
  | broken (reason : String)
deriving DecidableEq, Repr

namespace Repository

/-- The directory holds a repository. -/
def isGitDir (t : FileTree) (dir : String) : Bool :=
  t.isFile (Path.join dir "HEAD") && t.isDirectory (Path.join dir "objects") &&
    t.isDirectory (Path.join dir "refs")

/-- The repository of a work tree, or the one that `root` itself is. -/
def open? (t : FileTree) (graph : CommitGraph) (root : String) : Option Repository :=
  ([Path.join root ".git", root].find? (isGitDir t)).map fun dir => ⟨dir, t, graph⟩

/-- The settings of the repository in a git directory; none when it has no file of them. -/
def configOf (t : FileTree) (gitDir : String) : List Config.Entry :=
  match t.readBytes (Path.join gitDir "config") with
  | .ok bytes => Config.entries (Text.Utf8.lossy bytes)
  | .error _ => []

/-- The repository in a git directory is said to have no work tree. -/
def isBare (t : FileTree) (gitDir : String) : Bool := Config.isOn (configOf t gitDir) "core.bare"

/-! ### References -/

def brokenReference : RefProblem := .broken "corrupted loose reference file"

/-- The id that the packed references give to a name. -/
def packedId? (r : Repository) (name : String) : Option String :=
  match r.files.readText (Path.join r.gitDir "packed-refs") with
  | .ok text => (Text.pieces '\n' text.toList).findSome? (Reference.packed? name)
  | .error _ => none

/-- The reference with a name: its file, else its packed line. -/
def reference (r : Repository) (name : String) : Except RefProblem Reference :=
  match r.files.readBytes (Path.join r.gitDir name) with
  | .ok bytes =>
    match (String.fromUTF8? bytes).bind Reference.parse? with
    | some ref => .ok ref
    | none => .error brokenReference
  | .error _ =>
    match r.packedId? name with
    | some id => .ok (.direct id)
    | none => .error .missing

/-- How many symbolic references may stand for each other. -/
def nestingMax : Nat := 5

/-- The id at the end of at most so many symbolic references, when `look` looks names up. -/
def follow (look : String → Except RefProblem Reference) : Nat → String → Except RefProblem String
  | n, name =>
    match look name with
    | .error p => .error p
    | .ok (.direct id) => .ok id
    | .ok (.symbolic target) =>
      match n with
      | 0 => .error (.broken "cannot resolve reference (>5 levels deep)")
      | n + 1 => follow look n target

/-- The id at the end of symbolic references. -/
def resolve (r : Repository) : Nat → String → Except RefProblem String := follow r.reference

/-- The id HEAD stands for. -/
def headId (r : Repository) : Except RefProblem String :=
  match r.reference "HEAD" with
  | .error p => .error p
  | .ok (.direct id) => .ok id
  | .ok (.symbolic target) =>
    if Reference.isName target then r.resolve nestingMax (Reference.normalize target)
    else .error (.broken ("the given reference name '" ++ target ++ "' is not valid"))

/-- The commit HEAD stands for. -/
def head (r : Repository) : Except RefProblem Commit :=
  match r.headId with
  | .error p => .error p
  | .ok id =>
    match r.graph.commit? id with
    | some c => .ok c
    | none => .error (.broken ("object not found - no match for id (" ++ id ++ ")"))

/-! ### What a command may ask -/

/-- The commit HEAD stands for, as a run sees it. -/
def revision (r : Repository) : Except Failure Revision :=
  match r.head with
  | .ok c => .ok (r.graph.revision c)
  | .error .missing => .error .noRevision
  | .error (.broken reason) => .error (.repository reason)

def originPrefix : String := "refs/remotes/origin/"

/-- The branch that the remote `origin` says is its default.  The branch need not be there. -/
def tracking (r : Repository) : Option String :=
  match r.reference (originPrefix ++ "HEAD") with
  | .ok (.symbolic target) => Text.stripStart? target originPrefix
  | _ => none

/-- The messages of at most `limit` commits reachable from HEAD, in the order of a log. -/
def messages (r : Repository) (limit : Nat) : Except Trouble (List String) :=
  match r.head with
  | .error .missing => .error (.ofCause "reference 'HEAD' not found")
  | .error (.broken reason) => .error (.ofCause reason)
  | .ok c =>
    match r.graph.log c with
    | some cs => .ok ((cs.take limit).map Commit.messageText)
    | none => .error (.ofCause "object not found")

/-- A remote's name makes the names of its branches. -/
def isRemoteName (name : String) : Bool :=
  name != "" && (Text.split name '/').all (· ≠ "") &&
    Reference.isName ("refs/remotes/" ++ name ++ "/HEAD")

/-- The remote has an address to fetch from or to push to. -/
def hasRemote (r : Repository) (name : String) : Bool :=
  isRemoteName name &&
    let config := configOf r.files r.gitDir
    ["url", "pushurl"].any fun k => (Config.value? config ("remote." ++ name ++ "." ++ k)).isSome

def vcs (r : Repository) : Vcs where
  head := r.revision
  tracking := r.tracking
  messages := r.messages
  hasRemote := r.hasRemote

end Repository

/-- What can be said about a work tree whose repository cannot be opened. -/
def Vcs.unavailable (root : String) : Vcs where
  head := .error (.repository ("could not find repository at '" ++ root ++ "'"))
  tracking := none
  messages _ := .error ⟨["cannot open repository at " ++ root, "could not find repository"]⟩
  hasRemote _ := false

/-- What version control says about a work tree now. -/
def Vcs.ofTree (t : FileTree) (graph : CommitGraph) (root : String) : Vcs :=
  match Repository.open? t graph root with
  | some r => r.vcs
  | none => .unavailable root

end Readiness

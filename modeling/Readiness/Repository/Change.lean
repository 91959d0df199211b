import Readiness.Repository.Basic

/-!
# Repository — Change

What happens to a repository between two commands: commits, moves of HEAD and new remotes.  No
command does any of it.
-/

namespace Readiness.Repository

/-! ### New repositories -/

/-- The settings a new repository has. -/
def initialConfig (bare : Bool) : String :=
  "[core]\n\tbare = " ++ (if bare then "true" else "false") ++
    "\n\trepositoryformatversion = 0\n\tfilemode = true\n" ++
    if bare then "" else "\tlogallrefupdates = true\n"

def mainBranch : String := "refs/heads/main"

/-- The files of a new repository. -/
def initialFiles (bare : Bool) : List (String × String) :=
  [("HEAD", (Reference.symbolic mainBranch).encode), ("config", initialConfig bare),
   ("description", "Unnamed repository; edit this file 'description' to name the repository.\n"),
   ("info/exclude", "# File patterns to ignore; see `git help ignore` for more information.\n")]

/-- The empty directories of a new repository. -/
def initialDirs : List String :=
  ["hooks", "info", "objects/info", "objects/pack", "refs/heads", "refs/tags"]

/-- The tree with a file at a path whose directories are made as needed. -/
def put (t : FileTree) (p : String) (text : String) : FileTree :=
  let names := Path.plain p
  let (_, t) := t.makeDirectories (Path.ofNames names.dropLast)
  (t.writeFile p text.toUTF8).toOption.getD t

/-- A new repository in a git directory, on the unborn branch `main`. -/
def init (t : FileTree) (gitDir : String) (bare : Bool) : Repository :=
  let t := initialDirs.foldl (fun t d => (t.makeDirectories (Path.join gitDir d)).2) t
  ⟨gitDir, (initialFiles bare).foldl (fun t f => put t (Path.join gitDir f.1) f.2) t, .empty⟩

/-! ### References -/

/-- The repository with a reference, new or changed. -/
def setReference (r : Repository) (name : String) (ref : Reference) : Repository :=
  { r with files := put r.files (Path.join r.gitDir name) ref.encode }

/-- HEAD names a commit and no branch. -/
def isDetached (r : Repository) : Bool :=
  match r.reference "HEAD" with
  | .ok (.direct id) => (r.graph.commit? id).isSome
  | _ => false

/-- The branch moves to a commit, or HEAD does when it is on no branch. -/
def advance (r : Repository) (id : String) : Repository :=
  r.setReference (if r.isDetached then "HEAD" else mainBranch) (.direct id)

/-! ### Commits -/

/-- The repository with a commit more, to which the branch moves. -/
def commit (r : Repository) (c : Commit) : Repository :=
  { r with graph := r.graph.add c }.advance c.id

/-! ### Remotes -/

/-- The repository with a remote more. -/
def addRemote (r : Repository) (name url : String) : Repository :=
  let path := Path.join r.gitDir "config"
  let former := (r.files.readText path).toOption.getD ""
  { r with files := put r.files path (former ++ "[remote \"" ++ name ++ "\"]\n\turl = " ++ url ++
      "\n\tfetch = +refs/heads/*:refs/remotes/" ++ name ++ "/*\n") }

end Readiness.Repository

import Readiness.Repository.Basic

/-!
# Repository — Discovery

Finding the work tree that a directory belongs to: each directory from the start upwards is looked
at, first for a git directory inside it and then for being one itself.
-/

namespace Readiness.Repository

/-- A location and those above it, the nearest first. -/
def upwards (l : Location) : List Location :=
  (List.range (l.length + 1)).map fun n => l.take (l.length - n)

/-- The places where the git directory of `l` may be, the nearest first. -/
def candidates (l : Location) : List Location := (upwards l).flatMap fun d => [d ++ [".git"], d]

/-- The first candidate that is a git directory.  A regular file called `.git` ends the search. -/
def firstGitDir (t : FileTree) : List Location → Option Location
  | [] => none
  | c :: cs =>
    match t.get? c with
    | some .directory => if isGitDir t (Path.ofNames c) then some c else firstGitDir t cs
    | some (.file _) => if c.getLast? = some ".git" then none else firstGitDir t cs
    | none => firstGitDir t cs

/-- The root of the work tree around `start`, a path seen from `cwd`.  A repository without a work
tree has none. -/
def discover (t : FileTree) (cwd : Location) (start : String) : Except Failure String :=
  match t.resolve cwd start with
  | .ok (.found l _) =>
    match firstGitDir t (candidates l) with
    | some c =>
      if isBare t (Path.ofNames c) then .error (.notARepository start)
      else .ok (Path.ofNames c.dropLast)
    | none => .error (.notARepository start)
  | _ => .error (.notARepository start)

end Readiness.Repository

import Readiness.FileTree.Basic

/-!
# FileTree — Access

Files named by paths.  A path is followed from a directory, one segment after the other; what
cannot be followed or done is an `IoError`.

* `FileTree.resolve` finds what a path names;
* reading: `stat?`, `isFile`, `isDirectory`, `readText`, `names`;
* writing: `writeFile`, `removeFile`, `makeDirectory`, `makeDirectories`.
-/

namespace Readiness

inductive IoError where
  | noEntry
  | alreadyExists
  | notDirectory
  | isDirectory
  | nameTooLong
  | invalidText
  | nulInPath
deriving DecidableEq, Repr

def IoError.message : IoError → String
  | .noEntry       => "No such file or directory (os error 2)"
  | .alreadyExists => "File exists (os error 17)"
  | .notDirectory  => "Not a directory (os error 20)"
  | .isDirectory   => "Is a directory (os error 21)"
  | .nameTooLong   => "File name too long (os error 36)"
  | .invalidText   => "stream did not contain valid UTF-8"
  | .nulInPath     => "file name contained an unexpected NUL byte"

namespace FileTree

/-- The longest name of a directory entry, and the longest path, in bytes. -/
def nameMax : Nat := 255
def pathMax : Nat := 4095

/-- What a path leads to. -/
inductive Place where
  | found (l : Location) (e : Entry)
  /-- Nothing is there, but its parent is a directory. -/
  | vacant (l : Location)

/-- Follows segments from the directory at `l`. -/
def walk (t : FileTree) (l : Location) : List String → Except IoError Place
  | [] => .ok (.found l .directory)
  | s :: ss =>
    if !Path.isPlain s then walk t l ss
    else if s = ".." then walk t l.dropLast ss
    else if nameMax < s.utf8ByteSize then .error .nameTooLong
    else
      match t.get? (l ++ [s]) with
      | some .directory => walk t (l ++ [s]) ss
      | some (.file c) =>
        if ss = [] then .ok (.found (l ++ [s]) (.file c)) else .error .notDirectory
      | none => if ss.all (· == "") then .ok (.vacant (l ++ [s])) else .error .noEntry

/-- What a path leads to, seen from the directory `cwd` unless it is absolute. -/
def resolve (t : FileTree) (cwd : Location) (p : String) : Except IoError Place :=
  if p.toList.contains '\x00' then .error .nulInPath
  else if p = "" then .error .noEntry
  else if pathMax < p.utf8ByteSize then .error .nameTooLong
  else t.walk (if Path.isAbsolute p then [] else cwd) (Path.segments p)

/-! ### Reading -/

/-- What stands at an absolute path. -/
def find? (t : FileTree) (p : String) : Option (Location × Entry) :=
  match t.resolve [] p with
  | .ok (.found l e) => some (l, e)
  | _ => none

def stat? (t : FileTree) (p : String) : Option Entry := (t.find? p).map (·.2)

def exists? (t : FileTree) (p : String) : Bool := (t.stat? p).isSome

def isDirectory (t : FileTree) (p : String) : Bool := t.stat? p == some .directory

def isFile (t : FileTree) (p : String) : Bool :=
  match t.stat? p with
  | some (.file _) => true
  | _ => false

def readBytes (t : FileTree) (p : String) : Except IoError ByteArray :=
  match t.resolve [] p with
  | .ok (.found _ (.file c)) => .ok c
  | .ok (.found _ .directory) => .error .isDirectory
  | .ok (.vacant _) => .error .noEntry
  | .error e => .error e

/-- The text of a file, which must be UTF-8. -/
def readText (t : FileTree) (p : String) : Except IoError String :=
  match t.readBytes p with
  | .ok c =>
    match String.fromUTF8? c with
    | some s => .ok s
    | none => .error .invalidText
  | .error e => .error e

/-- The names in a directory. -/
def names (t : FileTree) (p : String) : Except IoError (List String) :=
  match t.resolve [] p with
  | .ok (.found l .directory) => .ok (t.children l)
  | .ok (.found _ (.file _)) => .error .notDirectory
  | .ok (.vacant _) => .error .noEntry
  | .error e => .error e

/-! ### Writing -/

/-- The tree with a file of these contents, new or instead of the former one. -/
def writeFile (t : FileTree) (p : String) (contents : ByteArray) : Except IoError FileTree :=
  match t.resolve [] p with
  | .ok (.found l (.file _)) | .ok (.vacant l) => .ok (t.put l (.file contents))
  | .ok (.found _ .directory) => .error .isDirectory
  | .error e => .error e

/-- The tree without a file. -/
def removeFile (t : FileTree) (p : String) : Except IoError FileTree :=
  match t.resolve [] p with
  | .ok (.found l (.file _)) => .ok (t.erase l)
  | .ok (.found _ .directory) => .error .isDirectory
  | .ok (.vacant _) => .error .noEntry
  | .error e => .error e

/-- The tree with a new directory. -/
def makeDirectory (t : FileTree) (p : String) : Except IoError FileTree :=
  match t.resolve [] p with
  | .ok (.vacant l) => .ok (t.put l .directory)
  | .ok (.found ..) => .error .alreadyExists
  | .error e => .error e

/-- What an attempt came to, and the tree it left. -/
abbrev Attempt (α : Type) := Except IoError α × FileTree

/-- The tree with a directory, unless the path already leads to one. -/
def ensureDirectory (t : FileTree) (p : String) : Attempt Unit :=
  match t.makeDirectory p with
  | .ok t => (.ok (), t)
  | .error e => (if t.isDirectory p then .ok () else .error e, t)

/-- The tree with a directory at `p` and at its ancestors, whose names are given in reverse.  An
ancestor is only looked at when its child cannot be made without it. -/
def makeWithAncestors (t : FileTree) (p : String) : List String → Attempt Unit
  | [] => t.ensureDirectory p
  | _ :: up =>
    match t.makeDirectory p with
    | .ok t => (.ok (), t)
    | .error .noEntry =>
      match makeWithAncestors t (Path.ofNames up.reverse) up with
      | (.ok (), t) => t.ensureDirectory p
      | (.error e, t) => (.error e, t)
    | .error e => (if t.isDirectory p then .ok () else .error e, t)

/-- The tree with the directory at an absolute path and all its ancestors. -/
def makeDirectories (t : FileTree) (p : String) : Attempt Unit :=
  t.makeWithAncestors p (Path.plain p).reverse

end FileTree

end Readiness

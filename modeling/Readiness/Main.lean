import Readiness.CommandLine.Run
import Readiness.Repository.Discovery
import Readiness.Repository.Pack
import Std.Data.HashMap
import Std.Time.DateTime.Timestamp

/-!
# Main

The program.  A command line is answered on a `FileTree`; here the tree is read from disk before
and written back after.

* `Disk.load` reads the work tree around a directory and the commits HEAD leads to;
* `Disk.save` makes on disk the difference between two trees;
* `main` does both, around `CommandLine.answer`.

No other program is launched, so the client of the hosting service counts as not installed.
-/

namespace Readiness

namespace Disk

/-! ### Files -/

/-- What stands at a location: a file with its contents, or a directory alone. -/
def entry? (l : Location) : IO (Option Entry) := do
  let path := (← IO.currentDir) / Path.ofNames l
  try
    match (← path.metadata).type with
    | .dir => return some .directory
    | .file => return some (.file (← IO.FS.readBinFile path))
    | _ => return none
  catch _ => return none

/-- A tree with what stands at these locations too. -/
def addAll (t : FileTree) (ls : List Location) : IO FileTree :=
  ls.foldlM (fun t l => do
    if t.entries.any fun e => e.1 == l then return t
    match ← entry? l with
    | some e => return t.put l e
    | none => return t) t

/-- Everything below a directory.  Links to directories are not followed, and nothing is read below
the location `closed`. -/
partial def below (closed l : Location) : IO (List (Location × Entry)) := do
  if l = closed then return []
  let path := (← IO.currentDir) / Path.ofNames l
  let mut found := #[]
  for child in ← path.readDir do
    let place := l ++ [child.fileName]
    let some e ← entry? place | continue
    found := found.push (place, e)
    if e = .directory && (← child.path.symlinkMetadata).type == .dir then
      found := found ++ (← below closed place)
  return found.toList

/-- The locations that segments lead through from `l`, the last one last. -/
def through (l : Location) : List String → List Location
  | [] => [l]
  | s :: ss => l :: through (if s = ".." then l.dropLast else l ++ [s]) ss

/-- What tells whether a place is a git directory, and whether it has a work tree. -/
def signs (c : Location) : List Location :=
  [c, c ++ ["HEAD"], c ++ ["config"], c ++ ["objects"], c ++ ["refs"]]

/-! ### Commits -/

/-- The packs of a repository. -/
def packs (gitDir : String) : IO (List Pack) := do
  let dir := (← IO.currentDir) / Path.join gitDir "objects/pack"
  if !(← dir.pathExists) then return []
  let mut found := #[]
  for child in ← dir.readDir do
    if child.path.extension == some "idx" then
      let index ← IO.FS.readBinFile child.path
      let data ← IO.FS.readBinFile (child.path.withExtension "pack")
      found := found.push ⟨index, data⟩
  return found.toList

/-- The object with an id: in a file of its own, else in a pack. -/
def object? (gitDir : String) (packs : List Pack) (id : String) : IO (Option GitObject) := do
  match ← entry? (Path.plain (Path.join gitDir (GitObject.fileOf id))) with
  | some (.file bytes) => return GitObject.ofFile? bytes
  | _ => return packs.findSome? fun p => p.find? id

/-- The graph with the commits that the given ids lead to. -/
partial def commitsFrom (object? : String → IO (Option GitObject)) (g : CommitGraph) :
    List String → IO CommitGraph
  | [] => return g
  | id :: ids => do
    if (g.commit? id).isSome then commitsFrom object? g ids
    else
      match (← object? id).bind (GitObject.commit? id) with
      | some c => commitsFrom object? (g.add c) (c.parents ++ ids)
      | none => commitsFrom object? g ids

/-- The commits HEAD leads to. -/
def commits (r : Repository) : IO CommitGraph := do
  match r.headId with
  | .ok id => commitsFrom (object? r.gitDir (← packs r.gitDir)) .empty [id]
  | .error _ => return .empty

/-! ### Work trees -/

/-- The work tree around `start`, a path seen from `cwd`, and the commits of its repository.  When
there is none, only what was looked at to find it. -/
def load (cwd : Location) (start : String) : IO (FileTree × CommitGraph) := do
  let way := through (if Path.isAbsolute start then [] else cwd) (Path.plain start)
  let near := (Repository.candidates (way.getLastD cwd)).flatMap signs
  let t ← addAll .empty (way.filter (· ≠ []) ++ near)
  match Repository.discover t cwd start with
  | .error _ => return (t, .empty)
  | .ok root =>
    match Repository.open? t .empty root with
    | none => return (t, .empty)
    | some r =>
      let rootAt := Path.plain root
      let inside ← below (Path.plain (Path.join r.gitDir "objects")) rootAt
      let outside := t.entries.filter fun e => e.1 = rootAt || !rootAt.isPrefixOf e.1
      let files : FileTree := ⟨outside ++ inside⟩
      return (files, ← commits { r with files })

/-- Makes on disk what is new in the second tree, and removes what is no more in it. -/
def save (old new : FileTree) : IO Unit := do
  let before := Std.HashMap.ofList old.entries
  let after := Std.HashMap.ofList new.entries
  for (l, e) in new.entries do
    if before[l]? != some e then
      match e with
      | .directory => IO.FS.createDirAll (Path.ofNames l)
      | .file contents => IO.FS.writeBinFile (Path.ofNames l) contents
  for (l, e) in old.entries do
    if !after.contains l && e != .directory then IO.FS.removeFile (Path.ofNames l)

end Disk

/-! ### The program -/

/-- A proof that is issued now gets this stamp. -/
def Stamp.now : IO Stamp := do
  let time ← Std.Time.Timestamp.now
  let random ← IO.getRandomBytes 6
  let nonce := random.toList.flatMap fun b =>
    [Json.hexDigit (b.toNat / 16), Json.hexDigit (b.toNat % 16)]
  return .ofInstant (.ofNanoseconds time.toNanosecondsSinceUnixEpoch.toInt) (String.ofList nonce)

/-- Colours are shown on a terminal, unless the environment asks for them or refuses them. -/
def coloursWanted : IO Bool := do
  if (← IO.getEnv "CLICOLOR_FORCE").any (· ≠ "0") then return true
  if (← IO.getEnv "NO_COLOR").isSome then return false
  if (← IO.getEnv "CLICOLOR") == some "0" then return false
  (← IO.getStdout).isTty

/-- A client that cannot be started. -/
def noClient : Client.Launch Unit := fun _ s => (.error IoError.noEntry.message, s)

end Readiness

section

open Readiness

/-- Answers the command line on the work tree around the directory it names. -/
def main (words : List String) : IO UInt32 := do
  let cwd := Path.plain (toString (← IO.currentDir))
  let dir := match Arguments.read words with
    | .ok invocation => invocation.dir
    | .error _ => Arguments.defaultDir
  let (files, graph) ← Disk.load cwd dir
  let surroundings : Surroundings := ⟨cwd, graph, ← coloursWanted, ← Stamp.now⟩
  let (reply, scene) :=
    CommandLine.answer surroundings (Client.host noClient) words ⟨(), files⟩
  Disk.save files scene.files
  (← IO.getStdout).putStr reply.stdout
  (← IO.getStderr).putStr reply.stderr
  return UInt32.ofNat reply.code

end

import Readiness.Repository.Commit
import Readiness.Repository.Deflate

/-!
# Repository — Object

The objects of a repository as they are stored one in a file, and the commits among them.

* `GitObject.ofFile?` reads the file of an object;
* `GitObject.commit?` reads a commit: headers, one a line, then an empty line and the message.
-/

namespace Readiness

/-- An object: what kind it is of, and its contents. -/
structure GitObject where
  kind : String
  contents : ByteArray

namespace GitObject

/-! ### Files -/

/-- The file of an object inside the git directory. -/
def fileOf (id : String) : String :=
  "objects/" ++ String.ofList (id.toList.take 2) ++ "/" ++ String.ofList (id.toList.drop 2)

/-- The object in the text that a file expands to: kind, size and a zero byte come first. -/
def ofBytes? (bytes : List UInt8) : Option GitObject :=
  let head := bytes.takeWhile (· != 0)
  match bytes.drop head.length with
  | [] => none
  | _ :: contents =>
    let kind := head.takeWhile (· != 0x20)
    some ⟨Text.Utf8.lossy ⟨kind.toArray⟩, ⟨contents.toArray⟩⟩

/-- The object in a file. -/
def ofFile? (bytes : ByteArray) : Option GitObject :=
  (Deflate.expand? bytes 0).bind fun expanded => ofBytes? expanded.toList

/-! ### Commits -/

/-- The lines up to the first empty one, and the bytes after it. -/
def splitHeaders : List UInt8 → List UInt8 → List (List UInt8) × List UInt8
  | [], line => ([line.reverse], [])
  | 0x0A :: rest, [] => ([], rest)
  | 0x0A :: rest, line =>
    let (lines, message) := splitHeaders rest []
    (line.reverse :: lines, message)
  | b :: rest, line => splitHeaders rest (b :: line)

/-- A whole number, perhaps with a minus sign. -/
def integer? (word : String) : Option Int :=
  match word.toList with
  | '-' :: cs => (Text.natural? (2 ^ 63) cs).map fun n => -n
  | cs => (Text.natural? (2 ^ 63) cs).map Int.ofNat

/-- The time in a line about a person: the word before the last. -/
def timeIn (words : List String) : Int :=
  match words.reverse with
  | _ :: time :: _ => (integer? time).getD 0
  | _ => 0

/-- The commit with the given headers, each cut at its blanks. -/
def commitWith (id : String) (headers : List (List String)) (message : ByteArray) : Commit where
  id := id
  time := ((headers.find? fun h => h.head? == some "committer").map timeIn).getD 0
  parents := headers.filterMap fun h =>
    match h with
    | ["parent", p] => some p
    | _ => none
  message := message

/-- The commit that an object is. -/
def commit? (id : String) (o : GitObject) : Option Commit :=
  if o.kind = "commit" then
    let (lines, message) := splitHeaders o.contents.toList []
    let headers := lines.map fun l => Text.split (Text.Utf8.lossy ⟨l.toArray⟩) ' '
    some (commitWith id headers ⟨message.toArray⟩)
  else none

end GitObject

end Readiness

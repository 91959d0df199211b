import Readiness.Text.Lowercase
import Readiness.Document.Record

/-!
# Stack

The primary tooling of a project.  A check may be declared for one stack; it then belongs to a step
only where that stack is detected.
-/

namespace Readiness

inductive Stack where
  | python
  | node
  | rust
  | go
  | unknown
deriving DecidableEq, Repr

namespace Stack

def all : List Stack := [.python, .node, .rust, .go, .unknown]

def name : Stack → String
  | .python  => "python"
  | .node    => "node"
  | .rust    => "rust"
  | .go      => "go"
  | .unknown => "unknown"

/-- The stack with this very name. -/
def ofName? (s : String) : Option Stack := all.find? fun t => t.name == s

/-- The stack a word names, in any case. -/
def parse (s : String) : Except String Stack :=
  match ofName? (Text.toLower s) with
  | some t => .ok t
  | none => .error ("Invalid stack: " ++ s ++ ". Use: python, node, rust, go")

/-- The files that mark a stack, the first present one deciding. -/
def markers : List (String × Stack) :=
  [("pyproject.toml", .python), ("setup.py", .python), ("requirements.txt", .python),
   ("package.json", .node), ("Cargo.toml", .rust), ("go.mod", .go)]

/-- The stack of a directory, of which `isFile` says what regular files it holds. -/
def detect (isFile : String → Bool) : Stack :=
  ((markers.find? fun m => isFile m.1).map (·.2)).getD .unknown

/-- A variant is its name, or a table with the name as its only key and nothing inside. -/
def decode : Decoder Stack
  | .text (some s) => variant s
  | .table [(s, .table [] _)] _ | .table [(s, .list [] _)] _ => variant s
  | .broken | .outOfRange | .text none => .error .malformed
  | _ => .error .unusable
where
  variant (s : String) : Except Fault Stack :=
    match ofName? s with
    | some t => .ok t
    | none => .error (.unknownVariant s (all.map name))

end Stack

end Readiness

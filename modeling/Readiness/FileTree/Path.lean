import Readiness.Text.Basic

/-!
# FileTree — Path

Paths as they are written, and the operations that do not look at a file.

* `Path.join` appends one path to another;
* `Path.segments` are the names between the slashes, `Path.plain` those that name something;
* `Path.below?` is a path seen from one of its ancestors.
-/

namespace Readiness.Path

def isAbsolute (p : String) : Bool := Text.hasStart p "/"

/-- `p` seen from `base`; an absolute path stands for itself. -/
def join (base p : String) : String :=
  if isAbsolute p then p
  else if base = "" ∨ (Text.stripEnd? base "/").isSome then base ++ p
  else base ++ "/" ++ p

/-- The names between the slashes, empty ones too. -/
def segments (p : String) : List String := Text.split p '/'

/-- The segment names something: it is neither empty nor a dot. -/
def isPlain (s : String) : Bool := s != "" && s != "."

/-- The segments that name something. -/
def plain (p : String) : List String := (segments p).filter isPlain

/-- The absolute path with these names. -/
def ofNames (names : List String) : String := "/" ++ Text.join "/" names

/-- The segments after those that name `base`. -/
def dropNames : List String → List String → Option (List String)
  | [], ss => some (ss.dropWhile fun s => !isPlain s)
  | _ :: _, [] => none
  | b :: bs, s :: ss =>
    if !isPlain s then dropNames (b :: bs) ss
    else if b = s then dropNames bs ss
    else none

/-- The absolute path `p` from its ancestor `base` on, where it has this ancestor. -/
def below? (base p : String) : Option String :=
  if isAbsolute p then (dropNames (plain base) (segments p)).map (Text.join "/") else none

end Readiness.Path

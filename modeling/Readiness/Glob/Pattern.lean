import Readiness.Text.Basic

/-!
# Glob — Pattern

Patterns for names and paths.

* `Pattern.parse` reads a pattern and refuses one that is malformed;
* `Pattern.accepts` says which names a pattern without a recursive wildcard matches;
* `Glob.parse` reads a pattern for paths as one pattern for each segment.

A question mark stands for one character, an asterisk for any number, brackets for one character of
a set; there are no escapes.  Two asterisks, alone in a segment, stand for any directories.
-/

namespace Readiness.Glob

/-! ### Patterns -/

/-- Characters in brackets: from one to the other. -/
structure Span where
  low : Char
  high : Char
deriving DecidableEq, Repr

inductive Token where
  | char (c : Char)
  | anyChar
  | anyText
  /-- Any directories, also none. -/
  | anyDirectories
  | oneOf (spans : List Span)
  | noneOf (spans : List Span)
deriving DecidableEq, Repr

abbrev Pattern := List Token

/-- Why a pattern is malformed. -/
inductive Malformed where
  | wildcards
  | recursiveWildcards
  | range
deriving DecidableEq, Repr

def Malformed.message : Malformed → String
  | .wildcards          => "wildcards are either regular \x60*\x60 or recursive \x60**\x60"
  | .recursiveWildcards => "recursive wildcards must form a single path component"
  | .range              => "invalid range pattern"

/-! ### Reading -/

/-- The sets in brackets; a hyphen between two characters makes a range of them. -/
def spans : List Char → List Span
  | a :: '-' :: b :: cs => ⟨a, b⟩ :: spans cs
  | a :: cs => ⟨a, a⟩ :: spans cs
  | [] => []

/-- The characters before the first closing bracket, and the text after it. -/
def splitBracket : List Char → Option (List Char × List Char)
  | [] => none
  | ']' :: cs => some ([], cs)
  | c :: cs => (splitBracket cs).map fun (inner, rest) => (c :: inner, rest)

/-- A set after its opening bracket.  It is not empty: a closing bracket in the first place is one
of its characters. -/
def readSet : List Char → Option (Token × List Char)
  | '!' :: c :: cs =>
    (splitBracket cs).map fun (inner, rest) => (.noneOf (spans (c :: inner)), rest)
  | ['!'] => none
  | c :: cs => (splitBracket cs).map fun (inner, rest) => (.oneOf (spans (c :: inner)), rest)
  | [] => none

/-- Reads a pattern after the character `before`. -/
def Pattern.read (fuel : Nat) (before : Option Char) (cs : List Char) : Except Malformed Pattern :=
  match fuel, cs with
  | 0, _ | _, [] => .ok []
  | fuel + 1, '?' :: cs => return .anyChar :: (← Pattern.read fuel (some '?') cs)
  | _, '*' :: '*' :: '*' :: _ => .error .wildcards
  | fuel + 1, '*' :: '*' :: cs =>
    if before.all (· == '/') then
      match cs with
      | [] => .ok [.anyDirectories]
      | '/' :: cs => return .anyDirectories :: (← Pattern.read fuel (some '/') cs)
      | _ => .error .recursiveWildcards
    else .error .recursiveWildcards
  | fuel + 1, '*' :: cs => return .anyText :: (← Pattern.read fuel (some '*') cs)
  | fuel + 1, '[' :: cs =>
    match readSet cs with
    | some (t, rest) => return t :: (← Pattern.read fuel (some ']') rest)
    | none => .error .range
  | fuel + 1, c :: cs => return .char c :: (← Pattern.read fuel (some c) cs)

def Pattern.parse (cs : List Char) : Except Malformed Pattern := Pattern.read cs.length none cs

/-! ### Matching names -/

/-- The character is in one of the spans. -/
def within (spans : List Span) (c : Char) : Bool := spans.any fun s => s.low ≤ c && c ≤ s.high

/-- A token that stands for one character stands for this one. -/
def Token.fits (c : Char) : Token → Bool
  | .char d => c == d
  | .anyChar => true
  | .oneOf s => within s c
  | .noneOf s => !within s c
  | .anyText | .anyDirectories => false

/-- Some rest of the text satisfies `p`. -/
def anyRest (p : List Char → Bool) : List Char → Bool
  | [] => p []
  | c :: cs => p (c :: cs) || anyRest p cs

/-- The pattern matches the whole name. -/
def Pattern.accepts : Pattern → List Char → Bool
  | [], cs => cs.isEmpty
  | .anyText :: p, cs => anyRest (Pattern.accepts p) cs
  | _ :: _, [] => false
  | t :: p, c :: cs => t.fits c && Pattern.accepts p cs

/-- The name a pattern without wildcards stands for. -/
def Pattern.literal? : Pattern → Option (List Char)
  | [] => some []
  | .char c :: p => (Pattern.literal? p).map (c :: ·)
  | _ :: _ => none

end Readiness.Glob

/-! ### Paths -/

/-- A pattern for paths. -/
structure Readiness.Glob where
  segments : List Readiness.Glob.Pattern
  /-- Only directories match. -/
  directory : Bool
deriving DecidableEq, Repr

namespace Readiness.Glob

/-- The segments of a path; a slash at its end does not begin another one. -/
def pathSegments (p : List Char) : List (List Char) :=
  let ss := Text.pieces '/' p
  if ss.getLast? = some [] then ss.dropLast else ss

/-- A pattern for paths below some directory.  It must be well formed as a whole, and so must each
segment be. -/
def parse (p : String) : Except Malformed Glob := do
  let cs := p.toList
  let _ ← Pattern.read cs.length (some '/') cs
  let ss ← (pathSegments cs).mapM Pattern.parse
  return ⟨ss, cs.isEmpty || cs.getLast? == some '/'⟩

end Readiness.Glob

import Readiness.FileTree.Access
import Readiness.Text.Utf8

/-!
# Repository — Reference

References: names for commits, kept in files of the git directory or packed into one.

* `Reference.parse?` reads the file of a reference, `packed?` a line of the packed ones;
* `Reference.isName` says what may be the name of a reference.
-/

namespace Readiness

inductive Reference where
  /-- It names a commit. -/
  | direct (id : String)
  /-- It stands for another reference. -/
  | symbolic (target : String)
deriving DecidableEq, Repr

namespace Reference

/-! ### Files -/

def isSpace (c : Char) : Bool :=
  c == ' ' || c == '\t' || c == '\n' || c == '\r' || c == '\x0B' || c == '\x0C'

def isHexDigit (c : Char) : Bool :=
  c.isDigit || ('a' ≤ c && c ≤ 'f') || ('A' ≤ c && c ≤ 'F')

/-- The object id a text begins with, and the rest. -/
def takeId? (cs : List Char) : Option (String × List Char) :=
  let digits := cs.take 40
  if digits.length = 40 ∧ digits.all isHexDigit then
    some (String.ofList (digits.map Char.toLower), cs.drop 40)
  else none

def symbolicStart : List Char := ['r', 'e', 'f', ':', ' ']

/-- A text without the white space at its end. -/
def trimEnd (cs : List Char) : List Char := (cs.reverse.dropWhile isSpace).reverse

/-- The reference in the text of its file. -/
def parse? (text : String) : Option Reference :=
  if Text.startsWith symbolicStart text.toList then
    match Text.dropStart? symbolicStart (trimEnd text.toList) with
    | some (c :: r) => some (.symbolic (String.ofList (c :: r)))
    | _ => none
  else
    match takeId? text.toList with
    | some (id, []) => some (.direct id)
    | some (id, c :: _) => if isSpace c then some (.direct id) else none
    | none => none

/-- The text of a reference's file. -/
def encode : Reference → String
  | .direct id => id ++ "\n"
  | .symbolic target => "ref: " ++ target ++ "\n"

/-- The id a line of packed references gives to `name`. -/
def packed? (name : String) (line : List Char) : Option String :=
  match takeId? line with
  | some (id, ' ' :: r) => if trimEnd r = name.toList then some id else none
  | _ => none

/-! ### Names -/

/-- A character that no name holds. -/
def isForbidden (c : Char) : Bool :=
  c.toNat ≤ 0x20 || ['~', '^', ':', '\\', '?', '[', '*'].contains c

/-- The characters `a` and `b` stand side by side. -/
def hasPair (a b : Char) : List Char → Bool
  | x :: y :: r => (x == a && y == b) || hasPair a b (y :: r)
  | _ => false

/-- A part of a name between slashes. -/
def isComponent (cs : List Char) : Bool :=
  cs.head? != some '.' && !cs.any isForbidden && !hasPair '.' '.' cs && !hasPair '@' '\x7B' cs &&
    (Text.dropEnd? ".lock".toList cs).isNone

/-- A name of capitals, such as `HEAD`. -/
def isCapitals (cs : List Char) : Bool :=
  cs.all (fun c => c.isUpper || c == '_') && cs.head? != some '_' && cs.getLast? != some '_'

/-- Parts that make a name: one of capitals, or several of which the first is not of capitals. -/
def isParts : List (List Char) → Bool
  | [] => false
  | [p] => isCapitals p
  | p :: _ :: _ => !isCapitals p

/-- The name of a reference.  Slashes may be doubled inside it. -/
def isName (name : String) : Bool :=
  let parts := Text.pieces '/' name.toList
  name != "" && name.toList.head? != some '/' && name.toList.getLast? != some '/' &&
    name.toList.getLast? != some '.' && parts.all isComponent &&
    isParts (parts.filter fun p => !p.isEmpty)

/-- A name without doubled slashes. -/
def normalize (name : String) : String :=
  Text.join "/" ((Text.split name '/').filter (· ≠ ""))

end Reference

end Readiness

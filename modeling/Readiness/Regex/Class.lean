import Readiness.Regex.Expr
import Readiness.Unicode.Folding
import Readiness.Unicode.Property
import Readiness.Unicode.Script

/-!
# Regex — Class

The sets of characters that have names.

* `Mode` says what letters mean: their case may not count, and they may be ASCII only;
* `perl`, `posix?` and `unicode?` give the sets of escapes, of ASCII names and of properties.
-/

namespace Readiness.Regex

open Unicode (CharSet)

/-- How characters are compared. -/
structure Mode where
  ignoreCase : Bool
  /-- Not ASCII alone. -/
  unicode : Bool

def ascii : CharSet := .range 0 0x7F

namespace Mode

/-- The set with everything that differs from a member by case alone, if case does not count. -/
def fold (m : Mode) (s : CharSet) : CharSet :=
  if !m.ignoreCase then s
  else if m.unicode then s.closed
  else s.union ((s.inter ascii).closed.inter ascii)

/-- All other characters; ASCII has no such set. -/
def negate? (m : Mode) (s : CharSet) : Option CharSet :=
  if m.unicode then some s.complement else none

/-- The set, or all other characters, after folding. -/
def finish? (m : Mode) (negated : Bool) (s : CharSet) : Option CharSet :=
  if negated then m.negate? (m.fold s) else some (m.fold s)

end Mode

/-! ### Escapes -/

/-- The characters of words. -/
def wordChars (unicode : Bool) : CharSet :=
  if unicode then
    .unions [Unicode.alphabetic.set, Unicode.charsOf Unicode.marks,
      Unicode.charsOf [.decimalNumber, .connectorPunctuation], Unicode.joinControl.set]
  else .ofRanges [(0x30, 0x39), (0x41, 0x5A), (0x5F, 0x5F), (0x61, 0x7A)]

def digits (unicode : Bool) : CharSet :=
  if unicode then Unicode.charsOf [.decimalNumber] else .range 0x30 0x39

def spaces (unicode : Bool) : CharSet :=
  if unicode then Unicode.whiteSpace.set else .ofRanges [(9, 13), (32, 32)]

/-- The set of an escape: digits, blanks or characters of words, in upper case all others. -/
def perl? (unicode : Bool) : Char → Option (CharSet × Bool)
  | 'd' => some (digits unicode, false)
  | 's' => some (spaces unicode, false)
  | 'w' => some (wordChars unicode, false)
  | 'D' => some (digits unicode, true)
  | 'S' => some (spaces unicode, true)
  | 'W' => some (wordChars unicode, true)
  | _ => none

/-! ### Names -/

/-- The ranges of ASCII that have names. -/
def posixTable : List (String × List (Char × Char)) :=
  [("alnum", [('0', '9'), ('A', 'Z'), ('a', 'z')]), ("alpha", [('A', 'Z'), ('a', 'z')]),
   ("ascii", [('\x00', '\x7F')]), ("blank", [('\t', '\t'), (' ', ' ')]),
   ("cntrl", [('\x00', '\x1F'), ('\x7F', '\x7F')]), ("digit", [('0', '9')]),
   ("graph", [('!', '~')]), ("lower", [('a', 'z')]), ("print", [(' ', '~')]),
   ("punct", [('!', '/'), (':', '@'), ('[', '\x60'), ('\x7B', '~')]),
   ("space", [('\t', '\r'), (' ', ' ')]), ("upper", [('A', 'Z')]),
   ("word", [('0', '9'), ('A', 'Z'), ('_', '_'), ('a', 'z')]),
   ("xdigit", [('0', '9'), ('A', 'F'), ('a', 'f')])]

def posix? (name : String) : Option CharSet :=
  (posixTable.lookup name).map fun rs => .ofRanges (rs.map fun r => (r.1.toNat, r.2.toNat))

/-- A name in lowercase without blanks, hyphens, underscores and what is not ASCII. -/
def normalize (name : String) : String :=
  let cs := name.toList
  let lowered := (cs.take 2).map Char.toLower == ['i', 's']
  let kept := (if lowered then cs.drop 2 else cs).filter fun c =>
    c.toNat < 0x80 && c != ' ' && c != '_' && c != '-'
  let s := String.ofList (kept.map Char.toLower)
  if lowered && s == "c" then "isc" else s

/-- The sets that are named like categories. -/
def category? (name : String) : Option CharSet :=
  if name = "any" then some .all
  else if name = "ascii" then some ascii
  else if name = "assigned" then some (Unicode.charsOf [.unassigned]).complement
  else (Unicode.categories? name).map Unicode.charsOf

/-- Abbreviations that are those of categories first. -/
def categoriesFirst : List String := ["cf", "sc", "lc"]

/-- The set that a single name stands for: of a property, a category or a script. -/
def named? (name : String) : Option CharSet :=
  let n := normalize name
  if categoriesFirst.contains n then category? n
  else ((Unicode.property? n).or (category? n)).or (Unicode.script? n)

/-- The set of the characters with a value of a property. -/
def valued? (property value : String) : Option CharSet :=
  let p := normalize property
  let v := normalize value
  if p = "gc" ∨ p = "generalcategory" then category? v
  else if p = "sc" ∨ p = "script" then Unicode.script? v
  else if p = "scx" ∨ p = "scriptextensions" then Unicode.scriptExtension? v
  else none

/-- The text before the first `sep` and after it. -/
def splitAt? (sep : List Char) : List Char → Option (List Char × List Char)
  | [] => none
  | c :: cs =>
    match Text.dropStart? sep (c :: cs) with
    | some rest => some ([], rest)
    | none => (splitAt? sep cs).map fun (a, b) => (c :: a, b)

/-- The set of a property in braces, and whether it is all others. -/
def unicode? (name : List Char) : Option (CharSet × Bool) :=
  let valued := fun (p v : List Char) => valued? (String.ofList p) (String.ofList v)
  match splitAt? ['!', '='] name with
  | some (p, v) => (valued p v).map fun s => (s, true)
  | none =>
    match (splitAt? [':'] name).or (splitAt? ['='] name) with
    | some (p, v) => (valued p v).map fun s => (s, false)
    | none => (named? (String.ofList name)).map fun s => (s, false)

end Readiness.Regex

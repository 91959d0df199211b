import Readiness.Text.Basic

/-!
# Repository — Config

The settings of a repository: sections in brackets, one setting a line.

* `Config.entries` reads settings under their full names, such as `core.bare`;
* `Config.value?` is the last value of a setting.

Names of sections and settings know no case, the quoted part of a section does.
-/

namespace Readiness.Config

/-- A setting under its full name.  One without an equals sign has no value. -/
abbrev Entry := String × Option String

def lower (cs : List Char) : List Char := cs.map Char.toLower

def isBlank (c : Char) : Bool := c == ' ' || c == '\t' || c == '\r'

/-- A character that begins a comment. -/
def isComment (c : Char) : Bool := c == '#' || c == ';'

/-! ### Sections -/

/-- The text up to a closing quote, and the rest; a backslash keeps the character after it. -/
def quoted : List Char → Option (List Char × List Char)
  | [] => none
  | '"' :: r => some ([], r)
  | '\\' :: c :: r => (quoted r).map fun (t, rest) => (c :: t, rest)
  | c :: r => (quoted r).map fun (t, rest) => (c :: t, rest)

/-- The name in a section line after its bracket, and what follows the closing bracket. -/
def section? (cs : List Char) : Option (List Char × List Char) :=
  let name := cs.takeWhile fun c => c != ']' && c != '"' && !isBlank c
  match (cs.drop name.length).dropWhile isBlank with
  | ']' :: r => some (lower name, r)
  | '"' :: r =>
    match quoted r with
    | some (sub, ']' :: rest) => some (lower name ++ '.' :: sub, rest)
    | _ => none
  | _ => none

/-! ### Values -/

/-- A value without its quotes and its comment; `inside` says that a quote is open. -/
def unquote (inside : Bool) : List Char → List Char
  | [] => []
  | '"' :: r => unquote (!inside) r
  | '\\' :: 'n' :: r => '\n' :: unquote inside r
  | '\\' :: 't' :: r => '\t' :: unquote inside r
  | '\\' :: c :: r => c :: unquote inside r
  | c :: r => if !inside && isComment c then [] else c :: unquote inside r

/-- The setting in a line of a section. -/
def setting? (sectionName line : List Char) : Option Entry :=
  let name := line.takeWhile fun c => c.isAlphanum || c == '-'
  let key := String.ofList (sectionName ++ '.' :: lower name)
  if name.isEmpty then none
  else
    match (line.drop name.length).dropWhile isBlank with
    | '=' :: r => some (key, some (String.ofList (Text.trimBy isBlank (unquote false r))))
    | _ => some (key, none)

/-! ### Files -/

/-- What a line says after the section `current`: the section it leads to, and a setting. -/
def readLine (current line : List Char) : List Char × Option Entry :=
  match line.dropWhile isBlank with
  | '[' :: r =>
    match section? r with
    | some (name, rest) => (name, setting? name (rest.dropWhile isBlank))
    | none => (current, none)
  | cs => (current, setting? current cs)

/-- The settings in lines that follow the section `current`. -/
def entriesFrom (current : List Char) : List (List Char) → List Entry
  | [] => []
  | line :: rest =>
    (readLine current line).2.toList ++ entriesFrom (readLine current line).1 rest

/-- The settings in a text. -/
def entries (text : String) : List Entry := entriesFrom [] (Text.pieces '\n' text.toList)

/-- The last value of a setting; inside it, whether it has a text at all. -/
def value? (es : List Entry) (key : String) : Option (Option String) :=
  (es.reverse.find? fun e => e.1 == key).map (·.2)

/-- The words that switch a setting off. -/
def noWords : List String := ["false", "no", "off", "0", ""]

/-- The setting is switched on.  One without a value is, and so is one whose value is no word for
off. -/
def isOn (es : List Entry) (key : String) : Bool :=
  match value? es key with
  | none => false
  | some none => true
  | some (some v) => !noWords.contains (String.ofList (lower v.toList))

end Readiness.Config

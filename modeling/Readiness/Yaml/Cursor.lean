/-!
# Yaml — Cursor

A position in a text, with the line and column it stands at.

* `Cursor.skip` and `Cursor.skipBreak` move over one character and over one line break;
* `Cursor.span` takes the characters of a class within a line;
* `Cursor.readGap` takes the blanks and line breaks between two words, which `Gap.text` folds.
-/

namespace Readiness.Yaml

/-! ### Classes of characters -/

def isBlank (c : Char) : Bool := c == ' ' || c == '\t'

/-- A line break; the Unicode line and paragraph separators are among them. -/
def isBreak (c : Char) : Bool :=
  c == '\n' || c == '\r' || c == '\x85' || c == '\u2028' || c == '\u2029'

/-- A character of names: of directives, anchors and tag handles. -/
def isWordChar (c : Char) : Bool := c.isAlphanum || c == '_' || c == '-'

/-- A character a text may hold at all. -/
def isAllowed (c : Char) : Bool :=
  let n := c.toNat
  n == 9 || n == 10 || n == 13 || (0x20 ≤ n && n ≤ 0x7E) || n == 0x85 ||
    (0xA0 ≤ n && n ≤ 0xD7FF) || (0xE000 ≤ n && n ≤ 0xFFFD) || 0x10000 ≤ n

/-- At a line break, or at the end of the text. -/
def endsLine : Option Char → Bool
  | none => true
  | some c => isBreak c

/-- At a blank, a line break or the end of the text. -/
def endsWord : Option Char → Bool
  | none => true
  | some c => isBlank c || isBreak c

/-! ### Moving -/

/-- What is left of a text, and where that stands. -/
structure Cursor where
  rest : List Char
  index : Nat
  line : Nat
  column : Nat

namespace Cursor

def ofText (s : String) : Cursor := ⟨s.toList, 0, 0, 0⟩

def peek (c : Cursor) : Option Char := c.rest.head?

/-- The character `n` places on. -/
def peekAt (c : Cursor) (n : Nat) : Option Char := c.rest[n]?

/-- The next character is this one. -/
def sees (c : Cursor) (x : Char) : Bool := c.peek == some x

/-- Over `n` characters of one line. -/
def skipMany (n : Nat) (c : Cursor) : Cursor :=
  ⟨c.rest.drop n, c.index + n, c.line, c.column + n⟩

def skip (c : Cursor) : Cursor := c.skipMany 1

/-- Over a line break, of which a carriage return and a line feed together are one. -/
def skipBreak (c : Cursor) : Cursor :=
  match c.rest with
  | '\r' :: '\n' :: r => ⟨r, c.index + 2, c.line + 1, 0⟩
  | _ :: r => ⟨r, c.index + 1, c.line + 1, 0⟩
  | [] => c

/-- The text of the line break at the cursor; nothing at the end of the text. -/
def breakText (c : Cursor) : List Char :=
  match c.peek with
  | some x => if x = '\u2028' ∨ x = '\u2029' then [x] else ['\n']
  | none => []

/-- The characters of a class that has no line breaks, and the cursor after them. -/
def span (p : Char → Bool) (c : Cursor) : List Char × Cursor :=
  let word := c.rest.takeWhile p
  (word, c.skipMany word.length)

def skipBlanks (c : Cursor) : Cursor := (c.span isBlank).2

/-- To the end of the line. -/
def skipLine (c : Cursor) : Cursor := (c.span fun x => !isBreak x).2

/-- Over blanks and a comment to the end of the line, and over that. -/
def endLine (c : Cursor) : Option Cursor :=
  let c := c.skipBlanks
  let c := if c.sees '#' then c.skipLine else c
  if endsLine c.peek then some (if c.rest.isEmpty then c else c.skipBreak) else none

/-- The line is a document marker: three of this character, then nothing or a blank. -/
def atMarker (x : Char) (c : Cursor) : Bool :=
  c.column == 0 && c.rest.take 3 == [x, x, x] && endsWord (c.peekAt 3)

def atDocumentMarker (c : Cursor) : Bool := c.atMarker '-' || c.atMarker '.'

end Cursor

/-! ### Gaps -/

/-- What stands between two words: blanks, and the line breaks after them. -/
structure Gap where
  blanks : List Char
  /-- There is a line break. -/
  broken : Bool
  first : List Char
  more : List Char

namespace Gap

def empty : Gap := ⟨[], false, [], []⟩

/-- A gap folded: a single line feed is a blank, a first one of several falls away. -/
def text (g : Gap) : List Char :=
  if !g.broken then g.blanks
  else if g.first = ['\n'] then (if g.more = [] then [' '] else g.more)
  else g.first ++ g.more

/-- One line break more; blanks before the first one do not count. -/
def addBreak (g : Gap) (text : List Char) : Gap :=
  if g.broken then { g with more := g.more ++ text } else ⟨[], true, text, []⟩

/-- One blank more; after a line break it is indentation. -/
def addBlank (g : Gap) (x : Char) : Gap :=
  if g.broken then g else { g with blanks := g.blanks ++ [x] }

end Gap

/-- The gap at the cursor.  A tab may not stand before column `indent` of a new line. -/
def Cursor.readGap (fuel indent : Nat) (g : Gap) (c : Cursor) : Option (Gap × Cursor) :=
  match fuel, c.peek with
  | fuel + 1, some x =>
    if isBlank x then
      if g.broken && c.column < indent && x == '\t' then none
      else readGap fuel indent (g.addBlank x) c.skip
    else if isBreak x then readGap fuel indent (g.addBreak c.breakText) c.skipBreak
    else some (g, c)
  | _, _ => some (g, c)

end Readiness.Yaml

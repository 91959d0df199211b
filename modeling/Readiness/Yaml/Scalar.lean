import Readiness.Json.Reader
import Readiness.Yaml.Cursor

/-!
# Yaml — Scalar

Reading one scalar from a cursor: plain, quoted, or a block of lines.

* `readPlain` ends where an indicator or a smaller indentation ends it;
* `readQuoted` folds line breaks and, between double quotes, resolves escapes;
* `readBlock` keeps the lines of a block, or folds them.
-/

namespace Readiness.Yaml

/-! ### Plain scalars -/

def isFlowIndicator (c : Char) : Bool :=
  c == ',' || c == '[' || c == ']' || c == '\x7b' || c == '\x7d'

/-- The characters up to a blank, a line break or an indicator.  Inside brackets a colon may not
stand right before one of theirs. -/
def plainWord (flow : Bool) : List Char → Option (List Char)
  | [] => some []
  | x :: xs =>
    if endsWord (some x) then some []
    else if flow && x == ':' && xs.head?.any fun y => isFlowIndicator y || y == '?' then none
    else if (x == ':' && endsWord xs.head?) || (flow && isFlowIndicator x) then some []
    else (plainWord flow xs).map (x :: ·)

/-- A plain scalar. -/
structure Plain where
  text : List Char
  /-- It ended after a line break. -/
  broken : Bool
  next : Cursor

/-- Reads words and the gaps between them; lines go on at column `indent` or beyond. -/
def readPlainFrom (fuel : Nat) (flow : Bool) (indent : Nat) (text : List Char) (gap : Gap)
    (c : Cursor) : Option Plain :=
  match fuel with
  | 0 => none
  | fuel + 1 =>
    if c.atDocumentMarker || c.sees '#' then some ⟨text, gap.broken, c⟩
    else do
      let word ← plainWord flow c.rest
      let text := if word.isEmpty then text else text ++ gap.text ++ word
      let gap := if word.isEmpty then gap else .empty
      let c := c.skipMany word.length
      if c.peek.isNone || !endsWord c.peek then return ⟨text, gap.broken, c⟩
      else
        let (gap, c) ← c.readGap (c.rest.length + 1) indent gap
        if !flow && c.column < indent then return ⟨text, gap.broken, c⟩
        else readPlainFrom fuel flow indent text gap c

def readPlain (flow : Bool) (indent : Nat) (c : Cursor) : Option Plain :=
  readPlainFrom (c.rest.length + 1) flow indent [] .empty c

/-! ### Quoted scalars -/

/-- What an escape of one letter stands for. -/
def escape? : Char → Option Char
  | '0' => some '\x00'
  | 'a' => some '\x07'
  | 'b' => some '\x08'
  | 't' | '\t' => some '\t'
  | 'n' => some '\n'
  | 'v' => some '\x0B'
  | 'f' => some '\x0C'
  | 'r' => some '\r'
  | 'e' => some '\x1B'
  | ' ' => some ' '
  | '"' => some '"'
  | '/' => some '/'
  | '\\' => some '\\'
  | 'N' => some '\x85'
  | '_' => some '\xA0'
  | 'L' => some '\u2028'
  | 'P' => some '\u2029'
  | _ => none

/-- How many hexadecimal digits follow the letter of an escape. -/
def escapeLength? : Char → Option Nat
  | 'x' => some 2
  | 'u' => some 4
  | 'U' => some 8
  | _ => none

/-- The scalar value that hexadecimal digits name. -/
def scalar? (ds : List Char) : Option Char := do
  let values ← ds.mapM Json.hexDigit?
  let n := values.foldl (fun n d => n * 16 + d) 0
  if n.isValidChar then some (Char.ofNat n) else none

/-- The escape at the cursor, which stands on its backslash. -/
def readEscape (c : Cursor) : Option (Char × Cursor) := do
  let letter ← c.peekAt 1
  match escape? letter with
  | some x => return (x, c.skipMany 2)
  | none =>
    let n ← escapeLength? letter
    let digits := (c.rest.drop 2).take n
    if digits.length = n then return (← scalar? digits, c.skipMany (2 + n)) else none

/-- The characters up to the closing quote, a blank or a line break, and whether an escaped line
break ended them. -/
def quotedWord (fuel : Nat) (single : Bool) (word : List Char) (c : Cursor) :
    Option (List Char × Bool × Cursor) :=
  match fuel, c.rest with
  | fuel + 1, x :: xs =>
    if endsWord (some x) then some (word.reverse, false, c)
    else if single then
      if x = '\'' then
        if xs.head? = some '\'' then quotedWord fuel single ('\'' :: word) (c.skipMany 2)
        else some (word.reverse, false, c)
      else quotedWord fuel single (x :: word) c.skip
    else if x = '"' then some (word.reverse, false, c)
    else if x = '\\' then
      if xs.head?.any isBreak then some (word.reverse, true, c.skip.skipBreak)
      else
        match readEscape c with
        | some (y, c) => quotedWord fuel single (y :: word) c
        | none => none
    else quotedWord fuel single (x :: word) c.skip
  | _, _ => some (word.reverse, false, c)

/-- Reads on to the closing quote. -/
def readQuotedFrom (fuel : Nat) (single : Bool) (text : List Char) (c : Cursor) :
    Option (List Char × Cursor) :=
  match fuel with
  | 0 => none
  | fuel + 1 =>
    if c.atDocumentMarker || c.rest.isEmpty then none
    else do
      let (word, escaped, c) ← quotedWord (c.rest.length + 1) single [] c
      let text := text ++ word
      if c.sees (if single then '\'' else '"') then return (text, c.skip)
      else
        let (gap, c) ← c.readGap (c.rest.length + 1) 0 { Gap.empty with broken := escaped }
        readQuotedFrom fuel single (text ++ gap.text) c

/-- A scalar between quotes; the cursor stands on the opening one. -/
def readQuoted (single : Bool) (c : Cursor) : Option (List Char × Cursor) :=
  readQuotedFrom (c.rest.length + 2) single [] c.skip

/-! ### Blocks -/

/-- What becomes of the line breaks that end a block. -/
inductive Chomping where
  | strip
  | clip
  | keep
deriving DecidableEq

/-- The header of a block: its chomping, its explicit indentation, and the cursor after it. -/
structure BlockHeader where
  chomping : Chomping
  increment : Option Nat
  next : Cursor

def chomping? (c : Cursor) : Option Chomping :=
  if c.sees '+' then some .keep else if c.sees '-' then some .strip else none

/-- An indentation indicator, from 1 to 9. -/
def readIncrement (c : Cursor) : Option (Option Nat × Cursor) :=
  match c.peek with
  | some x =>
    if x.isDigit then
      if x = '0' then none else some (some (x.toNat - '0'.toNat), c.skip)
    else some (none, c)
  | none => some (none, c)

/-- The header after the indicator of the block. -/
def readBlockHeader (c : Cursor) : Option BlockHeader := do
  match chomping? c with
  | some chomping =>
    let (increment, c) ← readIncrement c.skip
    return ⟨chomping, increment, ← c.endLine⟩
  | none =>
    let (increment, c) ← readIncrement c
    match increment, chomping? c with
    | some n, some chomping => return ⟨chomping, some n, ← c.skip.endLine⟩
    | _, _ => return ⟨.clip, increment, ← c.endLine⟩

/-- The empty lines at the cursor, with the indentation of the line after them: `widest` is the
largest so far, and without an `indent` any number of blanks is indentation. -/
def readEmptyLines (fuel : Nat) (indent : Option Nat) (widest : Nat) (breaks : List Char)
    (c : Cursor) : Option (List Char × Nat × Cursor) :=
  match fuel with
  | 0 => none
  | fuel + 1 =>
    let blanks := (c.rest.takeWhile (· == ' ')).length
    let c := c.skipMany (match indent with | some n => min blanks (n - c.column) | none => blanks)
    let widest := max widest c.column
    if (indent.all fun n => c.column < n) && c.sees '\t' then none
    else if c.peek.any isBreak then
      readEmptyLines fuel indent widest (breaks ++ c.breakText) c.skipBreak
    else some (breaks, widest, c)

/-- Reads the lines of a block.  `held` is the line break before the cursor, `breaks` are those of
the empty lines after it, and `blankBefore` says that the last line began with a blank. -/
def readLines (fuel : Nat) (folded : Bool) (indent : Nat) (blankBefore : Bool)
    (text held breaks : List Char) (c : Cursor) :
    Option (List Char × List Char × List Char × Cursor) :=
  match fuel with
  | 0 => none
  | fuel + 1 =>
    if c.column != indent || c.rest.isEmpty then some (text, held, breaks, c)
    else
      let blank := c.peek.any isBlank
      let joint :=
        if folded && held == ['\n'] && !blankBefore && !blank then
          if breaks.isEmpty then [' '] else []
        else held
      let (line, c) := c.span fun x => !isBreak x
      let text := text ++ joint ++ breaks ++ line
      let held := c.breakText
      let c := c.skipBreak
      match readEmptyLines (c.rest.length + 1) (some indent) 0 [] c with
      | none => none
      | some (breaks, _, c) => readLines fuel folded indent blank text held breaks c

/-- A block inside a collection whose entries stand at column `parent`; the cursor stands on its
indicator. -/
def readBlock (folded : Bool) (parent : Option Nat) (c : Cursor) :
    Option (List Char × Cursor) := do
  let header ← readBlockHeader c.skip
  let explicit := header.increment.map fun n => parent.getD 0 + n
  let (breaks, widest, c) ←
    readEmptyLines (header.next.rest.length + 1) explicit 0 [] header.next
  let least := max 1 (match parent with | some n => n + 1 | none => 0)
  let indent := explicit.getD (max widest least)
  let (text, held, breaks, c) ←
    readLines (c.rest.length + 1) folded indent false [] [] breaks c
  return (match header.chomping with
    | .strip => text
    | .clip => text ++ held
    | .keep => text ++ held ++ breaks, c)

end Readiness.Yaml

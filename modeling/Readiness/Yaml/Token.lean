import Readiness.Yaml.Scalar

/-!
# Yaml — Token

The tokens of a text.  Indentation and the keys of mappings become tokens of their own, so that
what follows needs neither lines nor columns.

* `Token` lists the tokens;
* `Layout` is the state in which one token after the other is read;
* `Token.scan?` reads a whole text.

A key is only known as one when its colon is met.  `Layout` remembers where a possible key began,
and puts the key token in there afterwards.
-/

namespace Readiness.Yaml

inductive Token where
  | streamEnd
  | version (major minor : Nat)
  | tagDirective (handle start : String)
  | documentStart
  | documentEnd
  | blockSequence
  | blockMapping
  | blockEnd
  | flowSequence
  | flowSequenceEnd
  | flowMapping
  | flowMappingEnd
  | blockEntry
  | flowEntry
  | key
  | value
  | alias (name : String)
  | anchor (name : String)
  /-- A tag; one without a handle is given in full. -/
  | tag (handle suffix : String)
  | scalar (text : String) (plain : Bool)
deriving DecidableEq, Repr

/-! ### Names -/

/-- A name that is not empty, of an anchor or an alias; the cursor stands on its indicator. -/
def readName (c : Cursor) : Option (String × Cursor) :=
  let (word, c) := c.skip.span isWordChar
  let ends := endsWord c.peek || c.peek.any fun x => "?:,]\x7d%@\x60".toList.contains x
  if !word.isEmpty && ends then some (String.ofList word, c) else none

/-- A tag handle: an exclamation mark, a name, and perhaps another mark. -/
def readHandle (c : Cursor) : Option (List Char × Cursor) :=
  if !c.sees '!' then none
  else
    let (word, c) := c.skip.span isWordChar
    if c.sees '!' then some ('!' :: word ++ ['!'], c.skip) else some ('!' :: word, c)

/-- A character of a tag; those of brackets only in one that is given in full. -/
def isTagChar (full : Bool) (c : Char) : Bool :=
  isWordChar c || ";/?:@&=+$.!~*'()".toList.contains c ||
    (full && (c == ',' || c == '[' || c == ']'))

/-- The octet that an escape in a tag stands for. -/
def octet? : List Char → Option Nat
  | '%' :: a :: b :: _ => do return (← Json.hexDigit? a) * 16 + (← Json.hexDigit? b)
  | _ => none

/-- How many octets follow the first one of a character. -/
def octetsAfter? (n : Nat) : Option Nat :=
  if n < 0x80 then some 0
  else if 0xC0 ≤ n ∧ n < 0xE0 then some 1
  else if 0xE0 ≤ n ∧ n < 0xF0 then some 2
  else if 0xF0 ≤ n ∧ n < 0xF8 then some 3
  else none

/-- Over `n` escapes, each for an octet inside a character. -/
def skipOctets : Nat → Cursor → Option Cursor
  | 0, c => some c
  | n + 1, c => do
    let o ← octet? c.rest
    if 0x80 ≤ o ∧ o < 0xC0 then skipOctets n (c.skipMany 3) else none

/-- An escaped character of a tag.  Beyond ASCII it is enough that there is one. -/
def readTagEscape (c : Cursor) : Option (Char × Cursor) := do
  let o ← octet? c.rest
  let more ← octetsAfter? o
  let next ← skipOctets more (c.skipMany 3)
  return (if more = 0 then Char.ofNat o else '\uFFFD', next)

/-- The characters of a tag, those in `word` read already. -/
def readTagChars (fuel : Nat) (full : Bool) (word : List Char) (c : Cursor) :
    Option (List Char × Cursor) :=
  match fuel, c.peek with
  | fuel + 1, some x =>
    if x = '%' then
      match readTagEscape c with
      | some (y, c) => readTagChars fuel full (y :: word) c
      | none => none
    else if isTagChar full x then readTagChars fuel full (x :: word) c.skip
    else some (word.reverse, c)
  | _, _ => some (word.reverse, c)

/-- At least one character of a tag. -/
def readTagWord (full : Bool) (c : Cursor) : Option (List Char × Cursor) := do
  let (word, c) ← readTagChars (c.rest.length + 1) full [] c
  if word.isEmpty then none else some (word, c)

/-- The handle and the suffix of the tag at the cursor. -/
def readTagParts (c : Cursor) : Option (String × String × Cursor) :=
  if c.peekAt 1 = some '<' then do
    let (word, c) ← readTagWord true (c.skipMany 2)
    if c.sees '>' then return ("", String.ofList word, c.skip) else none
  else do
    let (handle, c) ← readHandle c
    if 1 < handle.length ∧ handle.getLast? = some '!' then do
      let (word, c) ← readTagWord false c
      return (String.ofList handle, String.ofList word, c)
    else do
      let (word, c) ← readTagChars (c.rest.length + 1) false [] c
      let suffix := handle.tail ++ word
      return (if suffix.isEmpty then ("", "!", c) else ("!", String.ofList suffix, c))

/-- A tag ends a word, or inside brackets stands before a comma. -/
def readTag (flow : Bool) (c : Cursor) : Option (Token × Cursor) := do
  let (handle, suffix, c) ← readTagParts c
  if endsWord c.peek || (flow && c.sees ',') then return (.tag handle suffix, c) else none

/-! ### Directives -/

/-- A number of at most nine digits. -/
def readNumber (c : Cursor) : Option (Nat × Cursor) :=
  let (ds, c) := c.span Char.isDigit
  if ds.isEmpty || 9 < ds.length then none
  else some (ds.foldl (fun n d => n * 10 + (d.toNat - '0'.toNat)) 0, c)

def readVersion (c : Cursor) : Option (Token × Cursor) := do
  let (major, c) ← readNumber c.skipBlanks
  if !c.sees '.' then none
  let (minor, c) ← readNumber c.skip
  return (.version major minor, c)

def readTagDirective (c : Cursor) : Option (Token × Cursor) := do
  let (handle, c) ← readHandle c.skipBlanks
  if handle != ['!'] && handle.getLast? != some '!' then none
  if !c.peek.any isBlank then none
  let (start, c) ← readTagWord true c.skipBlanks
  if endsWord c.peek then
    return (.tagDirective (String.ofList handle) (String.ofList start), c)
  else none

/-- A directive; the cursor stands on its percent sign. -/
def readDirective (c : Cursor) : Option (Token × Cursor) := do
  let (name, c) := c.skip.span isWordChar
  if !endsWord c.peek then none
  let (token, c) ←
    if name = "YAML".toList then readVersion c
    else if name = "TAG".toList then readTagDirective c
    else none
  return (token, ← c.endLine)

/-! ### Layout -/

/-- Where a key may have begun. -/
structure PossibleKey where
  /-- Nothing but a key can stand there. -/
  required : Bool
  /-- How many tokens there were before it. -/
  position : Nat
  index : Nat
  line : Nat
  column : Nat

/-- A text of which some tokens have been read. -/
structure Layout where
  cursor : Cursor
  tokens : Array Token
  /-- The columns of the open block collections, the innermost first. -/
  indents : List Nat
  /-- The possible key outside all brackets or inside the innermost ones. -/
  key : Option PossibleKey
  /-- The possible keys outside of each open bracket. -/
  outer : List (Option PossibleKey)
  keyAllowed : Bool

namespace Layout

def ofCursor (c : Cursor) : Layout := ⟨c, #[], [], none, [], true⟩

/-- Inside brackets. -/
def flow (l : Layout) : Bool := !l.outer.isEmpty

def push (t : Token) (l : Layout) : Layout := { l with tokens := l.tokens.push t }

/-- A token of `n` characters at the cursor. -/
def take (t : Token) (n : Nat) (l : Layout) : Layout :=
  { l with tokens := l.tokens.push t, cursor := l.cursor.skipMany n }

def allow (keyAllowed : Bool) (l : Layout) : Layout := { l with keyAllowed }

/-- A possible key may be given up. -/
def isFree : Option PossibleKey → Bool
  | some k => !k.required
  | none => true

/-- Gives the possible key up. -/
def dropKey (l : Layout) : Option Layout :=
  if isFree l.key then some { l with key := none } else none

/-- A key, where one is allowed, may begin here. -/
def markKey (l : Layout) : Option Layout :=
  if !l.keyAllowed then some l
  else do
    let l ← l.dropKey
    let c := l.cursor
    let required := !l.flow && l.indents.head? == some c.column
    return { l with key := some ⟨required, l.tokens.size, c.index, c.line, c.column⟩ }

/-- A key is on one line and no longer than this. -/
def keyMax : Nat := 1024

/-- The key cannot end at the cursor any more. -/
def isStale (c : Cursor) (k : PossibleKey) : Bool := k.line < c.line || k.index + keyMax < c.index

/-- Gives up the possible keys that cannot end here any more. -/
def dropStale (l : Layout) : Option Layout :=
  let stale := fun k : Option PossibleKey => k.any (isStale l.cursor)
  if (l.key :: l.outer).all fun k => !stale k || isFree k then
    some { l with
      key := if stale l.key then none else l.key
      outer := l.outer.map fun k => if stale k then none else k }
  else none

/-- Opens a block collection at a column, if it is further in than the open ones; its token gets
the given position. -/
def indent (column position : Nat) (t : Token) (l : Layout) : Layout :=
  if !l.flow && l.indents.head?.all (· < column) then
    { l with
      indents := column :: l.indents
      tokens := l.tokens.insertIdxIfInBounds position t }
  else l

/-- How many block collections are open further in than a column; all are, without one. -/
def deeper (column : Option Nat) (indents : List Nat) : List Nat :=
  indents.dropWhile fun i => column.all (· < i)

/-- Closes the block collections further in than a column, or all. -/
def close (column : Option Nat) (l : Layout) : Layout :=
  if l.flow then l
  else
    let indents := deeper column l.indents
    let ends := Array.replicate (l.indents.length - indents.length) Token.blockEnd
    { l with indents, tokens := l.tokens ++ ends }

/-- To the next token, over blanks, comments and line breaks.  A tab is no indentation. -/
def skipSpace (fuel : Nat) (l : Layout) : Layout :=
  match fuel with
  | 0 => l
  | fuel + 1 =>
    let c := l.cursor
    let c := if c.index = 0 ∧ c.sees '\uFEFF' then c.skip else c
    let c := (c.span fun x => x == ' ' || (x == '\t' && (l.flow || !l.keyAllowed))).2
    let c := if c.sees '#' then c.skipLine else c
    if c.peek.any isBreak then
      skipSpace fuel { l with cursor := c.skipBreak, keyAllowed := l.keyAllowed || !l.flow }
    else { l with cursor := c }

/-! ### Tokens at the cursor -/

/-- Closes everything before a directive or a document marker. -/
def endDocument (l : Layout) : Option Layout := do
  let l ← (l.close none).dropKey
  return l.allow false

def readMarker (t : Token) (l : Layout) : Option Layout := do
  let l ← l.endDocument
  return l.take t 3

def openBracket (t : Token) (l : Layout) : Option Layout := do
  let l ← l.markKey
  return ({ l with key := none, outer := l.key :: l.outer }.allow true).take t 1

def closeBracket (t : Token) (l : Layout) : Option Layout := do
  let l ← l.dropKey
  let l := match l.outer with
    | k :: outer => { l with key := k, outer }
    | [] => l
  return (l.allow false).take t 1

def readFlowEntry (l : Layout) : Option Layout := do
  let l ← l.dropKey
  return (l.allow true).take .flowEntry 1

/-- Opens a block collection for an indicator at the cursor; one may only stand where a key may. -/
def enter (t : Token) (l : Layout) : Option Layout :=
  if l.flow then some l
  else if l.keyAllowed then some (l.indent l.cursor.column l.tokens.size t)
  else none

def readBlockEntry (l : Layout) : Option Layout := do
  let l ← l.enter .blockSequence
  let l ← l.dropKey
  return (l.allow true).take .blockEntry 1

def readKey (l : Layout) : Option Layout := do
  let l ← l.enter .blockMapping
  let l ← l.dropKey
  return (l.allow !l.flow).take .key 1

/-- A colon makes the possible key a key. -/
def readValue (l : Layout) : Option Layout :=
  match l.key with
  | some k =>
    let l := { l with tokens := l.tokens.insertIdxIfInBounds k.position .key }
    let l := { l.indent k.column k.position .blockMapping with key := none }
    some ((l.allow false).take .value 1)
  | none => do
    let l ← l.enter .blockMapping
    return (l.allow !l.flow).take .value 1

/-- A token that may be, or begin, a key. -/
def readContent (read : Cursor → Option (Token × Cursor)) (l : Layout) : Option Layout := do
  let l ← l.markKey
  let (t, cursor) ← read l.cursor
  return ({ l with cursor }.allow false).push t

def readQuotedToken (single : Bool) (c : Cursor) : Option (Token × Cursor) :=
  (readQuoted single c).map fun (text, c) => (.scalar (String.ofList text) false, c)

def readBlockToken (folded : Bool) (l : Layout) : Option Layout := do
  let l ← l.dropKey
  let (text, cursor) ← readBlock folded l.indents.head? l.cursor
  return ({ l with cursor }.allow true).push (.scalar (String.ofList text) false)

/-- After a line break another key may begin. -/
def readPlainToken (l : Layout) : Option Layout := do
  let l ← l.markKey
  let p ← readPlain l.flow (match l.indents.head? with | some n => n + 1 | none => 0) l.cursor
  return ({ l with cursor := p.next }.allow p.broken).push (.scalar (String.ofList p.text) true)

/-- A character no plain scalar begins with. -/
def isIndicator (c : Char) : Bool := "-?:,[]\x7b\x7d#&*!|>'\"%@\x60".toList.contains c

/-- A plain scalar begins with `x` before `next`. -/
def beginsPlain (flow : Bool) (x : Char) (next : Option Char) : Bool :=
  !(endsWord (some x) || isIndicator x) || (x == '-' && !next.any isBlank) ||
    (!flow && (x == '?' || x == ':') && !endsWord next)

/-- The token at the cursor, which stands on `x`. -/
def readToken (x : Char) (l : Layout) : Option Layout :=
  let c := l.cursor
  let next := c.peekAt 1
  let alone := l.flow || endsWord next
  if c.column = 0 ∧ x = '%' then do
    let l ← l.endDocument
    let (t, cursor) ← readDirective c
    return { l with cursor }.push t
  else if c.atMarker '-' then l.readMarker .documentStart
  else if c.atMarker '.' then l.readMarker .documentEnd
  else if x = '[' then l.openBracket .flowSequence
  else if x = '\x7b' then l.openBracket .flowMapping
  else if x = ']' then l.closeBracket .flowSequenceEnd
  else if x = '\x7d' then l.closeBracket .flowMappingEnd
  else if x = ',' then l.readFlowEntry
  else if x = '-' && endsWord next then l.readBlockEntry
  else if x = '?' && alone then l.readKey
  else if x = ':' && alone then l.readValue
  else if x = '*' then l.readContent fun c => (readName c).map fun (n, c) => (.alias n, c)
  else if x = '&' then l.readContent fun c => (readName c).map fun (n, c) => (.anchor n, c)
  else if x = '!' then l.readContent (readTag l.flow)
  else if x = '|' && !l.flow then l.readBlockToken false
  else if x = '>' && !l.flow then l.readBlockToken true
  else if x = '\'' then l.readContent (readQuotedToken true)
  else if x = '"' then l.readContent (readQuotedToken false)
  else if beginsPlain l.flow x next then l.readPlainToken
  else none

/-- Reads on to the end of the text. -/
def readAll (fuel : Nat) (l : Layout) : Option (Array Token) :=
  match fuel with
  | 0 => none
  | fuel + 1 => do
    let l ← (l.skipSpace (l.cursor.rest.length + 1)).dropStale
    let l := l.close (some l.cursor.column)
    match l.cursor.peek with
    | none =>
      let l ← (l.close none).dropKey
      return (l.push .streamEnd).tokens
    | some x => readAll fuel (← l.readToken x)

end Layout

/-- The tokens of a text.  A byte order mark before it does not count. -/
def Token.scan? (s : String) : Option (List Token) :=
  let cs := match s.toList with
    | '\uFEFF' :: cs => cs
    | cs => cs
  if cs.all isAllowed then
    ((Layout.ofCursor ⟨cs, 0, 0, 0⟩).readAll (cs.length + 2)).map Array.toList
  else none

end Readiness.Yaml

import Readiness.Regex.Class
import Readiness.Text.Blank

/-!
# Regex — Reader

Reading regular expressions.  What is malformed, or asks for what cannot be expressed, has no
reading.

* `readBracket` reads a set in brackets, with nested sets and operations on them;
* `readAlternatives` reads an expression up to a closing parenthesis or the end;
* `Expr.parse?` reads a whole text and bounds what it compiles to.

There are no look-around groups and no references to groups.  Flags may be set inside a group for
the rest of it; with the flag `x`, blanks and comments do not count.
-/

namespace Readiness.Regex

open Unicode (CharSet)

structure Flags where
  ignoreCase : Bool := false
  multiLine : Bool := false
  dotAll : Bool := false
  unicode : Bool := true
  crlf : Bool := false
  /-- Blanks and comments do not count. -/
  spaced : Bool := false

def Flags.mode (f : Flags) : Mode := ⟨f.ignoreCase, f.unicode⟩

/-! ### Blanks and numbers -/

/-- Over blanks and comments. -/
def skipSpaced : List Char → List Char
  | [] => []
  | '#' :: cs => skipSpacedComment cs
  | c :: cs => if Text.isBlank c then skipSpaced cs else c :: cs
where
  skipSpacedComment : List Char → List Char
    | [] => []
    | '\n' :: cs => skipSpaced cs
    | _ :: cs => skipSpacedComment cs

def skip (f : Flags) (cs : List Char) : List Char := if f.spaced then skipSpaced cs else cs

/-- The character after the next one, over blanks and the sign of a comment. -/
def second? (f : Flags) (cs : List Char) : Option Char :=
  if !f.spaced then cs[1]?
  else
    match cs.tail.dropWhile Text.isBlank with
    | '#' :: r => (r.dropWhile Text.isBlank).head?
    | r => r.head?

/-- A count, with blanks around it. -/
def readCount (f : Flags) (cs : List Char) : Option (Nat × List Char) :=
  let rec digits (fuel : Nat) (acc : List Char) (cs : List Char) : List Char × List Char :=
    match fuel, cs with
    | fuel + 1, c :: r => if c.isDigit then digits fuel (acc ++ [c]) (skip f r) else (acc, cs)
    | _, _ => (acc, cs)
  let (ds, rest) := digits cs.length [] (cs.dropWhile Text.isBlank)
  let n := ds.foldl (fun n d => n * 10 + (d.toNat - '0'.toNat)) 0
  if ds.isEmpty || 2 ^ 32 ≤ n then none else some (n, skip f (rest.dropWhile Text.isBlank))

/-! ### Escapes -/

/-- What an escape stands for. -/
inductive Atom where
  | char (c : Char)
  | set (s : CharSet)
  | look (l : Look)

/-- The characters up to a closing brace, over blanks. -/
def readBraced (fuel : Nat) (f : Flags) (acc : List Char) (cs : List Char) :
    Option (List Char × List Char) :=
  match fuel, skip f cs with
  | 0, _ | _, [] => none
  | _ + 1, '\x7d' :: cs => some (acc.reverse, cs)
  | fuel + 1, c :: cs => readBraced fuel f (c :: acc) cs

def ofHex? (ds : List Char) : Option Char := do
  let values ← ds.mapM Json.hexDigit?
  let n := values.foldl (fun n d => n * 16 + d) 0
  if ds.isEmpty then none
  else if n.isValidChar then some (Char.ofNat n)
  else none

/-- `n` hexadecimal digits, over blanks. -/
def readDigits (f : Flags) : Nat → List Char → Option (List Char × List Char)
  | 0, cs => some ([], cs)
  | n + 1, cs =>
    match skip f cs with
    | [] => none
    | c :: cs => (readDigits f n cs).map fun (ds, rest) => (c :: ds, rest)

/-- The character of a hexadecimal escape after its letter.  Two digits name a byte, which without
Unicode must be in ASCII. -/
def readHex (f : Flags) (letter : Char) (cs : List Char) : Option (Char × List Char) :=
  match skip f cs with
  | '\x7b' :: cs => do
    let (ds, rest) ← readBraced (cs.length + 1) f [] cs
    return (← ofHex? ds, rest)
  | cs => do
    let (ds, rest) ← readDigits f (if letter = 'x' then 2 else if letter = 'u' then 4 else 8) cs
    let c ← ofHex? ds
    if letter = 'x' ∧ !f.unicode ∧ 0x80 ≤ c.toNat then none else some (c, rest)

/-- A property after its letter, of which a capital one means all others. -/
def readProperty (f : Flags) (negated : Bool) (cs : List Char) : Option (CharSet × List Char) := do
  let (name, rest) ← match skip f cs with
    | '\x7b' :: cs => readBraced (cs.length + 1) f [] cs
    | '\\' :: _ | [] => none
    | c :: cs => some ([c], cs)
  let (s, others) ← unicode? name
  if !f.unicode then none
  return (← f.mode.finish? (negated != others) s, rest)

/-- The kinds of word boundaries that have names. -/
def namedLook? (ascii : Bool) (name : String) : Option Look :=
  [("start", Look.wordStart ascii), ("end", .wordEnd ascii), ("start-half", .afterNoWord ascii),
   ("end-half", .beforeNoWord ascii)].lookup name

def isBoundaryChar (c : Char) : Bool := c.isAlpha || c == '-'

/-- The name of a word boundary after its opening brace; none when it is a count. -/
def readBoundary (f : Flags) (cs : List Char) : Option (Option (Look × List Char)) :=
  match skip f cs with
  | [] => none
  | c :: cs =>
    if !isBoundaryChar c then some none
    else do
      let (name, rest) ← readBraced (cs.length + 2) f [] (c :: cs)
      if !name.all isBoundaryChar then none
      return some (← namedLook? (!f.unicode) (String.ofList name), rest)

/-- The characters that have a meaning, or may get one. -/
def isMeta (c : Char) : Bool := "\\.+*?()|[]\x7b\x7d^$#&-~".toList.contains c

/-- The character may be escaped, though it has no meaning. -/
def isEscapable (c : Char) : Bool :=
  isMeta c || (c.toNat < 0x80 && !c.isAlphanum && c != '<' && c != '>')

/-- The escapes of one letter. -/
def letterEscape? (ascii : Bool) : Char → Option Atom
  | 'a' => some (.char '\x07')
  | 'f' => some (.char '\x0C')
  | 't' => some (.char '\t')
  | 'n' => some (.char '\n')
  | 'r' => some (.char '\r')
  | 'v' => some (.char '\x0B')
  | 'A' => some (.look .textStart)
  | 'z' => some (.look .textEnd)
  | 'b' => some (.look (.wordEdge ascii))
  | 'B' => some (.look (.noWordEdge ascii))
  | '<' => some (.look (.wordStart ascii))
  | '>' => some (.look (.wordEnd ascii))
  | _ => none

/-- An escape after its backslash. -/
def readEscape (f : Flags) : List Char → Option (Atom × List Char)
  | [] => none
  | c :: cs =>
    if c = 'x' ∨ c = 'u' ∨ c = 'U' then (readHex f c cs).map fun (c, rest) => (.char c, rest)
    else if c = 'p' ∨ c = 'P' then
      (readProperty f (c == 'P') cs).map fun (s, rest) => (.set s, rest)
    else
      match perl? f.unicode c with
      | some (s, negated) =>
        (if negated then f.mode.negate? s else some s).map fun s => (.set s, cs)
      | none =>
        if isEscapable c then some (.char c, cs)
        else
          match c, cs with
          | 'b', '\x7b' :: rest => do
            match ← readBoundary f rest with
            | some (l, rest) => return (.look l, rest)
            | none => return (.look (.wordEdge (!f.unicode)), cs)
          | _, _ => (letterEscape? (!f.unicode) c).map fun a => (a, cs)

/-! ### Brackets -/

/-- Operations on sets in brackets; all of them are applied from the left. -/
inductive SetOp where
  | inter
  | difference
  | symmetricDifference
deriving DecidableEq

def SetOp.apply : SetOp → CharSet → CharSet → CharSet
  | .inter, s, t => s.inter t
  | .difference, s, t => s.difference t
  | .symmetricDifference, s, t => s.symmetricDifference t

/-- The operation that two equal characters are. -/
def setOp? : List Char → Option (SetOp × List Char)
  | '&' :: '&' :: cs => some (.inter, cs)
  | '-' :: '-' :: cs => some (.difference, cs)
  | '~' :: '~' :: cs => some (.symmetricDifference, cs)
  | _ => none

/-- A set with how deep it is nested. -/
structure Nested where
  set : CharSet
  depth : Nat

/-- What has been read inside brackets: an operation waiting for its second set, and the items of
the set that is being read. -/
structure Bracket where
  left : Option (Nested × SetOp) := none
  items : List Nested := []

namespace Bracket

def add (b : Bracket) (x : Nested) : Bracket := { b with items := x :: b.items }

/-- The items as one set. -/
def union (b : Bracket) : Nested :=
  let depth := b.items.foldl (fun d x => max d x.depth) 0
  ⟨.unions (b.items.map Nested.set), if 1 < b.items.length then depth + 1 else depth⟩

/-- The items, and the operation before them applied.  The sets are folded for it. -/
def value (m : Mode) (b : Bracket) : Nested :=
  let right := b.union
  match b.left with
  | none => right
  | some (left, op) =>
    ⟨op.apply (m.fold left.set) (m.fold right.set), max left.depth right.depth + 1⟩

end Bracket

/-- A named ASCII set after its opening bracket. -/
def readPosix (cs : List Char) : Option ((CharSet × Bool) × List Char) := do
  let cs ← Text.dropStart? [':'] cs
  let (negated, cs) := match cs with
    | '^' :: r => (true, r)
    | r => (false, r)
  let (name, rest) := cs.span (· != ':')
  let rest ← Text.dropStart? [':', ']'] rest
  return ((← posix? (String.ofList name), negated), rest)

/-- One character or set in brackets. -/
def readBracketAtom (f : Flags) : List Char → Option (Atom × List Char)
  | '\\' :: cs => readEscape f cs
  | c :: cs => some (.char c, cs)
  | [] => none

/-- Without Unicode, brackets hold ASCII alone. -/
def bracketChar? (f : Flags) (c : Char) : Option Char :=
  if !f.unicode && 0x80 ≤ c.toNat then none else some c

/-- A character, a set or a range in brackets. -/
def readBracketItem (f : Flags) (cs : List Char) : Option (CharSet × List Char) := do
  let (atom, rest) ← readBracketAtom f cs
  let rest := skip f rest
  let next := second? f rest
  if rest.isEmpty then none
  else if rest.head? != some '-' || next == some ']' || next == some '-' then
    match atom with
    | .char c => return (.singleton (← bracketChar? f c), rest)
    | .set s => return (s, rest)
    | .look _ => none
  else
    let (other, rest) ← readBracketAtom f (skip f rest.tail)
    match atom, other with
    | .char a, .char b =>
      let a ← bracketChar? f a
      let b ← bracketChar? f b
      if a ≤ b then return (.range a.toNat b.toNat, rest) else none
    | _, _ => none

/-- Hyphens, or else a closing bracket, right after the opening are characters of the set. -/
def readFirst (f : Flags) (fuel : Nat) (b : Bracket) (cs : List Char) : Bracket × List Char :=
  match fuel, cs with
  | fuel + 1, '-' :: r => readFirst f fuel (b.add ⟨.singleton '-', 0⟩) (skip f r)
  | _, ']' :: r => if b.items.isEmpty then (b.add ⟨.singleton ']', 0⟩, skip f r) else (b, cs)
  | _, _ => (b, cs)

/-- A set after its opening bracket. -/
def readBracket (fuel : Nat) (f : Flags) (cs : List Char) : Option (Nested × List Char) :=
  match fuel with
  | 0 => none
  | fuel + 1 =>
    let cs := skip f cs
    let (negated, cs) := match cs with
      | '^' :: r => (true, skip f r)
      | _ => (false, cs)
    let (b, cs) := readFirst f cs.length {} cs
    match items fuel b cs with
    | none => none
    | some (x, rest) =>
      (f.mode.finish? negated x.set).map fun s => (⟨s, x.depth + 1⟩, rest)
where
  /-- The rest of a set up to its closing bracket. -/
  items (fuel : Nat) (b : Bracket) (cs : List Char) : Option (Nested × List Char) :=
    match fuel with
    | 0 => none
    | fuel + 1 =>
      match skip f cs with
      | [] => none
      | ']' :: rest => some (b.value f.mode, rest)
      | '[' :: rest =>
        match readPosix rest with
        | some ((s, negated), rest) =>
          match f.mode.finish? negated s with
          | some s => items fuel (b.add ⟨s, 0⟩) rest
          | none => none
        | none =>
          match readBracket fuel f rest with
          | some (x, rest) => items fuel (b.add x) rest
          | none => none
      | cs =>
        match setOp? cs with
        | some (op, rest) => items fuel { left := some (b.value f.mode, op) } rest
        | none =>
          match readBracketItem f cs with
          | some (s, rest) => items fuel (b.add ⟨s, 0⟩) rest
          | none => none

/-! ### Groups -/

/-- A flag by its letter; how eager repetitions are makes no difference to what matches. -/
def setFlag? (on : Bool) (f : Flags) : Char → Option Flags
  | 'i' => some { f with ignoreCase := on }
  | 'm' => some { f with multiLine := on }
  | 's' => some { f with dotAll := on }
  | 'U' => some f
  | 'u' => some { f with unicode := on }
  | 'R' => some { f with crlf := on }
  | 'x' => some { f with spaced := on }
  | _ => none

/-- The flags before a colon or a closing parenthesis, each at most once; those after a hyphen are
cleared.  Gives the letters as well. -/
def readFlags (seen : List Char) (f : Flags) : List Char → Option (Flags × List Char × List Char)
  | [] => none
  | c :: cs =>
    if c = ':' ∨ c = ')' then
      if seen.head? = some '-' then none else some (f, seen, c :: cs)
    else if seen.contains c then none
    else if c = '-' then readFlags (c :: seen) f cs
    else
      match setFlag? (!seen.contains '-') f c with
      | some f => readFlags (c :: seen) f cs
      | none => none

/-- A character of a group's name. -/
def isNameChar (first : Bool) (c : Char) : Bool :=
  c == '_' || Unicode.alphabetic.set.contains c.toNat ||
    (!first && (c == '.' || c == '[' || c == ']' ||
      (Unicode.charsOf Unicode.numbers).contains c.toNat))

/-- The name of a group up to its closing bracket. -/
def readName (cs : List Char) : Option (List Char × List Char) :=
  let (name, rest) := cs.span (· != '>')
  match name, rest with
  | c :: r, _ :: rest =>
    if isNameChar true c && r.all (isNameChar false) then some (name, rest) else none
  | _, _ => none

/-- How a group begins. -/
inductive Opening where
  /-- Flags for the rest of the group around it. -/
  | flags (f : Flags)
  /-- A group in which these flags hold, and its name if it has one. -/
  | group (f : Flags) (name : Option (List Char)) (captures : Bool)

/-- The beginning of a group after its parenthesis. -/
def readOpening (f : Flags) (cs : List Char) : Option (Opening × List Char) :=
  match skip f cs with
  | '?' :: '=' :: _ | '?' :: '!' :: _ | '?' :: '<' :: '=' :: _ | '?' :: '<' :: '!' :: _ => none
  | '?' :: 'P' :: '<' :: cs | '?' :: '<' :: cs =>
    (readName cs).map fun (name, rest) => (.group f (some name) true, rest)
  | '?' :: cs => do
    let (g, seen, rest) ← readFlags [] f cs
    match rest with
    | ')' :: rest => if seen.isEmpty then none else return (.flags g, rest)
    | _ :: rest => return (.group g none false, rest)
    | [] => none
  | cs => some (.group f none true, cs)

/-! ### Expressions -/

/-- An expression with how deep it is nested. -/
structure Parsed where
  expr : Expr
  depth : Nat

/-- The expressions of a sequence; flags among them are nothing that can be repeated. -/
abbrev Items := List (Option Parsed)

/-- The items as one expression. -/
def sequence (items : Items) : Parsed :=
  let ps := (items.filterMap id).reverse
  let depth := ps.foldl (fun d p => max d p.depth) 0
  ⟨.cats (ps.map Parsed.expr), if 1 < items.length then depth + 1 else depth⟩

/-- The alternatives as one expression. -/
def choice (ps : List Parsed) : Parsed :=
  let depth := ps.foldl (fun d p => max d p.depth) 0
  ⟨.alts (ps.map Parsed.expr), if 1 < ps.length then depth + 1 else depth⟩

/-- Repeats the last item. -/
def repeatLast (min : Nat) (max : Option Nat) : Items → Option Items
  | some p :: items => some (some ⟨.rep p.expr min max, p.depth + 1⟩ :: items)
  | _ => none

/-- Over the question mark that makes a repetition lazy. -/
def skipLazy : List Char → List Char
  | '?' :: cs => cs
  | cs => cs

/-- The bounds of a counted repetition after its opening brace. -/
def readBounds (f : Flags) (cs : List Char) : Option (Nat × Option Nat × List Char) := do
  let (min, rest) ← readCount f (skip f cs)
  let (max, rest) ← match rest with
    | ',' :: rest =>
      match skip f rest with
      | '\x7d' :: rest => some (none, '\x7d' :: rest)
      | rest => (readCount f rest).map fun (n, rest) => (some n, rest)
    | rest => some (some min, rest)
  match rest with
  | '\x7d' :: rest =>
    if max.all (min ≤ ·) then return (min, max, skipLazy (skip f rest)) else none
  | _ => none

/-- A single character. -/
def literal (f : Flags) (c : Char) : Expr := .chars (f.mode.fold (.singleton c))

/-- Any character, of a line unless the flag says otherwise.  Without Unicode it would be a byte. -/
def dot? (f : Flags) : Option Expr :=
  if !f.unicode then none
  else
    let breaks : CharSet :=
      if f.dotAll then .empty else if f.crlf then .ofRanges [(10, 10), (13, 13)] else .range 10 10
    some (.chars breaks.complement)

/-- A character that stands for itself, a dot, an anchor or an escape. -/
def readPrimitive (f : Flags) : List Char → Option (Expr × List Char)
  | '\\' :: cs => do
    let (atom, rest) ← readEscape f cs
    return (match atom with
      | .char c => literal f c
      | .set s => .chars s
      | .look l => .look l, rest)
  | '.' :: cs => (dot? f).map fun e => (e, cs)
  | '^' :: cs => some (.look (if f.multiLine then .lineStart f.crlf else .textStart), cs)
  | '$' :: cs => some (.look (if f.multiLine then .lineEnd f.crlf else .textEnd), cs)
  | c :: cs => some (literal f c, cs)
  | [] => none

/-- The names of groups so far. -/
abbrev Names := List (List Char)

mutual

/-- The items of a sequence, read up to a bar, a closing parenthesis or the end; flags may change on
the way. -/
def readSequence (fuel : Nat) (f : Flags) (names : Names) (items : Items) (cs : List Char) :
    Option (Parsed × Flags × Names × List Char) :=
  match fuel with
  | 0 => none
  | fuel + 1 =>
    match skip f cs with
    | [] => some (sequence items, f, names, [])
    | '|' :: cs => some (sequence items, f, names, '|' :: cs)
    | ')' :: cs => some (sequence items, f, names, ')' :: cs)
    | '?' :: cs => do
      readSequence fuel f names (← repeatLast 0 (some 1) items) (skipLazy cs)
    | '*' :: cs => do readSequence fuel f names (← repeatLast 0 none items) (skipLazy cs)
    | '+' :: cs => do readSequence fuel f names (← repeatLast 1 none items) (skipLazy cs)
    | '\x7b' :: cs => do
      let (min, max, rest) ← readBounds f cs
      readSequence fuel f names (← repeatLast min max items) rest
    | '[' :: cs => do
      let (x, rest) ← readBracket (2 * cs.length + 2) f cs
      readSequence fuel f names (some ⟨.chars x.set, x.depth⟩ :: items) rest
    | '(' :: cs => do
      match ← readOpening f cs with
      | (.flags f, rest) => readSequence fuel f names (none :: items) rest
      | (.group g name captures, rest) =>
        if name.any names.contains then none
        else
          let (p, names, rest) ← readAlternatives fuel g (name.toList ++ names) [] rest
          match rest with
          | ')' :: rest =>
            let e := if captures then .group p.expr else p.expr
            readSequence fuel f names (some ⟨e, p.depth + 1⟩ :: items) rest
          | _ => none
    | cs => do
      let (e, rest) ← readPrimitive f cs
      readSequence fuel f names (some ⟨e, 0⟩ :: items) rest

/-- The alternatives up to a closing parenthesis or the end, those before in `ps`.  Flags that one
sets hold for the next ones. -/
def readAlternatives (fuel : Nat) (f : Flags) (names : Names) (ps : List Parsed)
    (cs : List Char) : Option (Parsed × Names × List Char) :=
  match fuel with
  | 0 => none
  | fuel + 1 => do
    let (p, f, names, rest) ← readSequence fuel f names [] cs
    match rest with
    | '|' :: rest => readAlternatives fuel f names (ps ++ [p]) rest
    | rest => return (choice (ps ++ [p]), names, rest)

end

/-- How deep expressions may be nested. -/
def depthMax : Nat := 250

/-- The expression in a text, if it is well formed and not too large. -/
def Expr.parse? (s : String) : Option Expr := do
  let cs := s.toList
  let (p, _, rest) ← readAlternatives (3 * cs.length + 3) {} [] [] cs
  if rest.isEmpty && p.depth ≤ depthMax && p.expr.cost ≤ costMax then some p.expr else none

end Readiness.Regex

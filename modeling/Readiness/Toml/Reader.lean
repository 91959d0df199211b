import Readiness.Json.Reader
import Readiness.Toml.DateTime
import Readiness.Toml.Table

/-!
# Toml — Reader

Reading TOML text.  A document is read line by line: a header opens a table, any other line binds
a key in the open one.

* `readString`, `scalar?` and `readValue` read values;
* `Toml.read` reads a document, `none` when the text is not TOML.
-/

namespace Readiness.Toml

open Number (Binary64)
open Json (hexDigit?)

/-! ### Blanks and comments -/

def isBlank (c : Char) : Bool := c == ' ' || c == '\t'

/-- A character that may stand in a comment or a string as it is. -/
def isPrintable (c : Char) : Bool := c == '\t' || (0x20 ≤ c.toNat && c.toNat != 0x7F)

def skipBlanks (cs : List Char) : List Char := cs.dropWhile isBlank

/-- The text from the end of an optional comment on; a comment holds no control characters. -/
def skipComment : List Char → Option (List Char)
  | '#' :: cs =>
    match cs.dropWhile isPrintable with
    | [] => some []
    | '\n' :: r => some ('\n' :: r)
    | '\r' :: '\n' :: r => some ('\n' :: r)
    | _ => none
  | cs => some cs

/-- The text after the end of a line, which only blanks and a comment may precede. -/
def endLine (cs : List Char) : Option (List Char) :=
  match skipComment (skipBlanks cs) with
  | some [] => some []
  | some ('\n' :: r) => some r
  | some ('\r' :: '\n' :: r) => some r
  | _ => none

/-- The text after blanks, comments and ends of lines. -/
def skipLines (fuel : Nat) (cs : List Char) : Option (List Char) :=
  match fuel with
  | 0 => some cs
  | fuel + 1 =>
    match skipComment (skipBlanks cs) with
    | some ('\n' :: r) => skipLines fuel r
    | some ('\r' :: '\n' :: r) => skipLines fuel r
    | r => r

/-! ### Strings -/

/-- The scalar value of `n` hexadecimal digits, and what follows. -/
def readScalar (n : Nat) (cs : List Char) : Option (Char × List Char) := do
  let ds ← (cs.take n).mapM hexDigit?
  if ds.length ≠ n then none
  else
    let v := ds.foldl (fun v d => v * 16 + d) 0
    if v.isValidChar then some (Char.ofNat v, cs.drop n) else none

/-- The character of an escape after its backslash, and what follows. -/
def readEscape : List Char → Option (Char × List Char)
  | 'b' :: cs => some ('\x08', cs)
  | 't' :: cs => some ('\t', cs)
  | 'n' :: cs => some ('\n', cs)
  | 'f' :: cs => some ('\x0C', cs)
  | 'r' :: cs => some ('\r', cs)
  | 'e' :: cs => some ('\x1B', cs)
  | '"' :: cs => some ('"', cs)
  | '\\' :: cs => some ('\\', cs)
  | 'x' :: cs => readScalar 2 cs
  | 'u' :: cs => readScalar 4 cs
  | 'U' :: cs => readScalar 8 cs
  | _ => none

/-- The text after a backslash at the end of a line: blanks and ends of lines do not count. -/
def skipContinuation (cs : List Char) : Option (List Char) :=
  match skipBlanks cs with
  | '\n' :: r => some (r.dropWhile fun c => isBlank c || c == '\n' || c == '\r')
  | '\r' :: '\n' :: r => some (r.dropWhile fun c => isBlank c || c == '\n' || c == '\r')
  | _ => none

/-- How a string is written. -/
structure Quoting where
  quote : Char
  escapes : Bool
  multiline : Bool

/-- The end of a string at its quotes: how many of them are content, and what follows.  Three close
a multi-line string, and up to two more in front of them are content. -/
def closing (q : Quoting) (cs : List Char) : Option (Nat × List Char) :=
  if !q.multiline then some (0, cs.drop 1)
  else
    let n := (cs.takeWhile (· == q.quote)).length
    if n < 3 then none else some (min (n - 3) 2, cs.drop (min n 5))

/-- The content of a string, in reverse, and what follows its closing quotes.  Each step consumes a
character. -/
def readContent (fuel : Nat) (q : Quoting) (acc : List Char) (cs : List Char) :
    Option (List Char × List Char) :=
  match fuel with
  | 0 => none
  | fuel + 1 =>
    match cs with
    | [] => none
    | c :: r =>
      if c = q.quote then
        match closing q (c :: r) with
        | some (n, r) => some (List.replicate n c ++ acc, r)
        | none => readContent fuel q (c :: acc) r
      else if c = '\\' ∧ q.escapes then
        match readEscape r with
        | some (e, r) => readContent fuel q (e :: acc) r
        | none =>
          if q.multiline then
            (skipContinuation r).bind fun r => readContent fuel q acc r
          else none
      else if c = '\n' ∧ q.multiline then readContent fuel q (c :: acc) r
      else if c = '\r' ∧ q.multiline ∧ r.head? = some '\n' then readContent fuel q (c :: acc) r
      else if isPrintable c then readContent fuel q (c :: acc) r
      else none

/-- The text after an end of line right behind opening quotes. -/
def dropNewline : List Char → List Char
  | '\n' :: r => r
  | '\r' :: '\n' :: r => r
  | r => r

/-- A string on one line, and what follows. -/
def readLineString (cs : List Char) : Option (String × List Char) :=
  match cs with
  | '"' :: r => content ⟨'"', true, false⟩ r
  | '\'' :: r => content ⟨'\'', false, false⟩ r
  | _ => none
where
  content (q : Quoting) (r : List Char) : Option (String × List Char) :=
    (readContent (r.length + 1) q [] r).map fun (s, r) => (String.ofList s.reverse, r)

/-- A string, and what follows. -/
def readString (cs : List Char) : Option (String × List Char) :=
  match cs with
  | '"' :: '"' :: '"' :: r => content ⟨'"', true, true⟩ (dropNewline r)
  | '\'' :: '\'' :: '\'' :: r => content ⟨'\'', false, true⟩ (dropNewline r)
  | cs => readLineString cs
where
  content (q : Quoting) (r : List Char) : Option (String × List Char) :=
    (readContent (r.length + 1) q [] r).map fun (s, r) => (String.ofList s.reverse, r)

/-! ### Keys -/

def isBareKeyChar (c : Char) : Bool := c.isAlphanum || c == '-' || c == '_'

/-- One part of a key, and what follows. -/
def readKeyPart (cs : List Char) : Option (String × List Char) :=
  let bare := cs.takeWhile isBareKeyChar
  if bare.isEmpty then readLineString cs
  else some (String.ofList bare, cs.dropWhile isBareKeyChar)

/-- A dotted key with blanks around its dots, and what follows. -/
def readKey (fuel : Nat) (cs : List Char) : Option (List String × List Char) :=
  match fuel with
  | 0 => none
  | fuel + 1 =>
    (readKeyPart (skipBlanks cs)).bind fun (k, r) =>
      match skipBlanks r with
      | '.' :: r => (readKey fuel r).map fun (ks, r) => (k :: ks, r)
      | r => some ([k], r)

/-! ### Numbers, truth values, dates -/

/-- Digits of a base, in groups that single underscores separate. -/
def digitGroups? (digit? : Char → Option Nat) (cs : List Char) : Option (List Nat) :=
  let groups := Text.pieces '_' cs
  if groups.any List.isEmpty then none else (groups.flatten).mapM digit?

def digitOf? (base : Nat) (c : Char) : Option Nat := (hexDigit? c).filter (· < base)

def ofDigits (base : Nat) (ds : List Nat) : Nat := ds.foldl (fun n d => n * base + d) 0

/-- An integer of at most 64 bits, with or without a sign. -/
def integer (i : Int) : Reading :=
  if -2 ^ 63 ≤ i ∧ i < 2 ^ 64 then .integer i else .outOfRange

/-- The sign in front of a number, and the rest. -/
def splitSign : List Char → Bool × List Char
  | '-' :: cs => (true, cs)
  | '+' :: cs => (false, cs)
  | cs => (false, cs)

/-- Digits without a leading zero. -/
def wholeDigits? (cs : List Char) : Option (List Nat) :=
  (digitGroups? (digitOf? 10) cs).filter fun ds => ds.length ≤ 1 || ds.head? != some 0

/-- The exponent after its letter. -/
def exponent? (cs : List Char) : Option Int :=
  let (minus, cs) := splitSign cs
  (digitGroups? (digitOf? 10) cs).map fun ds =>
    let n : Nat := ds.foldl (fun n d => min (n * 10 + d) 1000000000) 0
    if minus then -(n : Int) else n

/-- A number with a fraction, an exponent or both. -/
def float? (minus : Bool) (cs : List Char) : Option Reading := do
  let isE (c : Char) : Bool := c == 'e' || c == 'E'
  let mantissa := cs.takeWhile fun c => !isE c
  let e ← match cs.dropWhile fun c => !isE c with
    | [] => some 0
    | _ :: r => exponent? r
  let whole ← wholeDigits? (mantissa.takeWhile (· ≠ '.'))
  let fraction ← match mantissa.dropWhile (· ≠ '.') with
    | [] => some []
    | _ :: r => digitGroups? (digitOf? 10) r
  let x := Binary64.ofDecimal (ofDigits 10 (whole ++ fraction)) (e - fraction.length)
  if x.isInfinite then some .outOfRange else some (.float (if minus then x.neg else x))

/-- A value that is written without quotes and brackets. -/
def scalar? (cs : List Char) : Option Reading :=
  match cs with
  | ['t', 'r', 'u', 'e'] => some (.bool true)
  | ['f', 'a', 'l', 's', 'e'] => some (.bool false)
  | '0' :: 'x' :: r => (digitGroups? (digitOf? 16) r).map fun ds => integer (ofDigits 16 ds)
  | '0' :: 'o' :: r => (digitGroups? (digitOf? 8) r).map fun ds => integer (ofDigits 8 ds)
  | '0' :: 'b' :: r => (digitGroups? (digitOf? 2) r).map fun ds => integer (ofDigits 2 ds)
  | cs =>
    let (minus, r) := splitSign cs
    if r = ['i', 'n', 'f'] then
      some (.float (if minus then Binary64.infinity.neg else .infinity))
    else if r = ['n', 'a', 'n'] then some (.float .nan)
    else
      match wholeDigits? r with
      | some ds =>
        let n : Int := ofDigits 10 ds
        some (integer (if minus then -n else n))
      | none =>
        match DateTime.parse? cs with
        | some t => some (.table [(DateTime.key, .text (some t))] true)
        | none => if r.any fun c => c == '.' || c == 'e' || c == 'E' then float? minus r else none

/-- A character that ends a value without quotes. -/
def isDelimiter (c : Char) : Bool :=
  isBlank c || c == '\n' || c == '\r' || c == ',' || c == ']' || c == '\x7d' || c == '#' ||
    c == '[' || c == '\x7b' || c == '=' || c == '"' || c == '\''

/-- An unquoted value and what follows.  A blank may separate a date from its time. -/
def readScalarValue (cs : List Char) : Option (Reading × List Char) :=
  let word := cs.takeWhile fun c => !isDelimiter c
  let rest := cs.dropWhile fun c => !isDelimiter c
  match (DateTime.date? word), rest with
  | some (_, []), ' ' :: r =>
    if r.head?.any Char.isDigit then
      let time := r.takeWhile fun c => !isDelimiter c
      (scalar? (word ++ ' ' :: time)).map fun v => (v, r.dropWhile fun c => !isDelimiter c)
    else (scalar? word).map fun v => (v, rest)
  | _, _ => (scalar? word).map fun v => (v, rest)

/-! ### Arrays and inline tables -/

/-- How many arrays and inline tables may stand inside each other. -/
def depthMax : Nat := 80

mutual
/-- A value and what follows.  `depth` counts the arrays and inline tables it may still open. -/
def readValue (fuel depth : Nat) (cs : List Char) : Option (Reading × List Char) :=
  match fuel with
  | 0 => none
  | fuel + 1 =>
    match cs with
    | '[' :: r =>
      match depth with
      | 0 => none
      | depth + 1 => (readItems fuel depth r).map fun (xs, r) => (.list xs true, r)
    | '\x7b' :: r =>
      match depth with
      | 0 => none
      | depth + 1 => (readMembers fuel depth [] r).map fun (t, r) => (t.reading, r)
    | '"' :: _ | '\'' :: _ => (readString cs).map fun (s, r) => (.text (some s), r)
    | cs => readScalarValue cs

/-- The items of an array up to its closing bracket. -/
def readItems (fuel depth : Nat) (cs : List Char) : Option (List Reading × List Char) :=
  match fuel with
  | 0 => none
  | fuel + 1 =>
    match skipLines cs.length cs with
    | some (']' :: r) => some ([], r)
    | some r =>
      (readValue fuel depth r).bind fun (x, r) =>
        match skipLines r.length r with
        | some (']' :: r) => some ([x], r)
        | some (',' :: r) => (readItems fuel depth r).map fun (xs, r) => (x :: xs, r)
        | _ => none
    | none => none

/-- The members of an inline table up to its closing brace. -/
def readMembers (fuel depth : Nat) (t : Table) (cs : List Char) : Option (Table × List Char) :=
  match fuel with
  | 0 => none
  | fuel + 1 =>
    match skipLines cs.length cs with
    | some ('\x7d' :: r) => some (t, r)
    | some r =>
      (readKey (r.length + 1) r).bind fun (path, r) =>
        match r with
        | '=' :: r =>
          (readValue fuel depth (skipBlanks r)).bind fun (v, r) =>
            (t.assign path v).bind fun t =>
              match skipLines r.length r with
              | some ('\x7d' :: r) => some (t, r)
              | some (',' :: r) => readMembers fuel depth t r
              | _ => none
        | _ => none
    | none => none
end

/-! ### Documents -/

/-- What has been read of a document: its tables and the path of the open one. -/
structure Progress where
  root : Table
  current : List String

/-- A header after its opening brackets: the path it names and what follows its line. -/
def readHeader (close : List Char) (cs : List Char) : Option (List String × List Char) :=
  (readKey (cs.length + 1) cs).bind fun (path, r) =>
    (Text.dropStart? close r).bind fun r => (endLine r).map fun r => (path, r)

/-- One line that holds a header or a key. -/
def readLine (p : Progress) (cs : List Char) : Option (Progress × List Char) :=
  match cs with
  | '[' :: '[' :: r =>
    (readHeader [']', ']'] r).bind fun (path, r) =>
      (p.root.element path).map fun root => (⟨root, path⟩, r)
  | '[' :: r =>
    (readHeader [']'] r).bind fun (path, r) =>
      (p.root.header path).map fun root => (⟨root, path⟩, r)
  | cs =>
    (readKey (cs.length + 1) cs).bind fun (path, r) =>
      match r with
      | '=' :: r =>
        (readValue (2 * r.length + 2) depthMax (skipBlanks r)).bind fun (v, r) =>
          (p.root.within p.current (Table.assign path v)).bind fun root =>
            (endLine r).map fun r => (⟨root, p.current⟩, r)
      | _ => none

/-- The lines of a document. -/
def readLines (fuel : Nat) (p : Progress) (cs : List Char) : Option Table :=
  match fuel with
  | 0 => none
  | fuel + 1 =>
    match skipLines (cs.length + 1) cs with
    | some [] => some p.root
    | some r => (readLine p r).bind fun (p, r) => readLines fuel p r
    | none => none

/-- A document; a byte order mark in front of it does not count. -/
def read (s : String) : Option Reading :=
  let cs := match s.toList with
    | '\uFEFF' :: cs => cs
    | cs => cs
  (readLines (cs.length + 1) ⟨[], []⟩ cs).map Table.reading

/-- The value of a text, when the text is TOML with numbers of at most 64 bits. -/
def document? (s : String) : Option Document :=
  (read s).bind fun r => r.toDocument? (s.length + 1)

end Readiness.Toml

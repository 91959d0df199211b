import Readiness.Document.Record
import Readiness.Text.Utf8

/-!
# Json — Reader

Reading JSON text.  The input is a list of scalar values with `none` for each ill-formed byte
sequence; the result is a `Reading`, so malformed text is no failure but shows in the reading.

* `Json.readString`, `Json.readNumber` read one token each;
* `Json.readInput` reads a text, and says whether only blanks follow its value;
* `Json.decode` and `Json.document?` are what a text decodes to and the value it is.
-/

namespace Readiness.Json

open Number (Binary64)

/-- Scalar values, `none` for what is no UTF-8. -/
abbrev Input := List (Option Char)

/-- The blanks JSON allows between tokens. -/
def isBlank (c : Option Char) : Bool := c == ' ' || c == '\t' || c == '\n' || c == '\r'

def skipBlanks (cs : Input) : Input := cs.dropWhile isBlank

/-! ### Strings -/

def hexDigit? (c : Char) : Option Nat :=
  if '0' ≤ c && c ≤ '9' then some (c.toNat - '0'.toNat)
  else if 'a' ≤ c && c ≤ 'f' then some (c.toNat - 'a'.toNat + 10)
  else if 'A' ≤ c && c ≤ 'F' then some (c.toNat - 'A'.toNat + 10)
  else none

/-- The value of four hexadecimal digits. -/
def unit? (a b c d : Option Char) : Option Nat := do
  let a ← a >>= hexDigit?
  let b ← b >>= hexDigit?
  let c ← c >>= hexDigit?
  let d ← d >>= hexDigit?
  return ((a * 16 + b) * 16 + c) * 16 + d

/-- The character a one-letter escape stands for. -/
def escape? : Char → Option Char
  | '"' => some '"'
  | '\\' => some '\\'
  | '/' => some '/'
  | 'b' => some '\x08'
  | 'f' => some '\x0C'
  | 'n' => some '\n'
  | 'r' => some '\r'
  | 't' => some '\t'
  | _ => none

/-- What has been read of a string: its characters in reverse, a high surrogate that waits for its
low one, and whether everything so far is a scalar value. -/
structure Spelled where
  chars : List Char := []
  high : Option Nat := none
  valid : Bool := true

namespace Spelled

/-- One character more; a waiting surrogate stays alone. -/
def push (s : Spelled) (c : Char) : Spelled :=
  { chars := c :: s.chars, high := none, valid := s.valid && s.high.isNone }

/-- Something that is no scalar value. -/
def spoil (s : Spelled) : Spelled := { s with high := none, valid := false }

/-- One UTF-16 unit more. -/
def pushUnit (s : Spelled) (u : Nat) : Spelled :=
  if 0xD800 ≤ u && u < 0xDC00 then { s with high := some u, valid := s.valid && s.high.isNone }
  else if 0xDC00 ≤ u && u < 0xE000 then
    match s.high with
    | some h =>
      { s with
        chars := Char.ofNat (0x10000 + (h - 0xD800) * 0x400 + (u - 0xDC00)) :: s.chars
        high := none }
    | none => s.spoil
  else s.push (Char.ofNat u)

/-- The string, when all of it is scalar values. -/
def text? (s : Spelled) : Option String :=
  if s.valid && s.high.isNone then some (String.ofList s.chars.reverse) else none

end Spelled

/-- The rest of a string after its opening quote, and what follows; `none` when it is malformed. -/
def readString (s : Spelled) : Input → Option (Option String × Input)
  | [] => none
  | none :: cs => readString s.spoil cs
  | some '"' :: cs => some (s.text?, cs)
  | some '\\' :: some 'u' :: a :: b :: c :: d :: cs =>
    match unit? a b c d with
    | some u => readString (s.pushUnit u) cs
    | none => none
  | some '\\' :: some e :: cs =>
    match escape? e with
    | some c => readString (s.push c) cs
    | none => none
  | some c :: cs => if c.toNat < 0x20 || c == '\\' then none else readString (s.push c) cs

/-! ### Numbers -/

/-- The largest significand, `2 ^ 64 - 1`. -/
def significandMax : Nat := 2 ^ 64 - 1

def digit? : Option Char → Option Nat
  | some c => if c.isDigit then some (c.toNat - '0'.toNat) else none
  | none => none

/-- The leading digits and what follows them. -/
def spanDigits : Input → List Nat × Input
  | [] => ([], [])
  | c :: cs =>
    match digit? c with
    | some d => let (ds, r) := spanDigits cs; (d :: ds, r)
    | none => ([], c :: cs)

/-- Digits appended to a significand while it stays within its bound: the significand, how many
were appended, how many were left over. -/
def accumulate (significand : Nat) : List Nat → Nat × Nat × Nat
  | [] => (significand, 0, 0)
  | d :: ds =>
    if significand * 10 + d ≤ significandMax then
      let (s, used, left) := accumulate (significand * 10 + d) ds
      (s, used + 1, left)
    else (significand, 0, ds.length + 1)

/-- A power of ten as the nearest binary64 number. -/
def powerOfTen (n : Nat) : Binary64 := Binary64.ofDecimal 1 n

/-- `significand · 10 ^ exponent` with a rounding at each operation: at most 308 powers of ten at a
time, `none` on overflow.  Three divisions reach zero from any significand, so `fuel` 4 is
enough. -/
def scaleFrom (fuel : Nat) (f : Binary64) (exponent : Int) : Option Binary64 :=
  match fuel with
  | 0 => some f
  | fuel + 1 =>
    if exponent.natAbs ≤ 308 then
      if 0 ≤ exponent then
        let r := f.mul (powerOfTen exponent.natAbs)
        if r.isInfinite then none else some r
      else some (f.div (powerOfTen exponent.natAbs))
    else if f.bits == 0 then some f
    else if 0 ≤ exponent then none
    else scaleFrom fuel (f.div (powerOfTen 308)) (exponent + 308)

/-- The number with the given sign, significand and decimal exponent. -/
def scale (negative : Bool) (significand : Nat) (exponent : Int) : Reading :=
  match scaleFrom 4 (Binary64.ofRatio significand 1) exponent with
  | some f => .float (if negative then f.neg else f)
  | none => .outOfRange

/-- A number without fraction and exponent: an integer as long as 64 bits hold it.  The negative
zero is no integer. -/
def whole (negative : Bool) (significand : Nat) : Reading :=
  if !negative then .integer significand
  else if significand = 0 ∨ 2 ^ 63 < significand then
    .float (Binary64.ofRatio significand 1).neg
  else .integer (-significand)

/-- The largest exponent that is read digit by digit. -/
def exponentMax : Nat := 2 ^ 31 - 1

/-- A number with the exponent digits `ds`.  An exponent beyond its bound gives zero or a number
out of range. -/
def withExponent (negative negativeExponent : Bool) (significand : Nat) (start : Int)
    (ds : List Nat) : Reading :=
  let e := ds.foldl (fun n d => min (n * 10 + d) (exponentMax + 1)) 0
  if exponentMax < e then
    if significand ≠ 0 ∧ !negativeExponent then .outOfRange
    else .float (if negative then Binary64.neg ⟨0⟩ else ⟨0⟩)
  else scale negative significand (if negativeExponent then start - e else start + e)

/-- The exponent part, when there is one: its sign and digits, and what follows. -/
def readExponent : Input → Option (Option (Bool × List Nat) × Input)
  | some 'e' :: cs | some 'E' :: cs =>
    let (negative, cs) :=
      match cs with
      | some '-' :: r => (true, r)
      | some '+' :: r => (false, r)
      | r => (false, r)
    match spanDigits cs with
    | ([], _) => none
    | (ds, r) => some (some (negative, ds), r)
  | cs => some (none, cs)

/-- A number without its sign, and what follows; `none` when it is malformed. -/
def readUnsigned (negative : Bool) (cs : Input) : Option (Reading × Input) :=
  match spanDigits cs with
  | ([], _) => none
  | (0 :: _ :: _, _) => none
  | (ds, rest) =>
    let (significand, _, dropped) := accumulate 0 ds
    let fraction : Option (Nat × Int × Bool × Input) :=
      match rest with
      | some '.' :: r =>
        match spanDigits r with
        | ([], _) => none
        | (fs, r) =>
          let (s, used, _) := accumulate significand fs
          some (s, (dropped : Int) - used, true, r)
      | r => some (significand, dropped, false, r)
    fraction.bind fun (significand, start, hasFraction, rest) =>
      (readExponent rest).map fun (exponent, rest) =>
        match exponent with
        | some (minus, es) => (withExponent negative minus significand start es, rest)
        | none =>
          if hasFraction || dropped != 0 then (scale negative significand start, rest)
          else (whole negative significand, rest)

/-! ### Values -/

/-- The rest of the text after a literal word. -/
def readWord : List Char → Input → Option Input
  | [], cs => some cs
  | w :: ws, c :: cs => if c == some w then readWord ws cs else none
  | _ :: _, [] => none

/-- A literal word with its value. -/
def literal (value : Reading) (word : String) (cs : Input) : Reading × Option Input :=
  match readWord word.toList cs with
  | some r => (value, some r)
  | none => (.broken, none)

mutual
/-- One value after optional blanks, and what follows; `none` when reading stopped there.  Each
level of nesting uses one unit of fuel and consumes a character. -/
def readValue (fuel : Nat) (cs : Input) : Reading × Option Input :=
  match fuel with
  | 0 => (.broken, none)
  | fuel + 1 =>
    match skipBlanks cs with
    | some '"' :: r =>
      match readString {} r with
      | some (s, r) => (.text s, some r)
      | none => (.broken, none)
    | some '[' :: r =>
      match skipBlanks r with
      | some ']' :: r => (.list [] true, some r)
      | r =>
        let (xs, rest) := readItems fuel r
        (.list xs rest.isSome, rest)
    | some '\x7b' :: r =>
      match skipBlanks r with
      | some '\x7d' :: r => (.table [] true, some r)
      | r =>
        let (ms, rest) := readMembers fuel r
        (.table ms rest.isSome, rest)
    | some 't' :: r => literal (.bool true) "rue" r
    | some 'f' :: r => literal (.bool false) "alse" r
    | some 'n' :: r => literal .null "ull" r
    | some '-' :: r =>
      match readUnsigned true r with
      | some (n, r) => (n, some r)
      | none => (.broken, none)
    | r =>
      match readUnsigned false r with
      | some (n, r) => (n, some r)
      | none => (.broken, none)

/-- The items of a list up to its closing bracket. -/
def readItems (fuel : Nat) (cs : Input) : List Reading × Option Input :=
  match fuel with
  | 0 => ([.broken], none)
  | fuel + 1 =>
    match readValue fuel cs with
    | (x, none) => ([x], none)
    | (x, some r) =>
      match skipBlanks r with
      | some ']' :: r => ([x], some r)
      | some ',' :: r =>
        let (xs, rest) := readItems fuel r
        (x :: xs, rest)
      | _ => ([x], none)

/-- The members of a table up to its closing brace. -/
def readMembers (fuel : Nat) (cs : Input) : List (String × Reading) × Option Input :=
  match fuel with
  | 0 => ([], none)
  | fuel + 1 =>
    match skipBlanks cs with
    | some '"' :: r =>
      match readString {} r with
      | some (some k, r) =>
        match skipBlanks r with
        | some ':' :: r =>
          match readValue fuel r with
          | (v, none) => ([(k, v)], none)
          | (v, some r) =>
            match skipBlanks r with
            | some '\x7d' :: r => ([(k, v)], some r)
            | some ',' :: r =>
              let (ms, rest) := readMembers fuel r
              ((k, v) :: ms, rest)
            | _ => ([(k, v)], none)
        | _ => ([(k, .broken)], none)
      | _ => ([], none)
    | _ => ([], none)
end

/-- A text as a reading, and whether only blanks follow its value. -/
def readInput (cs : Input) : Reading × Bool :=
  match readValue (2 * cs.length + 2) cs with
  | (r, some rest) => (r, (skipBlanks rest).isEmpty)
  | (r, none) => (r, false)

/-- How many lists and tables may stand inside each other. -/
def depthMax : Nat := 127

/-- The value of a text, when the text is JSON. -/
def document? (s : String) : Option Document :=
  let (r, ended) := readInput (s.toList.map some)
  if ended then r.toDocument? depthMax else none

/-- What a text decodes to: a fault of the value is met before one after it. -/
def decodeInput {α : Type} (f : Decoder α) (cs : Input) : Except Fault α :=
  let (r, ended) := readInput cs
  match f r with
  | .error e => .error e
  | .ok a => if ended then .ok a else .error .malformed

/-- What a string decodes to. -/
def decode {α : Type} (f : Decoder α) (s : String) : Except Fault α :=
  decodeInput f (s.toList.map some)

/-- What bytes decode to. -/
def decodeBytes {α : Type} (f : Decoder α) (bytes : ByteArray) : Except Fault α :=
  decodeInput f (Text.Utf8.decode bytes)

end Readiness.Json

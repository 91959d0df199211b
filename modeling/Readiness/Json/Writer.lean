import Readiness.Document.Basic

/-!
# Json — Writer

Writing documents as JSON, indented by two blanks a level.

* `Json.quote` is a string with its escapes;
* `Json.pretty` is a whole document: one item or member a line, empty lists and tables closed at
  once.
-/

namespace Readiness.Json

open Number (Binary64)

/-! ### Strings -/

def hexDigit (n : Nat) : Char := if n < 10 then Char.ofNat (48 + n) else Char.ofNat (87 + n)

/-- A character inside a string: quotes, backslashes and control characters are escaped. -/
def escape (c : Char) : List Char :=
  if c = '"' then ['\\', '"']
  else if c = '\\' then ['\\', '\\']
  else if c = '\n' then ['\\', 'n']
  else if c = '\r' then ['\\', 'r']
  else if c = '\t' then ['\\', 't']
  else if c = '\x08' then ['\\', 'b']
  else if c = '\x0C' then ['\\', 'f']
  else if c.toNat < 0x20 then
    ['\\', 'u', '0', '0', hexDigit (c.toNat / 16), hexDigit (c.toNat % 16)]
  else [c]

/-- The characters of a string between quotes. -/
def quoteChars (cs : List Char) : List Char := '"' :: cs.flatMap escape ++ ['"']

def quote (s : String) : String := String.ofList (quoteChars s.toList)

/-! ### Numbers -/

/-- A finite number with all its digits: `m / 2 ^ k` is `m · 5 ^ k / 10 ^ k`. -/
def decimal (x : Binary64) : String :=
  let (n, d) := Binary64.toRatio ⟨x.bits &&& 0x7FFFFFFFFFFFFFFF⟩
  let places := d.log2
  let digits := n * 5 ^ places
  let sign := if x.bits.toNat < 2 ^ 63 then "" else "-"
  let fraction := Text.padStart places '0' (toString (digits % 10 ^ places))
  sign ++ toString (digits / 10 ^ places) ++ "." ++ (if places = 0 then "0" else fraction)

/-! ### Documents -/

/-- A line break and the indentation of a level. -/
def newline (level : Nat) : String := String.ofList ('\n' :: List.replicate (2 * level) ' ')

mutual
/-- A document whose first line is already indented to `level`. -/
def prettyAt (level : Nat) : Document → String
  | .null => "null"
  | .bool b => if b then "true" else "false"
  | .integer i => toString i
  | .float x => decimal x
  | .text s => quote s
  | .list [] => "[]"
  | .list (x :: xs) =>
    "[" ++ newline (level + 1) ++ prettyAt (level + 1) x ++ prettyItems (level + 1) xs ++
      newline level ++ "]"
  | .table [] => "\x7b\x7d"
  | .table ((k, v) :: ms) =>
    "\x7b" ++ newline (level + 1) ++ quote k ++ ": " ++ prettyAt (level + 1) v ++
      prettyMembers (level + 1) ms ++ newline level ++ "\x7d"

/-- The items after the first. -/
def prettyItems (level : Nat) : List Document → String
  | [] => ""
  | x :: xs => "," ++ newline level ++ prettyAt level x ++ prettyItems level xs

/-- The members after the first. -/
def prettyMembers (level : Nat) : List (String × Document) → String
  | [] => ""
  | (k, v) :: ms =>
    "," ++ newline level ++ quote k ++ ": " ++ prettyAt level v ++ prettyMembers level ms
end

/-- The document as JSON text. -/
def pretty (d : Document) : String := prettyAt 0 d

end Readiness.Json

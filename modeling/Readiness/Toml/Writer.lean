import Readiness.Json.Writer

/-!
# Toml — Writer

Writing documents as TOML: tables under headers, one key a line, a blank line in front of every
header but the first line.

* `quote` writes a string in the first of five forms that fits it;
* `write` writes a document whose root is a table.
-/

namespace Readiness.Toml

open Json (hexDigit)

/-! ### Strings -/

/-- A control character other than the tab and the line feed. -/
def isControl (c : Char) : Bool := (c.toNat < 0x20 && c != '\t' && c != '\n') || c == '\x7F'

/-- The longest run of `q` in the text, of which `run` have just been seen. -/
def longestRun (q : Char) (run : Nat) : List Char → Nat
  | [] => run
  | c :: cs => if c = q then longestRun q (run + 1) cs else max run (longestRun q 0 cs)

def upperHex (n : Nat) : Char := (hexDigit n).toUpper

/-- A character that needs an escape, as one. -/
def escape (c : Char) : List Char :=
  if c = '\x08' then ['\\', 'b']
  else if c = '\t' then ['\\', 't']
  else if c = '\n' then ['\\', 'n']
  else if c = '\x0C' then ['\\', 'f']
  else if c = '\r' then ['\\', 'r']
  else if c = '"' then ['\\', '"']
  else if c = '\\' then ['\\', '\\']
  else if isControl c then
    ['\\', 'u', '0', '0', upperHex (c.toNat / 16), upperHex (c.toNat % 16)]
  else [c]

/-- The content of a basic string on one line. -/
def escapeLine (cs : List Char) : List Char := cs.flatMap escape

/-- The content of a basic string on several lines; `run` quotes stand right in front.  Line feeds
stay, and of quotes only every third in a row needs an escape. -/
def escapeLines (run : Nat) : List Char → List Char
  | [] => []
  | c :: cs =>
    if c = '"' then
      if run = 2 then '\\' :: '"' :: escapeLines 0 cs else '"' :: escapeLines (run + 1) cs
    else if c = '\n' then '\n' :: escapeLines 0 cs
    else escape c ++ escapeLines 0 cs

/-- The form of a string. -/
inductive Form where
  | basic
  | literal
  | basicLines
  | literalLines
  | escaped
deriving DecidableEq

/-- The first form that holds the text without any escape but that of a tab. -/
def form (cs : List Char) : Form :=
  let control := cs.any isControl
  let newline := cs.contains '\n'
  let slash := cs.contains '\\'
  if !control && !newline && !slash && !cs.contains '"' then .basic
  else if !control && !newline && !cs.contains '\'' then .literal
  else if !control && !slash && longestRun '"' 0 cs ≤ 2 then .basicLines
  else if !control && longestRun '\'' 0 cs ≤ 2 then .literalLines
  else .escaped

/-- A string between its quotes.  A text of several lines begins on a line of its own. -/
def quoteChars (cs : List Char) : List Char :=
  let lines (q : Char) (content : List Char) : List Char :=
    q :: q :: q :: (if cs.contains '\n' then ['\n'] else []) ++ content ++ [q, q, q]
  match form cs with
  | .basic        => '"' :: escapeLine cs ++ ['"']
  | .literal      => '\'' :: cs ++ ['\'']
  | .basicLines   => lines '"' (escapeLines 0 cs)
  | .literalLines => lines '\'' cs
  | .escaped      =>
    if cs.contains '\n' then lines '"' (escapeLines 0 cs) else '"' :: escapeLine cs ++ ['"']

def quote (s : String) : String := String.ofList (quoteChars s.toList)

/-! ### Values and tables -/

mutual
/-- A value behind a key: an array of more than one item has a line for each.  TOML has no null; an
empty string stands for it. -/
def value : Document → String
  | .null => "\"\""
  | .bool b => if b then "true" else "false"
  | .integer i => toString i
  | .float x => Json.decimal x
  | .text s => quote s
  | .list [] => "[]"
  | .list [x] => "[" ++ value x ++ "]"
  | .list (x :: y :: r) =>
    "[\n    " ++ value x ++ ",\n    " ++ value y ++ ",\n" ++ moreItems r ++ "]"
  | .table ms => "\x7b" ++ inlineMembers ms ++ " \x7d"

def moreItems : List Document → String
  | [] => ""
  | x :: xs => "    " ++ value x ++ ",\n" ++ moreItems xs

def inlineMembers : List (String × Document) → String
  | [] => ""
  | [(k, v)] => " " ++ k ++ " = " ++ value v
  | (k, v) :: ms => " " ++ k ++ " = " ++ value v ++ "," ++ inlineMembers ms
end

/-- The value has lines of its own under headers: it is a table or a list of tables. -/
def isHeaded : Document → Bool
  | .table _ => true
  | .list (x :: xs) =>
    (x :: xs).all fun
      | .table _ => true
      | _ => false
  | _ => false

/-- The lines of a table's own keys. -/
def ownLines : List (String × Document) → String
  | [] => ""
  | (k, v) :: ms => (if isHeaded v then "" else k ++ " = " ++ value v ++ "\n") ++ ownLines ms

mutual
/-- The tables among members, `path` being the header of the table they stand in. -/
def headed (path : String) : List (String × Document) → String
  | [] => ""
  | (k, v) :: ms => headedValue (path ++ k) v ++ headed path ms

def headedValue (path : String) : Document → String
  | .table ms => "\n[" ++ path ++ "]\n" ++ ownLines ms ++ headed (path ++ ".") ms
  | .list xs => if isHeaded (.list xs) then headedElements path xs else ""
  | _ => ""

def headedElements (path : String) : List Document → String
  | [] => ""
  | .table ms :: xs =>
    "\n[[" ++ path ++ "]]\n" ++ ownLines ms ++ headed (path ++ ".") ms ++ headedElements path xs
  | _ :: xs => headedElements path xs
end

/-- A document with these members; nothing but a key or a header begins it. -/
def write (ms : List (String × Document)) : String :=
  let body := ownLines ms ++ headed "" ms
  (Text.stripStart? body "\n").getD body

end Readiness.Toml

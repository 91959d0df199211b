import Readiness.Core

/-!
# Text — Basic

Searching and cutting text.  Every function is stated on `List Char`; the `String` forms only
convert.

* `dropStart?` and `dropEnd?` take a known beginning or ending off;
* `includes` looks for a run of characters anywhere;
* `pieces` cuts at every occurrence of a separator.
-/

namespace Readiness.Text

/-! ### Lists of characters -/

/-- The rest of the text after `p`, when it begins with `p`. -/
def dropStart? : List Char → List Char → Option (List Char)
  | [], cs => some cs
  | _ :: _, [] => none
  | p :: ps, c :: cs => if p = c then dropStart? ps cs else none

/-- The beginning of the text before `p`, when it ends with `p`. -/
def dropEnd? (p cs : List Char) : Option (List Char) :=
  (dropStart? p.reverse cs.reverse).map List.reverse

/-- The text begins with `p`. -/
def startsWith (p cs : List Char) : Bool := (dropStart? p cs).isSome

/-- `p` occurs somewhere in the text. -/
def includes (p : List Char) : List Char → Bool
  | [] => p.isEmpty
  | c :: cs => startsWith p (c :: cs) || includes p cs

/-- The pieces between the occurrences of `sep`; there is one more of them than separators. -/
def pieces (sep : Char) : List Char → List (List Char)
  | [] => [[]]
  | c :: cs =>
    match pieces sep cs with
    | [] => [[c]]
    | p :: ps => if c = sep then [] :: p :: ps else (c :: p) :: ps

/-- The text without the characters of `p` at its beginning and its end. -/
def trimBy (p : Char → Bool) (cs : List Char) : List Char :=
  ((cs.dropWhile p).reverse.dropWhile p).reverse

/-- A number up to `max`: an optional plus sign, then digits alone. -/
def natural? (max : Nat) (cs : List Char) : Option Nat :=
  let digits := if cs.head? = some '+' then cs.tail else cs
  if digits.isEmpty || !digits.all Char.isDigit then none
  else
    let n := digits.foldl (fun n c => n * 10 + (c.toNat - '0'.toNat)) 0
    if n ≤ max then some n else none

/-! ### Strings -/

/-- `needle` occurs somewhere in `hay`. -/
def contains (hay needle : String) : Bool := includes needle.toList hay.toList

/-- `s` begins with `p`. -/
def hasStart (s p : String) : Bool := startsWith p.toList s.toList

/-- `s` without its beginning `p`. -/
def stripStart? (s p : String) : Option String := (dropStart? p.toList s.toList).map String.ofList

/-- `s` without its ending `p`. -/
def stripEnd? (s p : String) : Option String := (dropEnd? p.toList s.toList).map String.ofList

/-- The pieces of `s` between the occurrences of `sep`. -/
def split (s : String) (sep : Char) : List String := (pieces sep s.toList).map String.ofList

/-- The items with `sep` between neighbours. -/
def join (sep : String) : List String → String
  | [] => ""
  | [s] => s
  | s :: t :: r => s ++ sep ++ join sep (t :: r)

/-- `s` padded with blanks at its end to `width` characters. -/
def padEnd (width : Nat) (s : String) : String :=
  s ++ String.ofList (List.replicate (width - s.length) ' ')

/-- `s` padded with `fill` at its beginning to `width` characters. -/
def padStart (width : Nat) (fill : Char) (s : String) : String :=
  String.ofList (List.replicate (width - s.length) fill) ++ s

end Readiness.Text

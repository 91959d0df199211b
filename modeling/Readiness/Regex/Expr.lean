import Readiness.Unicode.CharSet

/-!
# Regex — Expr

Regular expressions as trees.

* `Look` are the conditions on a position, `Expr` the expressions;
* `Expr.cost` is what a compiled form takes, which bounds the expressions that are accepted.
-/

namespace Readiness.Regex

open Unicode (CharSet)

/-- A condition on a position between two characters. -/
inductive Look where
  | textStart
  | textEnd
  /-- At the start of a line; `crlf` makes carriage returns end lines too. -/
  | lineStart (crlf : Bool)
  | lineEnd (crlf : Bool)
  /-- Where words begin or end.  `ascii` restricts the characters of words. -/
  | wordEdge (ascii : Bool)
  | noWordEdge (ascii : Bool)
  | wordStart (ascii : Bool)
  | wordEnd (ascii : Bool)
  /-- No character of a word before, or after. -/
  | afterNoWord (ascii : Bool)
  | beforeNoWord (ascii : Bool)
deriving DecidableEq, Repr

inductive Expr where
  | empty
  | chars (s : CharSet)
  | look (l : Look)
  | group (e : Expr)
  | cat (a b : Expr)
  | alt (a b : Expr)
  /-- At least `min` times, and at most `max` times if there is a bound. -/
  | rep (e : Expr) (min : Nat) (max : Option Nat)
deriving Repr

namespace Expr

/-- The expressions one after the other. -/
def cats : List Expr → Expr
  | [] => .empty
  | [e] => e
  | e :: es => .cat e (cats es)

/-- One of the expressions. -/
def alts : List Expr → Expr
  | [] => .empty
  | [e] => e
  | e :: es => .alt e (alts es)

/-! ### Size -/

/-- What one state of a compiled expression takes. -/
def stateCost : Nat := 32

/-- The octets of a character. -/
def octets (n : Nat) : Nat :=
  if n < 0x80 then 1 else if n < 0x800 then 2 else if n < 0x10000 then 3 else 4

/-- What a set takes: a state for each octet of a single character, one for ASCII, else about two
for each range. -/
def charsCost (s : CharSet) : Nat :=
  match s.ranges with
  | [(a, b)] => if a = b then stateCost * octets a else rangesCost s
  | _ => rangesCost s
where
  rangesCost (s : CharSet) : Nat :=
    if s.isAscii then 2 * stateCost + 8 * s.ranges.length
    else 12 * stateCost + 2 * stateCost * s.ranges.length

/-- What a compiled expression takes, with a repeated part as often as it is repeated. -/
def cost : Expr → Nat
  | .empty => stateCost
  | .chars s => charsCost s
  | .look _ => stateCost
  | .group e => 2 * stateCost + e.cost
  | .cat a b => a.cost + b.cost
  | .alt a b => a.cost + b.cost + 2 * stateCost
  | .rep e min max =>
    match max with
    | none => (Nat.max min 1) * e.cost + 2 * stateCost
    | some n => n * e.cost + (n - min) * (2 * stateCost)

/-- The largest compiled expression. -/
def costMax : Nat := 10 * 2 ^ 20

end Expr

end Readiness.Regex

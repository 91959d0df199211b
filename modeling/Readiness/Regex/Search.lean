import Readiness.Regex.Reader

/-!
# Regex — Search

Searching a text for a regular expression.

A set of positions in the text is a number, in which bit `i` stands for position `i`.  An expression
takes a set of positions to the set of those where a match that begins in the first set ends; it
occurs in the text when from the set of all positions it does not get to the empty set.

* `Steps` is an expression in which sets of characters and conditions have become sets of positions;
* `Steps.advance` is what it does to a set of positions;
* `Expr.occursIn` says whether an expression matches somewhere.
-/

namespace Readiness.Regex

open Unicode (CharSet)

/-- Positions in a text, as the bits of a number. -/
abbrev Positions := Nat

/-- The positions whose flag is set, from position 0 on. -/
def positions (bs : List Bool) : Positions := bs.foldr (fun b ps => 2 * ps + b.toNat) 0

/-! ### Expressions over one text -/

inductive Steps where
  | empty
  /-- One character, at one of these positions. -/
  | step (at_ : Positions)
  /-- No character, at one of these positions. -/
  | stay (at_ : Positions)
  | cat (a b : Steps)
  | alt (a b : Steps)
  | rep (e : Steps) (min : Nat) (max : Option Nat)

/-- A character of a set, found by halving the ranges. -/
def inRanges (ranges : Array (Nat × Nat)) (n : Nat) : Nat → Nat → Nat → Bool
  | 0, _, _ => false
  | fuel + 1, low, high =>
    if high ≤ low then false
    else
      let mid := (low + high) / 2
      match ranges[mid]? with
      | none => false
      | some r =>
        if n < r.1 then inRanges ranges n fuel low mid
        else if r.2 < n then inRanges ranges n fuel (mid + 1) high
        else true

def charsAt (s : CharSet) (text : List Char) : List Bool :=
  let ranges := s.ranges.toArray
  text.map fun c => inRanges ranges c.toNat (ranges.size + 1) 0 ranges.size

/-- The neighbours of each position, the end included. -/
def neighbours (before : Option Char) : List Char → List (Option Char × Option Char)
  | [] => [(before, none)]
  | c :: cs => (before, some c) :: neighbours (some c) cs

def startsLine (crlf : Bool) : Option Char × Option Char → Bool
  | (none, _) | (some '\n', _) => true
  | (some '\r', after) => crlf && after != some '\n'
  | _ => false

def endsLine (crlf : Bool) : Option Char × Option Char → Bool
  | (_, none) => true
  | (before, some '\n') => !crlf || before != some '\r'
  | (_, some '\r') => crlf
  | _ => false

/-- Which positions satisfy a condition on whether their neighbours are characters of words. -/
def wordPositions (ascii : Bool) (text : List Char) (p : Bool → Bool → Bool) : List Bool :=
  let word := charsAt (wordChars !ascii) text
  (false :: word).zipWith p (word ++ [false])

/-- Which positions satisfy a condition. -/
def Look.at (text : List Char) : Look → List Bool
  | .textStart => (neighbours none text).map fun n => n.1.isNone
  | .textEnd => (neighbours none text).map fun n => n.2.isNone
  | .lineStart crlf => (neighbours none text).map (startsLine crlf)
  | .lineEnd crlf => (neighbours none text).map (endsLine crlf)
  | .wordEdge ascii => wordPositions ascii text fun a b => a != b
  | .noWordEdge ascii => wordPositions ascii text fun a b => a == b
  | .wordStart ascii => wordPositions ascii text fun a b => !a && b
  | .wordEnd ascii => wordPositions ascii text fun a b => a && !b
  | .afterNoWord ascii => wordPositions ascii text fun a _ => !a
  | .beforeNoWord ascii => wordPositions ascii text fun _ b => !b

/-- An expression over a text. -/
def Expr.steps (text : List Char) : Expr → Steps
  | .empty => .empty
  | .chars s => .step (positions (charsAt s text))
  | .look l => .stay (positions (l.at text))
  | .group e => e.steps text
  | .cat a b => .cat (a.steps text) (b.steps text)
  | .alt a b => .alt (a.steps text) (b.steps text)
  | .rep e min max => .rep (e.steps text) min max

/-! ### Searching -/

/-- `f` applied `n` times, or until no position is left. -/
def times (f : Positions → Positions) : Nat → Positions → Positions
  | 0, ps => ps
  | n + 1, ps => if ps = 0 then 0 else times f n (f ps)

/-- The positions that applying `f` at most `n` times reaches, until there are no new ones. -/
def upTo (f : Positions → Positions) : Nat → Positions → Positions
  | 0, ps => ps
  | n + 1, ps =>
    let next := ps ||| f ps
    if next = ps then ps else upTo f n next

/-- Where the matches end that begin at the given positions.  `size` is at least the number of
positions, so that no more repetitions than that reach a new one. -/
def Steps.advance (size : Nat) : Steps → Positions → Positions
  | .empty, ps => ps
  | .step at_, ps => 2 * (ps &&& at_)
  | .stay at_, ps => ps &&& at_
  | .cat a b, ps => b.advance size (a.advance size ps)
  | .alt a b, ps => a.advance size ps ||| b.advance size ps
  | .rep e min max, ps =>
    let more := match max with
      | none => size
      | some n => n - min
    upTo (e.advance size) more (times (e.advance size) min ps)

/-- The expression matches somewhere in the text. -/
def Expr.occursIn (e : Expr) (text : String) : Bool :=
  let cs := text.toList
  let everywhere := 2 ^ (cs.length + 1) - 1
  (e.steps cs).advance (cs.length + 1) everywhere != 0

end Readiness.Regex

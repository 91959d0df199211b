import Readiness.Json.Reader

/-!
# Unicode — CharSet

Sets of characters as ascending ranges of scalar values.

* `CharSet.ofRanges` accepts ranges in any order, overlapping or not;
* `union`, `complement`, `inter` and `difference` are the operations of sets;
* `CharSet.ofRuns` reads a set from a table.
-/

namespace Readiness.Unicode

/-- A set of scalar values: ranges, both ends included, in ascending order and apart. -/
structure CharSet where
  ranges : List (Nat × Nat)
deriving DecidableEq, Repr

namespace CharSet

def empty : CharSet := ⟨[]⟩

/-- The ranges from `r` on, in ascending order, with those that touch made one. -/
def mergeFrom (r : Nat × Nat) : List (Nat × Nat) → List (Nat × Nat)
  | [] => [r]
  | s :: ss => if s.1 ≤ r.2 + 1 then mergeFrom (r.1, max r.2 s.2) ss else r :: mergeFrom s ss

/-- The set of the given ranges. -/
def ofRanges (rs : List (Nat × Nat)) : CharSet :=
  match rs.mergeSort fun a b => decide (a.1 ≤ b.1) with
  | [] => empty
  | r :: rs => ⟨mergeFrom r rs⟩

/-- The characters from one to another. -/
def range (low high : Nat) : CharSet := ⟨if low ≤ high then [(low, high)] else []⟩

def singleton (c : Char) : CharSet := range c.toNat c.toNat

def union (s t : CharSet) : CharSet := ofRanges (s.ranges ++ t.ranges)

def unions (ss : List CharSet) : CharSet := ofRanges (ss.flatMap CharSet.ranges)

/-- The scalar values from `n` on that are in none of the ranges. -/
def gaps (n : Nat) : List (Nat × Nat) → List (Nat × Nat)
  | [] => if n ≤ 0x10FFFF then [(n, 0x10FFFF)] else []
  | r :: rs => if n < r.1 then (n, r.1 - 1) :: gaps (r.2 + 1) rs else gaps (r.2 + 1) rs

def complement (s : CharSet) : CharSet := ⟨gaps 0 s.ranges⟩

def inter (s t : CharSet) : CharSet := (s.complement.union t.complement).complement

def difference (s t : CharSet) : CharSet := (s.complement.union t).complement

def symmetricDifference (s t : CharSet) : CharSet := (s.difference t).union (t.difference s)

def contains (s : CharSet) (n : Nat) : Bool := s.ranges.any fun r => r.1 ≤ n && n ≤ r.2

/-- All characters are in ASCII. -/
def isAscii (s : CharSet) : Bool := s.ranges.all fun r => r.2 < 0x80

/-- All scalar values. -/
def all : CharSet := ⟨[(0, 0x10FFFF)]⟩

end CharSet

/-! ### Tables -/

/-- The hexadecimal numbers in a text, separated by blanks and line breaks. -/
def hexNumbers (s : String) : List Nat :=
  let words := (Text.split s ' ').flatMap fun w => Text.split w '\n'
  (words.filter (· ≠ "")).map fun w =>
    w.toList.foldl (fun n c => n * 16 + (Json.hexDigit? c).getD 0) 0

/-- The ranges in a list of numbers: how many characters are out from `n` on, how many are then in,
and so on. -/
def rangesOfRuns (n : Nat) : List Nat → List (Nat × Nat)
  | gap :: count :: rest => (n + gap, n + gap + count - 1) :: rangesOfRuns (n + gap + count) rest
  | _ => []

/-- The set that a table gives as runs. -/
def CharSet.ofRuns (s : String) : CharSet := ⟨rangesOfRuns 0 (hexNumbers s)⟩

end Readiness.Unicode

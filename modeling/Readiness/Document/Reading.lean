import Readiness.Document.Basic

/-!
# Document — Reading

A document as far as its text could be read.  A reader that meets malformed text closes what it
has with a `broken` value or an unclosed list or table, so a decoder that walks the reading in text
order meets faults of shape and faults of syntax in the order in which the text shows them.

* `Reading.sound` says when a reading can be kept as a value, `Reading.wellFormed` when it can at
  least be skipped;
* `Reading.toDocument?` keeps it, the last binding of a key winning;
* `Reading.ofDocument` is the other direction.
-/

namespace Readiness

open Number (Binary64)

/-- A document as far as it could be read. -/
inductive Reading where
  | null
  | bool (b : Bool)
  | integer (i : Int)
  | float (x : Binary64)
  /-- A numeral whose value no number type holds. -/
  | outOfRange
  /-- A string; `none` when its escapes or bytes are no scalar values. -/
  | text (s : Option String)
  | list (items : List Reading) (closed : Bool)
  | table (members : List (String × Reading)) (closed : Bool)
  /-- Where the text stops being a document. -/
  | broken

namespace Reading

/-! ### Skipping and keeping -/

mutual
/-- The text of the value is complete, so that it can be skipped. -/
def wellFormed : Reading → Bool
  | .broken => false
  | .list xs closed => closed && wellFormedItems xs
  | .table ms closed => closed && wellFormedMembers ms
  | _ => true

def wellFormedItems : List Reading → Bool
  | [] => true
  | x :: xs => x.wellFormed && wellFormedItems xs

def wellFormedMembers : List (String × Reading) → Bool
  | [] => true
  | (_, v) :: ms => v.wellFormed && wellFormedMembers ms
end

mutual
/-- The value can be kept: it is complete, its strings and numbers are values, and at most `depth`
lists and tables stand inside each other. -/
def sound (depth : Nat) : Reading → Bool
  | .broken | .outOfRange | .text none => false
  | .list xs closed => closed && depth != 0 && soundItems (depth - 1) xs
  | .table ms closed => closed && depth != 0 && soundMembers (depth - 1) ms
  | _ => true

def soundItems (depth : Nat) : List Reading → Bool
  | [] => true
  | x :: xs => x.sound depth && soundItems depth xs

def soundMembers (depth : Nat) : List (String × Reading) → Bool
  | [] => true
  | (_, v) :: ms => v.sound depth && soundMembers depth ms
end

mutual
/-- The value of a sound reading; of one that is not, the part that has a value.  A float that is
not finite is null. -/
def value : Reading → Document
  | .null | .outOfRange | .text none | .broken => .null
  | .bool b => .bool b
  | .integer i => .integer i
  | .float x => if x.isFinite then .float x else .null
  | .text (some s) => .text s
  | .list xs _ => .list (valueItems xs)
  | .table ms _ => .ofMembers (valueMembers ms)

def valueItems : List Reading → List Document
  | [] => []
  | x :: xs => x.value :: valueItems xs

def valueMembers : List (String × Reading) → List (String × Document)
  | [] => []
  | (k, v) :: ms => (k, v.value) :: valueMembers ms
end

/-- The value of a reading in which at most `depth` lists and tables stand inside each other. -/
def toDocument? (depth : Nat) (r : Reading) : Option Document :=
  if r.sound depth then some r.value else none

/-! ### Values as readings -/

mutual
/-- The reading of a value. -/
def ofDocument : Document → Reading
  | .null => .null
  | .bool b => .bool b
  | .integer i => .integer i
  | .float x => .float x
  | .text s => .text (some s)
  | .list xs => .list (ofItems xs) true
  | .table ms => .table (ofMembers ms) true

def ofItems : List Document → List Reading
  | [] => []
  | x :: xs => ofDocument x :: ofItems xs

def ofMembers : List (String × Document) → List (String × Reading)
  | [] => []
  | (k, v) :: ms => (k, ofDocument v) :: ofMembers ms
end

end Reading

end Readiness

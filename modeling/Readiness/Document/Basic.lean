import Readiness.Number.Binary64
import Readiness.Text.Basic

/-!
# Document — Basic

The value of a structured document, whatever format it was written in, and dotted key paths into
it.

* `Document` is the value tree; tables keep their members in order;
* `Document.child?` is one step down, `Document.lookup` follows a dotted path.
-/

namespace Readiness

open Number (Binary64)

/-- A value in a structured document. -/
inductive Document where
  | null
  | bool (b : Bool)
  | integer (i : Int)
  | float (x : Binary64)
  | text (s : String)
  | list (items : List Document)
  | table (members : List (String × Document))

namespace Document

/-! ### Tables -/

/-- The members with `key` bound to `value`: in the place of an earlier binding, else last. -/
def bind (key : String) (value : Document) : List (String × Document) → List (String × Document)
  | [] => [(key, value)]
  | (k, v) :: ms => if k = key then (key, value) :: ms else (k, v) :: bind key value ms

/-- The table in which the last binding of each key counts. -/
def ofMembers (ms : List (String × Document)) : Document :=
  .table (ms.foldl (fun acc m => bind m.1 m.2 acc) [])

/-! ### Paths -/

/-- The largest position in a list. -/
def positionMax : Nat := 2 ^ 64 - 1

/-- A position as it is written in a path. -/
def position? (segment : List Char) : Option Nat := Text.natural? positionMax segment

/-- The value one step down: a member of a table, an item of a list. -/
def child? (segment : String) : Document → Option Document
  | .table ms => (ms.find? fun m => m.1 == segment).map (·.2)
  | .list xs => (position? segment.toList).bind fun i => xs[i]?
  | _ => none

/-- The value reached by one step for each segment. -/
def follow (d : Document) : List String → Option Document
  | [] => some d
  | s :: r => (d.child? s).bind fun w => w.follow r

/-- The value at a dotted key path. -/
def lookup (d : Document) (key : String) : Option Document := d.follow (Text.split key '.')

end Document

end Readiness

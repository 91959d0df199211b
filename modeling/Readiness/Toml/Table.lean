import Readiness.Document.Reading

/-!
# Toml — Table

The tables of a document while its lines are read.  What a line may still add to a table depends on
how the table came about.

* `Table.header` opens the table that a `[header]` names, `Table.element` one more element of the
  array that a `[[header]]` names;
* `Table.assign` binds a dotted key inside the open table;
* `Table.reading` is the finished document, its keys in order.
-/

namespace Readiness.Toml

/-- How a table came about. -/
inductive Origin where
  /-- By a header that names it. -/
  | header
  /-- By a header that names something inside it. -/
  | implied
  /-- By a dotted key. -/
  | dotted
deriving DecidableEq

/-- What a key is bound to. -/
inductive Item where
  /-- A value, which cannot be extended. -/
  | value (v : Reading)
  | table (origin : Origin) (members : List (String × Item))
  /-- An array of tables, its elements in reverse. -/
  | tables (elements : List (List (String × Item)))

/-- The members of a table that is being read. -/
abbrev Table := List (String × Item)

namespace Table

/-- The members with `f` applied at `key`: to its item, or to nothing. -/
def alter (key : String) (f : Option Item → Option Item) : Table → Option Table
  | [] => (f none).map fun i => [(key, i)]
  | (k, i) :: ms =>
    if k = key then (f (some i)).map fun i => (k, i) :: ms
    else (alter key f ms).map fun ms => (k, i) :: ms

/-- Changes the table that a header's path names.  Tables on the way that are not there are
implied; of an array the last element counts. -/
def within (path : List String) (f : Table → Option Table) (t : Table) : Option Table :=
  match path with
  | [] => f t
  | key :: rest =>
    t.alter key fun
      | none => (within rest f []).map (.table .implied)
      | some (.table o ms) => (within rest f ms).map (.table o)
      | some (.tables (ms :: es)) => (within rest f ms).map fun ms => .tables (ms :: es)
      | some _ => none

/-- Opens the table with a header's last key.  Only a table that is merely implied may be opened
again. -/
def openTable (key : String) (t : Table) : Option Table :=
  t.alter key fun
    | none => some (.table .header [])
    | some (.table .implied ms) => some (.table .header ms)
    | some _ => none

/-- Opens a new element of the array with a header's last key. -/
def openElement (key : String) (t : Table) : Option Table :=
  t.alter key fun
    | none => some (.tables [[]])
    | some (.tables es) => some (.tables ([] :: es))
    | some _ => none

/-- The path of a header without its last key, and the last key. -/
def splitLast (path : List String) : Option (List String × String) :=
  path.getLast?.map fun key => (path.dropLast, key)

def header (path : List String) (t : Table) : Option Table :=
  (splitLast path).bind fun (up, key) => t.within up (openTable key)

def element (path : List String) (t : Table) : Option Table :=
  (splitLast path).bind fun (up, key) => t.within up (openElement key)

/-- Binds a key that is not bound yet. -/
def bindNew (key : String) (v : Reading) (t : Table) : Option Table :=
  t.alter key fun
    | none => some (.value v)
    | some _ => none

/-- Binds a dotted key.  Its last table must have come about by dotted keys, those before it not by
a header of their own. -/
def assign (path : List String) (v : Reading) (t : Table) : Option Table :=
  match path with
  | [] => none
  | [key] => t.bindNew key v
  | key :: rest =>
    t.alter key fun
      | none => (assign rest v []).map (.table .dotted)
      | some (.table .header _) => none
      | some (.table o ms) =>
        if rest.length = 1 ∧ o ≠ .dotted then none else (assign rest v ms).map (.table o)
      | some (.tables (ms :: es)) =>
        if rest.length = 1 then none
        else (assign rest v ms).map fun ms => .tables (ms :: es)
      | some _ => none

/-- A member in its place among ordered ones. -/
def insertMember (m : String × Reading) : List (String × Reading) → List (String × Reading)
  | [] => [m]
  | n :: ns => if m.1 < n.1 then m :: n :: ns else n :: insertMember m ns

/-- The members in the order of their keys. -/
def sortMembers (ms : List (String × Reading)) : List (String × Reading) :=
  ms.foldl (fun acc m => insertMember m acc) []

mutual
def readingItem : Item → Reading
  | .value v => v
  | .table _ ms => .table (sortMembers (readingMembers ms)) true
  | .tables es => .list (readingElements es []) true

def readingMembers : List (String × Item) → List (String × Reading)
  | [] => []
  | (k, i) :: ms => (k, readingItem i) :: readingMembers ms

/-- The elements in front of `later`. -/
def readingElements : List (List (String × Item)) → List Reading → List Reading
  | [], later => later
  | ms :: es, later => readingElements es (.table (sortMembers (readingMembers ms)) true :: later)
end

def reading (t : Table) : Reading := .table (sortMembers (readingMembers t)) true

end Table

end Readiness.Toml

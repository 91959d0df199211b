import Readiness.FileTree.Path

/-!
# FileTree — Basic

Files and directories as a value.  A `Location` is the list of names from the root of the file
system, and a tree binds locations to entries; `put` and `erase` touch one location each.

* `FileTree.get?_put`, `FileTree.get?_erase` say what an operation does to every location.
-/

namespace Readiness

/-- The names from the root of the file system to a file or directory. -/
abbrev Location := List String

inductive Entry where
  | file (contents : ByteArray)
  | directory
deriving DecidableEq

structure FileTree where
  entries : List (Location × Entry)

namespace FileTree

def empty : FileTree := ⟨[]⟩

/-- The entry at a location.  The root of the file system is always a directory. -/
def get? (t : FileTree) (l : Location) : Option Entry :=
  if l = [] then some .directory else t.entries.lookup l

/-- The tree without an entry at `l`. -/
def erase (t : FileTree) (l : Location) : FileTree := ⟨t.entries.filter fun e => e.1 != l⟩

/-- The tree with the entry `e` at `l`. -/
def put (t : FileTree) (l : Location) (e : Entry) : FileTree :=
  ⟨(t.erase l).entries ++ [(l, e)]⟩

/-- The tree without the entries at `l` and below it. -/
def eraseBelow (t : FileTree) (l : Location) : FileTree :=
  ⟨t.entries.filter fun e => !l.isPrefixOf e.1⟩

/-- The names of the entries right below `l`. -/
def children (t : FileTree) (l : Location) : List String :=
  t.entries.filterMap fun e =>
    match e.1.getLast? with
    | some name => if e.1.dropLast = l then some name else none
    | none => none

/-! ### What an operation does to every location -/

theorem lookup_filter_ne (l k : Location) (es : List (Location × Entry)) :
    (es.filter fun e => e.1 != l).lookup k = if k = l then none else es.lookup k := by
  induction es with
  | nil => simp
  | cons e es ih =>
    obtain ⟨a, x⟩ := e
    by_cases hk : k = a
    · subst hk
      by_cases hl : k = l
      · simpa [hl] using ih
      · simp [hl]
    · have hb : (k == a) = false := by simpa using hk
      by_cases ha : a = l
      · subst ha
        simp [List.lookup_cons, hb, ih, hk]
      · simp [ha, List.lookup_cons, hb, ih]

/-- Erasing touches one location. -/
theorem get?_erase (t : FileTree) (l k : Location) :
    (t.erase l).get? k = if k = l ∧ k ≠ [] then none else t.get? k := by
  by_cases h : k = [] <;> simp [get?, erase, lookup_filter_ne, h]

/-- Putting touches one location. -/
theorem get?_put (t : FileTree) (l : Location) (e : Entry) (k : Location) :
    (t.put l e).get? k = if k = l ∧ k ≠ [] then some e else t.get? k := by
  by_cases h : k = []
  · simp [get?, h]
  · by_cases hk : k = l
    · subst hk
      simp [get?, put, erase, lookup_filter_ne, h, List.lookup_append]
    · have hb : (k == l) = false := by simpa using hk
      simp [get?, put, erase, lookup_filter_ne, h, hk, hb, List.lookup_append, List.lookup_cons]

end FileTree

end Readiness

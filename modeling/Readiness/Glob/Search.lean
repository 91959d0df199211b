import Readiness.FileTree.Access
import Readiness.Glob.Pattern

/-!
# Glob — Search

Which entries of a file tree a pattern for paths matches.

* `leadsTo` says whether some path that the segments describe exists;
* `search` asks that of a whole pattern, below a directory.

Segments without wildcards are followed as in any path, so that dots and empty ones keep their
meaning.  Wildcards match names, with a dot in front too.
-/

namespace Readiness.Glob

/-- The entry at a location is a directory. -/
def isDirectoryAt (t : FileTree) (l : Location) : Bool := t.get? l == some .directory

/-- The directory at `l` and all directories below it. -/
def directoriesBelow (t : FileTree) (l : Location) : List Location :=
  l :: (t.entries.filter fun e => e.2 == .directory && l.isPrefixOf e.1 && e.1 != l).map (·.1)

/-- The entries right below `l` whose names satisfy `p`. -/
def childrenWith (t : FileTree) (p : List Char → Bool) (l : Location) : List Location :=
  ((t.children l).filter fun name => p name.toList).map fun name => l ++ [name]

/-- Where a segment without wildcards leads from a directory. -/
def follow (t : FileTree) (name : List Char) (l : Location) : List Location :=
  if name = [] ∨ name = ['.'] then [l]
  else if name = ['.', '.'] then [l.dropLast]
  else
    let child := l ++ [String.ofList name]
    if (t.get? child).isSome then [child] else []

/-- The directory itself and its parent, where a pattern that begins with a dot matches them. -/
def dotted (p : Pattern) (l : Location) : List Location :=
  if p.head? = some (.char '.') then
    (if p.accepts ['.'] then [l] else []) ++ (if p.accepts ['.', '.'] then [l.dropLast] else [])
  else []

/-- Where a segment leads from `l`; nothing but a directory leads on. -/
def next (t : FileTree) (p : Pattern) (l : Location) : List Location :=
  if !isDirectoryAt t l then []
  else
    match p.literal? with
    | some name => follow t name l
    | none => childrenWith t p.accepts l ++ dotted p l

/-- Some path that the segments describe, from `l` on, leads to an entry; `directory` admits
directories only.  A recursive wildcard before a segment looks for that in all directories. -/
def leadsTo (t : FileTree) (directory : Bool) : List Pattern → Location → Bool
  | [], l => !directory || isDirectoryAt t l
  | p :: ps, l =>
    if p = [.anyDirectories] then isDirectoryAt t l && anywhere t directory ps l
    else (next t p l).any (leadsTo t directory ps)
where
  /-- The segments are found in some directory at or below `l`, the first of them as a name. -/
  anywhere (t : FileTree) (directory : Bool) : List Pattern → Location → Bool
    | [], _ => true
    | p :: ps, l =>
      if p = [.anyDirectories] then anywhere t directory ps l
      else
        (directoriesBelow t l).any fun d =>
          (childrenWith t p.accepts d).any (leadsTo t directory ps)

/-- Something below the directory at `root` matches the pattern. -/
def search (t : FileTree) (root : Location) (g : Glob) : Bool :=
  leadsTo t g.directory g.segments root

end Readiness.Glob

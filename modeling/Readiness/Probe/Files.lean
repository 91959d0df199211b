import Readiness.FileTree.Access
import Readiness.Glob.Search
import Readiness.Json.Reader
import Readiness.Outcome
import Readiness.Regex.Search
import Readiness.Toml.Reader
import Readiness.Yaml.Value

/-!
# Probe — Files

Questions that the files of the work tree answer: what is there, what a text matches, and what keys
a document has.  Paths are seen from `root`.
-/

namespace Readiness.Probe

/-- A document format whose keys can be asked for. -/
inductive Format where
  | yaml
  | json
  | toml
deriving DecidableEq, Repr

namespace Format

def name : Format → String
  | .yaml => "YAML"
  | .json => "JSON"
  | .toml => "TOML"

/-- The value of a text in the format. -/
def read : Format → String → Option Document
  | .yaml => Yaml.document?
  | .json => Json.document?
  | .toml => Toml.document?

end Format

/-! ### Presence -/

def fileExists (t : FileTree) (root path : String) : Outcome :=
  match t.stat? (Path.join root path) with
  | some (.file _)  => .pass
  | some .directory => .fail (path ++ " exists but is not a file")
  | none            => .fail (path ++ " not found")

def dirExists (t : FileTree) (root path : String) : Outcome :=
  match t.stat? (Path.join root path) with
  | some .directory => .pass
  | some (.file _)  => .fail (path ++ " exists but is not a directory")
  | none            => .fail (path ++ "/ not found")

def anyFileExists (t : FileTree) (root : String) (paths : List String) : Outcome :=
  .passIf (paths.any fun p => t.isFile (Path.join root p))
    ("none of " ++ Text.join ", " paths ++ " found")

def globMatches (t : FileTree) (root pattern : String) : Outcome :=
  match Glob.parse pattern with
  | .error e =>
    .fail ("invalid glob '" ++ pattern ++ "': Pattern syntax error: " ++ e.message)
  | .ok g =>
    .passIf ((t.find? root).any fun r => Glob.search t r.1 g) ("no file matches " ++ pattern)

/-! ### Contents -/

/-- The text of a file matches a regular expression, which is looked at before the file. -/
def fileContains (t : FileTree) (root path pattern : String) : Outcome :=
  match Regex.Expr.parse? pattern with
  | none => .fail ("invalid pattern /" ++ pattern ++ "/: malformed expression")
  | some e =>
    match t.readText (Path.join root path) with
    | .ok text => .passIf (e.occursIn text) (path ++ " does not match /" ++ pattern ++ "/")
    | .error _ => .fail (path ++ " not found or unreadable")

/-- The value of a file, or why it has none. -/
def loadDocument (t : FileTree) (path : String) (format : Format) : Except String Document :=
  match t.readText path with
  | .error _ => .error "not found or unreadable"
  | .ok text =>
    match format.read text with
    | some d => .ok d
    | none => .error ("invalid " ++ format.name ++ ": malformed document")

/-- A document has a dotted key. -/
def hasKey (t : FileTree) (root path key : String) (format : Format) : Outcome :=
  match loadDocument t (Path.join root path) format with
  | .error reason => .fail (path ++ ": " ++ reason)
  | .ok d => .passIf (d.lookup key).isSome (path ++ " has no key '" ++ key ++ "'")

end Readiness.Probe

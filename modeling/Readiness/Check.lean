import Readiness.Document.Record

/-!
# Check

A check pairs a description with a `Predicate`, the question a probe answers about the working
tree, the history or the hosted repository.

* `Predicate.toDocument` writes a predicate as a table with its kind and its arguments;
* `Predicate.ofMembers` and `Predicate.decode` read it back, the kind standing anywhere;
* `Predicate.isHosted` and `Predicate.isGate` sort the kinds.
-/

namespace Readiness

/-- The question a check asks. -/
inductive Predicate where
  /-- A regular file exists. -/
  | fileExists (path : String)
  /-- A directory exists. -/
  | dirExists (path : String)
  /-- One of several regular files exists. -/
  | anyFileExists (paths : List String)
  /-- Some path matches a glob. -/
  | globMatches (pattern : String)
  /-- A file's text matches a regular expression. -/
  | fileContains (path pattern : String)
  /-- A YAML document has a dotted key. -/
  | yamlKey (path key : String)
  /-- A JSON document has a dotted key. -/
  | jsonKey (path key : String)
  /-- A TOML document has a dotted key. -/
  | tomlKey (path key : String)
  /-- A remote is configured. -/
  | gitRemote (name : String)
  /-- A recent commit message contains a marker. -/
  | handshakeCommit (marker : String)
  /-- An issue title contains a marker. -/
  | handshakeIssue (marker : String)
  /-- The default branch is protected as demanded. -/
  | branchProtection (requiredCheck : Option String) (enforceAdmins : Bool)
      (minApprovals : Option Nat)
  /-- The latest run on the default branch succeeded. -/
  | ciGreen (workflow : Option String)
  /-- The latest run on the default branch has a job that succeeded. -/
  | ciJob (name : String) (workflow : Option String)
  /-- Every check of the current pull request is green. -/
  | prChecksGreen
  /-- Another step holds a current proof. -/
  | proofExists (step : String)
deriving DecidableEq, Repr

namespace Predicate

/-- The kinds of predicate, in their order. -/
inductive Kind where
  | fileExists | dirExists | anyFileExists | globMatches | fileContains | yamlKey | jsonKey
  | tomlKey | gitRemote | handshakeCommit | handshakeIssue | branchProtection | ciGreen | ciJob
  | prChecksGreen | proofExists
deriving DecidableEq, Repr

namespace Kind

def all : List Kind :=
  [.fileExists, .dirExists, .anyFileExists, .globMatches, .fileContains, .yamlKey, .jsonKey,
   .tomlKey, .gitRemote, .handshakeCommit, .handshakeIssue, .branchProtection, .ciGreen, .ciJob,
   .prChecksGreen, .proofExists]

/-- The word that names a kind. -/
def name : Kind → String
  | .fileExists       => "file_exists"
  | .dirExists        => "dir_exists"
  | .anyFileExists    => "any_file_exists"
  | .globMatches      => "glob_matches"
  | .fileContains     => "file_contains"
  | .yamlKey          => "yaml_key"
  | .jsonKey          => "json_key"
  | .tomlKey          => "toml_key"
  | .gitRemote        => "git_remote"
  | .handshakeCommit  => "handshake_commit"
  | .handshakeIssue   => "handshake_issue"
  | .branchProtection => "branch_protection"
  | .ciGreen          => "ci_green"
  | .ciJob            => "ci_job"
  | .prChecksGreen    => "pr_checks_green"
  | .proofExists      => "proof_exists"

def ofName? (s : String) : Option Kind := all.find? fun k => k.name == s

end Kind

def kind : Predicate → Kind
  | .fileExists _           => .fileExists
  | .dirExists _            => .dirExists
  | .anyFileExists _        => .anyFileExists
  | .globMatches _          => .globMatches
  | .fileContains ..        => .fileContains
  | .yamlKey ..             => .yamlKey
  | .jsonKey ..             => .jsonKey
  | .tomlKey ..             => .tomlKey
  | .gitRemote _            => .gitRemote
  | .handshakeCommit _      => .handshakeCommit
  | .handshakeIssue _       => .handshakeIssue
  | .branchProtection ..    => .branchProtection
  | .ciGreen _              => .ciGreen
  | .ciJob ..               => .ciJob
  | .prChecksGreen          => .prChecksGreen
  | .proofExists _          => .proofExists

/-- Answering needs the hosted repository. -/
def isHosted (p : Predicate) : Bool :=
  match p.kind with
  | .handshakeIssue | .branchProtection | .ciGreen | .ciJob | .prChecksGreen => true
  | _ => false

/-- The predicate is a gate on another step. -/
def isGate (p : Predicate) : Bool := p.kind == .proofExists

/-! ### Writing -/

/-- An optional argument, left out when it has no value. -/
def optionalMember {α : Type} (name : String) (f : α → Document) :
    Option α → List (String × Document)
  | some a => [(name, f a)]
  | none => []

/-- The arguments with their names, in order. -/
def arguments : Predicate → List (String × Document)
  | .fileExists p | .dirExists p => [("path", .text p)]
  | .anyFileExists ps => [("paths", .list (ps.map .text))]
  | .globMatches p => [("pattern", .text p)]
  | .fileContains p q => [("path", .text p), ("pattern", .text q)]
  | .yamlKey p k | .jsonKey p k | .tomlKey p k => [("path", .text p), ("key", .text k)]
  | .gitRemote n => [("name", .text n)]
  | .handshakeCommit m | .handshakeIssue m => [("marker", .text m)]
  | .branchProtection c a n =>
    optionalMember "required_check" .text c ++ [("enforce_admins", .bool a)] ++
      optionalMember "min_approvals" (fun n => .integer n) n
  | .ciGreen w => optionalMember "workflow" .text w
  | .ciJob n w => ("name", .text n) :: optionalMember "workflow" .text w
  | .prChecksGreen => []
  | .proofExists s => [("step", .text s)]

/-- The predicate as a table: its kind, then its arguments. -/
def members (p : Predicate) : List (String × Document) :=
  ("kind", .text p.kind.name) :: p.arguments

def toDocument (p : Predicate) : Document := .table p.members

/-! ### Reading -/

open Decoder Record

/-- The largest approval count. -/
def approvalsMax : Nat := 2 ^ 32 - 1

/-- The fields a kind has. -/
def Kind.fields : Kind → List Field
  | .fileExists | .dirExists => [required "path" text]
  | .anyFileExists => [required "paths" (items text)]
  | .globMatches => [required "pattern" text]
  | .fileContains => [required "path" text, required "pattern" text]
  | .yamlKey | .jsonKey | .tomlKey => [required "path" text, required "key" text]
  | .gitRemote => [required "name" text]
  | .handshakeCommit | .handshakeIssue => [required "marker" text]
  | .branchProtection =>
    [defaulted "required_check" (optional text), defaulted "enforce_admins" flag,
     defaulted "min_approvals" (optional (natural approvalsMax))]
  | .ciGreen => [defaulted "workflow" (optional text)]
  | .ciJob => [required "name" text, defaulted "workflow" (optional text)]
  | .prChecksGreen => []
  | .proofExists => [required "step" text]

/-- The predicate of a kind with the given arguments. -/
def ofSlots (slots : Slots) : Kind → Except Fault Predicate
  | .fileExists => return .fileExists (← slots.get "path" text)
  | .dirExists => return .dirExists (← slots.get "path" text)
  | .anyFileExists => return .anyFileExists (← slots.get "paths" (items text))
  | .globMatches => return .globMatches (← slots.get "pattern" text)
  | .fileContains => return .fileContains (← slots.get "path" text) (← slots.get "pattern" text)
  | .yamlKey => return .yamlKey (← slots.get "path" text) (← slots.get "key" text)
  | .jsonKey => return .jsonKey (← slots.get "path" text) (← slots.get "key" text)
  | .tomlKey => return .tomlKey (← slots.get "path" text) (← slots.get "key" text)
  | .gitRemote => return .gitRemote (← slots.get "name" text)
  | .handshakeCommit => return .handshakeCommit (← slots.get "marker" text)
  | .handshakeIssue => return .handshakeIssue (← slots.get "marker" text)
  | .branchProtection =>
    return .branchProtection (← slots.getD "required_check" (optional text) none)
      (← slots.getD "enforce_admins" flag false)
      (← slots.getD "min_approvals" (optional (natural approvalsMax)) none)
  | .ciGreen => return .ciGreen (← slots.getD "workflow" (optional text) none)
  | .ciJob =>
    return .ciJob (← slots.get "name" text) (← slots.getD "workflow" (optional text) none)
  | .prChecksGreen => return .prChecksGreen
  | .proofExists => return .proofExists (← slots.get "step" text)

/-- The kind a tag names. -/
def decodeKind : Decoder Kind
  | .text (some s) =>
    match Kind.ofName? s with
    | some k => .ok k
    | none => .error (.unknownVariant s (Kind.all.map Kind.name))
  | r => .error (mismatch r)

/-- The predicate of a kind whose arguments are `r`.  A kind without arguments takes any. -/
def decodeArguments (k : Kind) (r : Reading) : Except Fault Predicate :=
  if k = .prChecksGreen then .ok .prChecksGreen
  else do
    let slots ← Record.read .wrongLength k.fields r
    ofSlots slots k

/-- The tag and the other members, in order; every value must be one that can be kept. -/
def splitKind (depth : Nat) (closed : Bool) :
    List (String × Reading) → Option Kind → List (String × Reading) →
      Except Fault (Kind × List (String × Reading))
  | [], k, rest =>
    if !closed then .error .malformed
    else
      match k with
      | some k => .ok (k, rest)
      | none => .error (.missingField "kind")
  | (key, v) :: ms, k, rest =>
    if key = "kind" then
      if k.isSome then .error (.duplicateField "kind")
      else
        match decodeKind v with
        | .ok k => splitKind depth closed ms (some k) rest
        | .error e => .error e
    else if v.sound depth then splitKind depth closed ms k (rest ++ [(key, v)])
    else .error .malformed

/-- The predicate among the members of a table. -/
def ofMembers (depth : Nat) (closed : Bool) (ms : List (String × Reading)) :
    Except Fault Predicate := do
  let (k, rest) ← splitKind depth closed ms none []
  decodeArguments k (.table rest true)

/-- A predicate, written as a table or as a list that begins with the kind.  At most `depth` lists
and tables stand inside each other. -/
def decodeAt (depth : Nat) : Decoder Predicate
  | .table ms closed => ofMembers (depth - 1) closed ms
  | .list [] closed => .error (if closed then .missingField "kind" else .malformed)
  | .list (x :: xs) closed => do
    let k ← decodeKind x
    if closed && Reading.soundItems (depth - 1) xs then decodeArguments k (.list xs true)
    else throw .malformed
  | r => .error (mismatch r)

end Predicate

/-- A named check of a step. -/
structure Check where
  /-- Its ordinal within the step, from 1. -/
  id : Nat
  description : String
  predicate : Predicate
deriving DecidableEq, Repr

/-- The check in a report. -/
def Check.toDocument (c : Check) : Document :=
  .table [("id", .integer c.id), ("description", .text c.description),
    ("predicate", c.predicate.toDocument)]

end Readiness

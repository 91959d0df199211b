import Readiness.Rulebook.Basic
import Readiness.Toml.Reader
import Readiness.Toml.Writer

/-!
# Rulebook — Record

A rulebook as a document, and its TOML form.

* `Rulebook.toDocument` and `Rulebook.decode` are inverse on well-formed rulebooks;
* `Rulebook.write` and `Rulebook.parse` go through TOML text, and `parse` validates.

In a check the arguments of the predicate stand beside the description.
-/

namespace Readiness

open Decoder Record

/-! ### Writing -/

def Settings.members (s : Settings) : List (String × Document) :=
  [("proof_dir", .text s.proofDir), ("fallback_branch", .text s.fallbackBranch),
   ("history_depth", .integer s.historyDepth)]

def CheckDef.members (c : CheckDef) : List (String × Document) :=
  ("description", .text c.description) ::
    Predicate.optionalMember "stack" (fun s => .text s.name) c.stack ++ c.predicate.members

def StepDef.members (s : StepDef) : List (String × Document) :=
  ("name", .text s.name) :: Predicate.optionalMember "title" .text s.title ++
    Predicate.optionalMember "requires" .text s.requires ++
    (if s.shortCircuit then [("short_circuit", .bool true)] else []) ++
    [("check", .list (s.checks.map fun c => .table c.members))]

namespace Rulebook

def members (r : Rulebook) : List (String × Document) :=
  [("settings", .table r.settings.members),
   ("step", .list (r.steps.map fun s => .table s.members))]

def toDocument (r : Rulebook) : Document := .table r.members

/-- The largest integer a TOML text is written with. -/
def integerMax : Nat := 2 ^ 63 - 1

/-- The rulebook as TOML; a history that no integer holds cannot be written. -/
def write (r : Rulebook) : Option String :=
  if integerMax < r.settings.historyDepth then none else some (Toml.write r.members)

end Rulebook

/-! ### Reading -/

def Settings.depthMax : Nat := 2 ^ 64 - 1

/-- The settings; whatever is absent has its standard value. -/
def Settings.decode : Decoder Settings := fun r => do
  let slots ← Record.read .ignored
    [defaulted "proof_dir" text, defaulted "fallback_branch" text,
     defaulted "history_depth" (natural Settings.depthMax)] r
  return {
    proofDir := ← slots.getD "proof_dir" text Settings.standard.proofDir
    fallbackBranch := ← slots.getD "fallback_branch" text Settings.standard.fallbackBranch
    historyDepth := ← slots.getD "history_depth" (natural Settings.depthMax)
      Settings.standard.historyDepth }

namespace CheckDef

/-- What stands beside the predicate of a check. -/
structure Head where
  description : Option String
  stack : Option Stack
  /-- The other members. -/
  rest : List (String × Reading)

/-- The members that belong to the check itself, in order. -/
def splitHead : List (String × Reading) → Head → Except Fault Head
  | [], h => .ok h
  | (k, v) :: ms, h =>
    if k = "description" then do
      let d ← text v
      splitHead ms { h with description := some d }
    else if k = "stack" then do
      let s ← Stack.decode v
      splitHead ms { h with stack := some s }
    else splitHead ms { h with rest := h.rest ++ [(k, v)] }

/-- How many lists and tables may stand inside each other in a predicate. -/
def depthMax : Nat := 1000

/-- A check; it is always a table. -/
def decode : Decoder CheckDef
  | .table ms closed => do
    let head ← splitHead ms ⟨none, none, []⟩
    match head.description with
    | none => throw (.missingField "description")
    | some d =>
      let p ← Predicate.ofMembers depthMax closed head.rest
      return ⟨d, head.stack, p⟩
  | .list .. => .error .wrongType
  | r => .error (mismatch r)

end CheckDef

def StepDef.decode : Decoder StepDef := fun r => do
  let slots ← Record.read .ignored
    [required "name" text, defaulted "title" (optional text), defaulted "requires" (optional text),
     defaulted "short_circuit" flag, defaulted "check" (items CheckDef.decode)] r
  return {
    name := ← slots.get "name" text
    title := ← slots.getD "title" (optional text) none
    requires := ← slots.getD "requires" (optional text) none
    shortCircuit := ← slots.getD "short_circuit" flag false
    checks := ← slots.getD "check" (items CheckDef.decode) [] }

namespace Rulebook

/-- A rulebook, whether it is well formed or not. -/
def decode : Decoder Rulebook := fun r => do
  let slots ← Record.read .ignored
    [defaulted "settings" Settings.decode, defaulted "step" (items StepDef.decode)] r
  return {
    settings := ← slots.getD "settings" Settings.decode .standard
    steps := ← slots.getD "step" (items StepDef.decode) [] }

/-- Why a text is no rulebook. -/
inductive Flaw where
  /-- It is not TOML. -/
  | syntactic
  | shape (f : Fault)
  | breach (b : RuleBreach)
deriving DecidableEq, Repr

def Flaw.message : Flaw → String
  | .syntactic => "TOML parse error: malformed document"
  | .shape f   => "TOML parse error: " ++ f.message
  | .breach b  => b.message

/-- The fault of a complete document: a number that no type holds has the wrong type. -/
def shapeFault : Fault → Fault
  | .malformed => .wrongType
  | f => f

/-- The well-formed rulebook in a text. -/
def parse (s : String) : Except Flaw Rulebook :=
  match Toml.read s with
  | none => .error .syntactic
  | some r =>
    match decode r with
    | .error f => .error (.shape (shapeFault f))
    | .ok book =>
      match book.validate with
      | .error b => .error (.breach b)
      | .ok () => .ok book

end Rulebook

end Readiness

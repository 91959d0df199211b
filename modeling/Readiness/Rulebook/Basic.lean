import Readiness.Check
import Readiness.Stack

/-!
# Rulebook — Basic

A rulebook is a list of steps in chain order.  A step is gated by the step before it unless it
names its prerequisite.

* `Rulebook.validate` refuses a rulebook that is not well formed, with the first rule it breaks;
* `Rulebook.prerequisite?` is the step whose proof gates a step.
-/

namespace Readiness

structure Settings where
  /-- The proof directory, seen from the root of the work tree. -/
  proofDir : String
  /-- The default branch where neither the host nor the tracking reference names one. -/
  fallbackBranch : String
  /-- How many commits are searched for a marker. -/
  historyDepth : Nat
deriving DecidableEq, Repr

def Settings.standard : Settings := ⟨".shipcheck/proofs", "main", 50⟩

/-- A check as it is declared. -/
structure CheckDef where
  description : String
  /-- The stack the check belongs to, when it belongs to one only. -/
  stack : Option Stack
  predicate : Predicate
deriving DecidableEq, Repr

/-- A step as it is declared. -/
structure StepDef where
  /-- The unique name, which is also part of a file name. -/
  name : String
  title : Option String
  /-- The prerequisite, when it is not the step before. -/
  requires : Option String
  /-- Hosted checks are skipped once the gate has failed. -/
  shortCircuit : Bool
  checks : List CheckDef
deriving DecidableEq, Repr

/-- The title, or the name of a step without one. -/
def StepDef.shownTitle (s : StepDef) : String := s.title.getD s.name

structure Rulebook where
  settings : Settings
  steps : List StepDef
deriving DecidableEq, Repr

/-- The rule a rulebook breaks. -/
inductive RuleBreach where
  | noSteps
  | noHistory
  | invalidName (name : String)
  | duplicateName (name : String)
  | requiresLater (name required : String)
  | noChecks (name : String)
  | declaredGate (name : String)
deriving DecidableEq, Repr

def RuleBreach.message : RuleBreach → String
  | .noSteps           => "no steps defined"
  | .noHistory         => "settings.history_depth must be at least 1"
  | .invalidName n     => "invalid step name '" ++ n ++ "': use letters, digits, '-' or '_'"
  | .duplicateName n   => "step '" ++ n ++ "' is defined more than once"
  | .requiresLater n r => "step '" ++ n ++ "' requires '" ++ r ++ "', which is not an earlier step"
  | .noChecks n        => "step '" ++ n ++ "' has no checks"
  | .declaredGate n    =>
    "step '" ++ n ++ "' declares a proof_exists check; use `requires` instead"

namespace Rulebook

/-! ### Rules -/

/-- A character of a step name. -/
def isNameChar (c : Char) : Bool := c.isAlphanum || c == '-' || c == '_'

/-- The name can be part of a file name as it is. -/
def isName (s : String) : Bool := s != "" && s.toList.all isNameChar

/-- The first rule a step breaks, after the steps named in `earlier`. -/
def breachOf (earlier : List String) (s : StepDef) : Option RuleBreach :=
  if !isName s.name then some (.invalidName s.name)
  else if earlier.contains s.name then some (.duplicateName s.name)
  else
    match s.requires.filter fun r => !earlier.contains r with
    | some r => some (.requiresLater s.name r)
    | none =>
      if s.checks.isEmpty then some (.noChecks s.name)
      else if s.checks.any fun c => c.predicate.isGate then some (.declaredGate s.name)
      else none

/-- The first breach among steps, after the steps named in `earlier`. -/
def breachIn (earlier : List String) : List StepDef → Option RuleBreach
  | [] => none
  | s :: ss =>
    match breachOf earlier s with
    | some b => some b
    | none => breachIn (earlier ++ [s.name]) ss

/-- The first rule the rulebook breaks: steps at all, some history, then step by step. -/
def breach? (r : Rulebook) : Option RuleBreach :=
  if r.steps.isEmpty then some .noSteps
  else if r.settings.historyDepth = 0 then some .noHistory
  else breachIn [] r.steps

def validate (r : Rulebook) : Except RuleBreach Unit :=
  match r.breach? with
  | some b => .error b
  | none => .ok ()

/-! ### Steps -/

/-- The step with a name. -/
def step? (r : Rulebook) (name : String) : Option StepDef := r.steps.find? fun s => s.name == name

/-- The position of a step, from 0. -/
def index? (r : Rulebook) (name : String) : Option Nat := r.steps.findIdx? fun s => s.name == name

/-- The step before position `i`. -/
def previous? (r : Rulebook) : Nat → Option String
  | 0 => none
  | i + 1 => r.steps[i]?.map (·.name)

/-- The prerequisite of the step at position `i`. -/
def gateAt? (r : Rulebook) (i : Nat) : Option String :=
  (r.steps[i]?).bind fun s => s.requires.or (r.previous? i)

/-- The step whose proof gates a step. -/
def prerequisite? (r : Rulebook) (name : String) : Option String :=
  (r.index? name).bind r.gateAt?

end Rulebook

end Readiness

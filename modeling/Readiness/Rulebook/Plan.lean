import Readiness.Failure
import Readiness.Rulebook.Basic

/-!
# Rulebook — Plan

A step resolved into the checks that will run: the gate on its prerequisite first, then the
declared checks of the detected stack, numbered in this order.
-/

namespace Readiness

structure StepPlan where
  name : String
  title : String
  /-- The position in the rulebook, from 1. -/
  number : Nat
  /-- The step whose proof gates this one. -/
  gate : Option String
  shortCircuit : Bool
  checks : List Check
deriving DecidableEq, Repr

namespace StepPlan

/-- Some check needs the hosted repository. -/
def needsHosted (p : StepPlan) : Bool := p.checks.any fun c => c.predicate.isHosted

/-- The step checks something besides its gate. -/
def hasOwnChecks (p : StepPlan) : Bool := p.checks.any fun c => !c.predicate.isGate

def toDocument (p : StepPlan) : Document :=
  .table [("name", .text p.name), ("title", .text p.title), ("number", .integer p.number),
    ("gate",
      match p.gate with
      | some g => .text g
      | none => .null),
    ("short_circuit", .bool p.shortCircuit), ("checks", .list (p.checks.map Check.toDocument))]

end StepPlan

namespace Rulebook

/-- The gate on a prerequisite. -/
def gateCheck (prerequisite : String) : String × Predicate :=
  ("Step '" ++ prerequisite ++ "' verified at the current revision", .proofExists prerequisite)

/-- The declared checks of a step for a stack. -/
def declaredChecks (s : StepDef) (stack : Stack) : List (String × Predicate) :=
  (s.checks.filter fun c => c.stack.all (· == stack)).map fun c => (c.description, c.predicate)

/-- Checks numbered from `n`. -/
def numbered (n : Nat) : List (String × Predicate) → List Check
  | [] => []
  | (d, p) :: cs => ⟨n, d, p⟩ :: numbered (n + 1) cs

/-- The plan of the step `s` at position `i`. -/
def planAt (r : Rulebook) (i : Nat) (s : StepDef) (stack : Stack) : StepPlan where
  name := s.name
  title := s.shownTitle
  number := i + 1
  gate := r.gateAt? i
  shortCircuit := s.shortCircuit
  checks := numbered 1 ((r.gateAt? i).toList.map gateCheck ++ declaredChecks s stack)

/-- The plan of a step for a stack. -/
def plan (r : Rulebook) (name : String) (stack : Stack) : Except Failure StepPlan :=
  match (r.index? name).bind fun i => r.steps[i]?.map fun s => r.planAt i s stack with
  | some p => .ok p
  | none => .error (.unknownStep name)

/-- The plans of all steps, in chain order. -/
def plans (r : Rulebook) (stack : Stack) : Except Failure (List StepPlan) :=
  r.steps.mapM fun s => r.plan s.name stack

end Rulebook

end Readiness

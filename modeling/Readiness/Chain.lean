import Readiness.Outcome
import Readiness.Proof.Store
import Readiness.Rulebook.Plan

/-!
# Chain

Verifying one step: its checks are evaluated in order and its proof is brought up to date.

* `StepResult` is the fold of the outcomes;
* `Evaluator` answers predicates over a state of its own and the files;
* `verifyStep` runs a plan: all passed writes a proof, anything else deletes it.

The gate does not stop a run, so one run shows the whole picture; but a step whose gate fails
cannot pass all its checks.
-/

namespace Readiness

/-! ### Results -/

/-- An evaluated check. -/
structure CheckOutcome where
  check : Check
  outcome : Outcome
deriving DecidableEq, Repr

def CheckOutcome.toDocument (c : CheckOutcome) : Document :=
  .table [("check", c.check.toDocument), ("outcome", c.outcome.toDocument)]

/-- The outcomes of a step, counted. -/
structure StepResult where
  step : String
  passed : Nat
  failed : Nat
  pending : Nat
  results : List CheckOutcome
deriving DecidableEq, Repr

namespace StepResult

def empty (step : String) : StepResult := ⟨step, 0, 0, 0, []⟩

/-- One evaluated check more. -/
def record (r : StepResult) (c : CheckOutcome) : StepResult :=
  let r := { r with results := r.results ++ [c] }
  match c.outcome.verdict with
  | .pass    => { r with passed := r.passed + 1 }
  | .fail    => { r with failed := r.failed + 1 }
  | .pending => { r with pending := r.pending + 1 }

/-- The result of evaluated checks. -/
def ofOutcomes (step : String) (cs : List CheckOutcome) : StepResult := cs.foldl record (empty step)

def total (r : StepResult) : Nat := r.passed + r.failed + r.pending

def allPassed (r : StepResult) : Bool := r.failed == 0 && r.pending == 0

def ratio (r : StepResult) : String := toString r.passed ++ "/" ++ toString r.total

end StepResult

/-! ### Running -/

/-- What a run works on: a state of its own, and the files. -/
structure Scene (τ : Type) where
  inner : τ
  files : FileTree

/-- Answers predicates; whatever goes wrong becomes an outcome. -/
abbrev Evaluator (τ : Type) := Predicate → Scene τ → Outcome × Scene τ

/-- The reason of a hosted check that is skipped after a failed gate. -/
def blockedByPrerequisite : String := "blocked by prerequisite step"

/-- Everything one run of a step produced. -/
structure StepRun where
  result : StepResult
  /-- The proof this run wrote. -/
  proof : Option ProofToken
  /-- The proof as it was found before the run. -/
  previous : ProofState
deriving DecidableEq, Repr

namespace Chain

variable {τ : Type}

/-- The check is not evaluated: the plan skips hosted checks once a gate has failed. -/
def isBlocked (plan : StepPlan) (gateFailed : Bool) (p : Predicate) : Bool :=
  plan.shortCircuit && gateFailed && p.isHosted

/-- Evaluates the checks in order, given whether a gate has failed already. -/
def evaluateEach (plan : StepPlan) (evaluate : Evaluator τ) :
    Bool → List Check → Scene τ → List CheckOutcome × Scene τ
  | _, [], s => ([], s)
  | gateFailed, c :: cs, s =>
    if isBlocked plan gateFailed c.predicate then
      let (rest, s) := evaluateEach plan evaluate gateFailed cs s
      (⟨c, .fail blockedByPrerequisite⟩ :: rest, s)
    else
      let (outcome, s) := evaluate c.predicate s
      let failed := gateFailed || (c.predicate.isGate && !outcome.isPass)
      let (rest, s) := evaluateEach plan evaluate failed cs s
      (⟨c, outcome⟩ :: rest, s)

/-- The proof after a run with this result: a new one, or none. -/
def settle (store : ProofStore) (step : String) (result : StepResult) (revision : Revision)
    (stamp : Stamp) (files : FileTree) : ProofStore.Result (Option ProofToken) :=
  if result.allPassed then
    match store.write step result.passed result.total revision stamp files with
    | (.ok p, files) => (.ok (some p), files)
    | (.error e, files) => (.error e, files)
  else
    match store.remove step files with
    | (.ok _, files) => (.ok none, files)
    | (.error e, files) => (.error e, files)

/-- Verifies a step.  A plan with nothing but its gate would certify nothing and is refused.  A
proof from another revision is deleted before anything runs. -/
def verifyStep (plan : StepPlan) (evaluate : Evaluator τ) (store : ProofStore)
    (revision : Revision) (stamp : Stamp) (s : Scene τ) : Except Failure StepRun × Scene τ :=
  if !plan.hasOwnChecks then (.error (.nothingToVerify plan.name), s)
  else
    match store.check plan.name revision s.files with
    | (.error e, files) => (.error e, { s with files })
    | (.ok previous, files) =>
      let (outcomes, s) := evaluateEach plan evaluate false plan.checks { s with files }
      let result := StepResult.ofOutcomes plan.name outcomes
      match settle store plan.name result revision stamp s.files with
      | (.error e, files) => (.error e, { s with files })
      | (.ok proof, files) => (.ok ⟨result, proof, previous⟩, { s with files })

end Chain

end Readiness

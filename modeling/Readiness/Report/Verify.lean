import Readiness.Chain
import Readiness.Report.Layout

/-!
# Report — Verify

What a run of one step found, and the proof it left.
-/

namespace Readiness

structure VerifyReport where
  step : String
  title : String
  /-- The position in the rulebook, from 1. -/
  number : Nat
  /-- The revision the checks ran at, abbreviated. -/
  revision : String
  run : StepRun
  /-- The path of the step's proof, as it is shown. -/
  proofPath : String
deriving DecidableEq, Repr

namespace VerifyReport

open Text

/-- The report on a run of a plan. -/
def ofRun (plan : StepPlan) (run : StepRun) (revision : Revision) (proofPath : String) :
    VerifyReport :=
  ⟨plan.name, plan.title, plan.number, revision.short, run, proofPath⟩

def allPassed (r : VerifyReport) : Bool := r.run.result.allPassed

def toDocument (r : VerifyReport) : Document :=
  .table [("step", .text r.step), ("title", .text r.title), ("number", .integer r.number),
    ("revision", .text r.revision), ("previous_proof", .text r.run.previous.label),
    ("passed", .integer r.run.result.passed), ("failed", .integer r.run.result.failed),
    ("pending", .integer r.run.result.pending), ("total", .integer r.run.result.total),
    ("results", .list (r.run.result.results.map CheckOutcome.toDocument)),
    ("proof",
      match r.run.proof with
      | some p => p.toDocument
      | none => .null),
    ("proof_path", .text r.proofPath)]

/-- The word for an outcome in a column of its own, in its colour. -/
def labelPiece (o : Outcome) : Piece :=
  let label := padEnd 7 o.label
  match o.verdict with
  | .pass    => boldColoured .green label
  | .fail    => boldColoured .red label
  | .pending => boldColoured .yellow label

/-- A check and, below it, why it did not pass. -/
def checkLines (c : CheckOutcome) : List Line :=
  [plain ("  [" ++ toString c.check.id ++ "] "), labelPiece c.outcome,
    plain (" " ++ c.check.description)] ::
    match c.outcome.reason? with
    | some reason => [[plain "          ", dimmed reason]]
    | none => []

/-- The lines about a former proof that was deleted. -/
def staleLines (previous : ProofState) : List Line :=
  match previous with
  | .stale _ => [[plain "  ", dimmed "Previous proof was stale and has been removed."], []]
  | _ => []

/-- The lines about the proof. -/
def proofLines (r : VerifyReport) : List Line :=
  match r.run.proof with
  | some proof =>
    [[boldColoured .green "VERIFIED", plain (" " ++ proof.token)],
     [plain ("Proof written to " ++ r.proofPath)]]
  | none =>
    [[boldColoured .red "NOT VERIFIED: no proof written"],
     [plain ("Fix the failing checks and run `shipcheck verify " ++ r.step ++ "` again.")]]

def lines (r : VerifyReport) : List Line :=
  [[bold ("Step " ++ toString r.number ++ ":"), plain " ", bold r.title,
    plain (" (" ++ r.step ++ ") at " ++ r.revision)], []] ++
    staleLines r.run.previous ++
    r.run.result.results.flatMap checkLines ++
    [[], [plain ("Result: " ++ toString r.run.result.passed ++ "/" ++
      toString r.run.result.total ++ " passed, " ++ toString r.run.result.failed ++ " failed, " ++
      toString r.run.result.pending ++ " pending")]] ++
    r.proofLines

def render (r : VerifyReport) : Layout → String := Layout.write r.toDocument r.lines

end VerifyReport

end Readiness

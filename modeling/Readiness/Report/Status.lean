import Readiness.Proof.Store
import Readiness.Report.Layout
import Readiness.Stack

/-!
# Report — Status

Which steps hold a proof at the current revision, and which step comes next.
-/

namespace Readiness

/-- A step and what its proof is worth. -/
structure StepStatus where
  /-- The position in the rulebook, from 1. -/
  number : Nat
  name : String
  title : String
  state : ProofState
deriving DecidableEq, Repr

structure StatusReport where
  /-- The current revision, abbreviated. -/
  revision : String
  stack : Stack
  /-- The steps in chain order. -/
  steps : List StepStatus
deriving DecidableEq, Repr

namespace StepStatus

open Text

def isVerified (s : StepStatus) : Bool := s.state.isCurrent

def toDocument (s : StepStatus) : Document :=
  .table [("number", .integer s.number), ("name", .text s.name), ("title", .text s.title),
    ("state", .text s.state.label),
    ("proof",
      match s.state.proof? with
      | some p => p.toDocument
      | none => .null)]

/-- The state in a column of its own, in its colour. -/
def statePiece (state : ProofState) : Piece :=
  let label := padEnd 8 state.label
  match state with
  | .current _ => coloured .green label
  | .stale _   => coloured .yellow label
  | .missing   => dimmed label

def line (s : StepStatus) : Line :=
  [plain ("  " ++ padStart 2 ' ' (toString s.number) ++ ". "), statePiece s.state,
   plain (" " ++ s.title ++ " (" ++ s.name ++ ")")]

end StepStatus

namespace StatusReport

open Text

def toDocument (r : StatusReport) : Document :=
  .table [("revision", .text r.revision), ("stack", .text r.stack.name),
    ("steps", .list (r.steps.map StepStatus.toDocument))]

/-- How many steps hold a proof. -/
def verified (r : StatusReport) : Nat := r.steps.countP StepStatus.isVerified

/-- The first step without a proof. -/
def next? (r : StatusReport) : Option String :=
  (r.steps.find? fun s => !s.isVerified).map (·.name)

/-- The line that names the step to verify next. -/
def nextLine (r : StatusReport) : List Line :=
  match r.next? with
  | some name => [[plain ("Next: shipcheck verify " ++ name)]]
  | none => []

def lines (r : StatusReport) : List Line :=
  [plain ("Revision " ++ r.revision ++ " (" ++ r.stack.name ++ " stack)")] :: [] ::
    r.steps.map StepStatus.line ++
    [[], [plain (toString r.verified ++ "/" ++ toString r.steps.length ++ " steps verified")]] ++
    r.nextLine

def render (r : StatusReport) : Layout → String := Layout.write r.toDocument r.lines

end StatusReport

end Readiness

import Readiness.Report.Layout
import Readiness.Rulebook.Plan

/-!
# Report — StepList

The steps of a rulebook and the checks each of them would run.
-/

namespace Readiness

structure StepList where
  /-- The stack the plans are for. -/
  stack : Stack
  /-- The plans in chain order. -/
  plans : List StepPlan
deriving DecidableEq, Repr

namespace StepList

open Text

def toDocument (l : StepList) : Document :=
  .table [("stack", .text l.stack.name), ("steps", .list (l.plans.map StepPlan.toDocument))]

/-- The mark of a check that needs the hosted repository. -/
def hostedMark (p : Predicate) : String := if p.isHosted then " [gh]" else ""

def checkLine (c : Check) : Line :=
  [plain ("   [" ++ toString c.id ++ "] " ++ c.description), dimmed (hostedMark c.predicate)]

def planLines (p : StepPlan) : List Line :=
  [bold (toString p.number ++ ". " ++ p.title ++ " (" ++ p.name ++ ")")] :: p.checks.map checkLine

/-- The plans, an empty line between neighbours. -/
def blocks : List StepPlan → List Line
  | [] => []
  | [p] => planLines p
  | p :: q :: ps => planLines p ++ [] :: blocks (q :: ps)

def lines (l : StepList) : List Line := blocks l.plans

def render (l : StepList) : Layout → String := Layout.write l.toDocument l.lines

end StepList

end Readiness

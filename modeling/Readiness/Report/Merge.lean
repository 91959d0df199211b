import Readiness.Merge
import Readiness.Report.Layout

/-!
# Report — Merge

What is shown after a merge.
-/

namespace Readiness.MergeReport

open Text

def toDocument (r : MergeReport) : Document := .table (("success", .bool true) :: r.members)

/-- The line about approvals that were relaxed for the merge. -/
def relaxedLine (r : MergeReport) : List Line :=
  match r.formerApprovals with
  | some n =>
    if r.relaxed then
      [[plain ("Relaxed required approvals on '" ++ r.branch ++ "' from " ++ toString n ++
        " to 0 and restored it.")]]
    else []
  | none => []

def lines (r : MergeReport) : List Line :=
  r.relaxedLine ++
    [[boldColoured .green "Merged", plain (" pull request #" ++ toString r.pullRequest)]]

def render (r : MergeReport) : Layout → String := Layout.write r.toDocument r.lines

end Readiness.MergeReport

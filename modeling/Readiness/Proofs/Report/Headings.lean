import Readiness.Proofs.Report.Status
import Readiness.Report.StepList

/-!
# Report — how the steps are named

Two reports name every step by its number, its name and its title: the list of the steps and the
report on their proofs.

* `Layout.Shows`: a printed text names these steps, each by an entry or by a line.
* `StepList.shows_render`, `StatusReport.shows_render`: the two reports do.
-/

namespace Readiness

open Text

/-- The text names these steps, in this order.  For machines it has an entry for each, and for
people these lines. -/
def Layout.Shows (headings : List (Nat × String × String)) (named : List Line) (text : String) :
    Layout → Prop
  | .json => ∃ d entries, text = Json.pretty d ++ "\n" ∧ d.child? "steps" = some (.list entries) ∧
      List.Forall₂ Document.HasHeading entries headings
  | .lines colours => ∃ lines, text = Line.showAll colours lines ∧ named.Sublist lines

/-! ### The steps of a rulebook -/

/-- What a plan is named by. -/
def StepPlan.heading (p : StepPlan) : Nat × String × String := (p.number, p.name, p.title)

namespace StepList

/-- The line that names a step, above its checks. -/
def headingLine (x : Nat × String × String) : Line :=
  [bold (toString x.1 ++ ". " ++ x.2.2 ++ " (" ++ x.2.1 ++ ")")]

theorem sublist_blocks (ps : List StepPlan) :
    ((ps.map StepPlan.heading).map headingLine).Sublist (blocks ps) := by
  fun_induction blocks ps with
  | case1 => exact .slnil
  | case2 p => exact (List.nil_sublist _).cons_cons _
  | case3 p q ps ih =>
      have hp : [headingLine p.heading].Sublist (planLines p) := (List.nil_sublist _).cons_cons _
      exact hp.append (ih.cons [])

theorem shows_render (s : StepList) (l : Layout) :
    l.Shows (s.plans.map StepPlan.heading) ((s.plans.map StepPlan.heading).map headingLine)
      (s.render l) := by
  cases l with
  | json =>
      refine ⟨s.toDocument, _, rfl, rfl, ?_⟩
      rw [List.forall₂_map_left_iff, List.forall₂_map_right_iff, List.forall₂_same]
      exact fun p _ => ⟨rfl, rfl, rfl⟩
  | lines colours => exact ⟨s.lines, rfl, sublist_blocks s.plans⟩

end StepList

/-! ### The proofs of the steps -/

namespace StatusReport

/-- The line that names a step and says what its proof is worth. -/
def headingLine (x : Nat × String × String) (state : ProofState) : Line :=
  [plain ("  " ++ padStart 2 ' ' (toString x.1) ++ ". "), StepStatus.statePiece state,
   plain (" " ++ x.2.2 ++ " (" ++ x.2.1 ++ ")")]

theorem shows_render (r : StatusReport) (l : Layout) :
    l.Shows (r.steps.map StepStatus.heading)
      (List.zipWith headingLine (r.steps.map StepStatus.heading) (r.steps.map (·.state)))
      (r.render l) := by
  cases l with
  | json =>
      refine ⟨r.toDocument, _, rfl, rfl, ?_⟩
      rw [List.forall₂_map_left_iff, List.forall₂_map_right_iff, List.forall₂_same]
      exact fun x _ => x.entry_toDocument.toHasHeading
  | lines colours =>
      have hline : List.zipWith headingLine (r.steps.map StepStatus.heading)
          (r.steps.map (·.state)) = r.steps.map StepStatus.line := by
        rw [List.zipWith_map, List.zipWith_self]
        rfl
      refine ⟨r.lines, rfl, ?_⟩
      rw [hline, lines_eq, List.append_assoc]
      exact (List.sublist_append_left _ _).cons _ |>.cons _

end StatusReport

end Readiness

import Readiness.Proofs.Text.Styled
import Readiness.Report.Merge
import Readiness.Report.Status
import Readiness.Report.StepList
import Readiness.Report.Verify

/-!
# Report — colours

What a report says does not depend on whether it is shown in colours.  The texts that a report is
made of come from elsewhere, so they are asked to have no escape characters; all others have none.

* `texts` of each report: the texts that it shows and that come from elsewhere.
* `escapeless_lines` of each report: no line has an escape character where no text has one.
* `Layout.unstyle_render`: without its style sequences a report in colours is the one without.
-/

namespace Readiness

open Text

/-! ### A run of one step -/

namespace VerifyReport

/-- The texts of an evaluated check. -/
def checkTexts (c : CheckOutcome) : List String :=
  c.check.description :: c.outcome.reason?.toList

/-- The texts that the report shows. -/
def texts (r : VerifyReport) : List String :=
  [r.step, r.title, r.revision, r.proofPath] ++ r.run.result.results.flatMap checkTexts ++
    r.run.proof.toList.map (·.token)

theorem escapeless_labelPiece (o : Outcome) : Text.Escapeless (labelPiece o).text := by
  have h : Text.Escapeless o.label := by
    rw [Outcome.label]
    split <;> decide
  rw [labelPiece]
  cases o <;> exact escapeless_padEnd 7 h

theorem escapeless_checkLines {c : CheckOutcome} (h : ∀ s ∈ checkTexts c, Text.Escapeless s) :
    ∀ l ∈ checkLines c, l.Escapeless := by
  obtain ⟨hdescription, hreason⟩ := List.forall_mem_cons.mp h
  have hhead : Line.Escapeless [plain ("  [" ++ toString c.check.id ++ "] "), labelPiece c.outcome,
      plain (" " ++ c.check.description)] := by
    simp only [Line.Escapeless, List.forall_mem_cons, plain, escapeless_append]
    exact ⟨⟨⟨by decide, escapeless_toString _⟩, by decide⟩, escapeless_labelPiece _,
      ⟨by decide, hdescription⟩, List.forall_mem_nil _⟩
  rw [checkLines, List.forall_mem_cons]
  refine ⟨hhead, ?_⟩
  cases hr : c.outcome.reason? with
  | none => exact List.forall_mem_nil _
  | some reason =>
      have hreason : Text.Escapeless reason := hreason reason (Option.mem_toList.mpr hr)
      simp only [Line.Escapeless, List.forall_mem_singleton, List.forall_mem_cons, plain, dimmed]
      exact ⟨by decide, hreason⟩

theorem escapeless_staleLines (p : ProofState) : ∀ l ∈ staleLines p, l.Escapeless := by
  cases p with
  | stale _ =>
      simp only [staleLines, Line.Escapeless, List.forall_mem_cons, plain, dimmed]
      exact ⟨⟨by decide, by decide, List.forall_mem_nil _⟩, List.forall_mem_nil _,
        List.forall_mem_nil _⟩
  | missing | current _ => exact List.forall_mem_nil _

variable {r : VerifyReport}

theorem escapeless_proofLines (hs : Text.Escapeless r.step) (hp : Text.Escapeless r.proofPath)
    (ht : ∀ p, r.run.proof = some p → Text.Escapeless p.token) :
    ∀ l ∈ r.proofLines, l.Escapeless := by
  rw [proofLines]
  cases hr : r.run.proof with
  | some p =>
      simp only [Line.Escapeless, List.forall_mem_cons, plain, boldColoured, escapeless_append]
      exact ⟨⟨by decide, ⟨by decide, ht p hr⟩, List.forall_mem_nil _⟩,
        ⟨⟨by decide, hp⟩, List.forall_mem_nil _⟩, List.forall_mem_nil _⟩
  | none =>
      simp only [Line.Escapeless, List.forall_mem_cons, plain, boldColoured, escapeless_append]
      exact ⟨⟨by decide, List.forall_mem_nil _⟩,
        ⟨⟨⟨by decide, hs⟩, by decide⟩, List.forall_mem_nil _⟩, List.forall_mem_nil _⟩

theorem escapeless_lines (h : ∀ s ∈ r.texts, Text.Escapeless s) : ∀ l ∈ r.lines, l.Escapeless := by
  simp only [texts, List.forall_mem_append, List.forall_mem_cons] at h
  obtain ⟨⟨⟨hstep, htitle, hrevision, hpath, -⟩, hchecks⟩, htoken⟩ := h
  simp only [lines, List.forall_mem_append, List.forall_mem_cons]
  refine ⟨⟨⟨⟨⟨?_, List.forall_mem_nil _, List.forall_mem_nil _⟩, escapeless_staleLines _⟩, ?_⟩,
    ⟨List.forall_mem_nil _, ?_, List.forall_mem_nil _⟩⟩, escapeless_proofLines hstep hpath ?_⟩
  · simp only [Line.Escapeless, List.forall_mem_cons, bold, plain, escapeless_append]
    exact ⟨⟨⟨by decide, escapeless_toString _⟩, by decide⟩, by decide, htitle,
      ⟨⟨⟨by decide, hstep⟩, by decide⟩, hrevision⟩, List.forall_mem_nil _⟩
  · rintro l hl
    obtain ⟨c, hc, hl⟩ := List.mem_flatMap.mp hl
    exact escapeless_checkLines (fun s hs => hchecks s (List.mem_flatMap.mpr ⟨c, hc, hs⟩)) l hl
  · simp only [Line.Escapeless, List.forall_mem_singleton, plain, escapeless_append,
      escapeless_toString, and_true]
    decide
  · rintro p hp
    exact htoken _ (List.mem_map.mpr ⟨p, Option.mem_toList.mpr hp, rfl⟩)

end VerifyReport

/-! ### The state of the steps -/

namespace StatusReport

/-- The texts that the report shows. -/
def texts (r : StatusReport) : List String :=
  r.revision :: r.steps.flatMap fun s => [s.title, s.name]

theorem escapeless_statePiece (p : ProofState) :
    Text.Escapeless (StepStatus.statePiece p).text := by
  have h : Text.Escapeless p.label := by
    unfold ProofState.label
    split <;> decide
  unfold StepStatus.statePiece
  cases p <;> exact escapeless_padEnd 8 h

theorem escapeless_line {s : StepStatus} (ht : Text.Escapeless s.title)
    (hn : Text.Escapeless s.name) : s.line.Escapeless := by
  simp only [StepStatus.line, Line.Escapeless, List.forall_mem_cons, plain, escapeless_append]
  exact ⟨⟨⟨by decide, escapeless_padStart 2 (escapeless_toString _)⟩, by decide⟩,
    escapeless_statePiece _, ⟨⟨⟨⟨by decide, ht⟩, by decide⟩, hn⟩, by decide⟩,
    List.forall_mem_nil _⟩

variable {r : StatusReport}

theorem escapeless_nextLine (h : ∀ s ∈ r.steps, Text.Escapeless s.name) :
    ∀ l ∈ r.nextLine, l.Escapeless := by
  rw [nextLine]
  cases hn : r.next? with
  | none => exact List.forall_mem_nil _
  | some name =>
      rw [next?, Option.map_eq_some_iff] at hn
      obtain ⟨s, hs, rfl⟩ := hn
      simp only [Line.Escapeless, List.forall_mem_singleton, plain, escapeless_append]
      exact ⟨by decide, h s (List.mem_of_find?_eq_some hs)⟩

theorem escapeless_lines (h : ∀ s ∈ r.texts, Text.Escapeless s) : ∀ l ∈ r.lines, l.Escapeless := by
  rw [texts, List.forall_mem_cons] at h
  obtain ⟨hrevision, hsteps⟩ := h
  have hstep : ∀ s ∈ r.steps, Text.Escapeless s.title ∧ Text.Escapeless s.name := fun s hs =>
    ⟨hsteps _ (List.mem_flatMap.mpr ⟨s, hs, by simp⟩),
      hsteps _ (List.mem_flatMap.mpr ⟨s, hs, by simp⟩)⟩
  have hstack : Text.Escapeless r.stack.name := by cases r.stack <;> decide
  simp only [lines, List.cons_append, List.forall_mem_append, List.forall_mem_cons]
  refine ⟨?_, List.forall_mem_nil _, ⟨?_, List.forall_mem_nil _, ?_, List.forall_mem_nil _⟩,
    escapeless_nextLine fun s hs => (hstep s hs).2⟩
  · simp only [Line.Escapeless, List.forall_mem_singleton, plain, escapeless_append]
    exact ⟨⟨⟨⟨by decide, hrevision⟩, by decide⟩, hstack⟩, by decide⟩
  · exact List.forall_mem_map.mpr fun s hs => escapeless_line (hstep s hs).1 (hstep s hs).2
  · simp only [Line.Escapeless, List.forall_mem_singleton, plain, escapeless_append]
    exact ⟨⟨⟨escapeless_toString _, by decide⟩, escapeless_toString _⟩, by decide⟩

end StatusReport

/-! ### The plans -/

namespace StepList

/-- The texts of a plan. -/
def planTexts (p : StepPlan) : List String := p.title :: p.name :: p.checks.map (·.description)

/-- The texts that the report shows. -/
def texts (l : StepList) : List String := l.plans.flatMap planTexts

theorem escapeless_checkLine {c : Check} (h : Text.Escapeless c.description) :
    (checkLine c).Escapeless := by
  have hmark : Text.Escapeless (hostedMark c.predicate) := by
    rw [hostedMark]
    split <;> decide
  simp only [checkLine, Line.Escapeless, List.forall_mem_cons, plain, dimmed, escapeless_append]
  exact ⟨⟨⟨⟨by decide, escapeless_toString _⟩, by decide⟩, h⟩, hmark, List.forall_mem_nil _⟩

theorem escapeless_planLines {p : StepPlan} (h : ∀ s ∈ planTexts p, Text.Escapeless s) :
    ∀ l ∈ planLines p, l.Escapeless := by
  simp only [planTexts, List.forall_mem_cons, List.forall_mem_map] at h
  obtain ⟨htitle, hname, hchecks⟩ := h
  rw [planLines]
  refine List.forall_mem_cons.mpr ⟨?_,
    List.forall_mem_map.mpr fun c hc => escapeless_checkLine (hchecks c hc)⟩
  simp only [Line.Escapeless, List.forall_mem_singleton, bold, escapeless_append]
  exact ⟨⟨⟨⟨⟨escapeless_toString _, by decide⟩, htitle⟩, by decide⟩, hname⟩, by decide⟩

theorem escapeless_blocks {ps : List StepPlan} (h : ∀ s ∈ ps.flatMap planTexts, Text.Escapeless s) :
    ∀ l ∈ blocks ps, l.Escapeless := by
  fun_induction blocks ps with
  | case1 => exact List.forall_mem_nil _
  | case2 p => exact escapeless_planLines (by simpa using h)
  | case3 p q ps ih =>
      rw [List.flatMap_cons, List.forall_mem_append] at h
      rw [List.forall_mem_append]
      exact ⟨escapeless_planLines h.1, List.forall_mem_cons.mpr ⟨List.forall_mem_nil _, ih h.2⟩⟩

end StepList

/-! ### A merge -/

namespace MergeReport

/-- The texts that the report shows. -/
def texts (r : MergeReport) : List String := [r.branch]

theorem escapeless_lines {r : MergeReport} (h : ∀ s ∈ r.texts, Text.Escapeless s) :
    ∀ l ∈ r.lines, l.Escapeless := by
  rw [texts, List.forall_mem_singleton] at h
  rw [lines, List.forall_mem_append]
  constructor
  · rw [relaxedLine]
    split
    · split
      · simp only [Line.Escapeless, List.forall_mem_singleton, plain, escapeless_append]
        exact ⟨⟨⟨⟨by decide, h⟩, by decide⟩, escapeless_toString _⟩, by decide⟩
      · exact List.forall_mem_nil _
    · exact List.forall_mem_nil _
  · simp only [Line.Escapeless, List.forall_mem_cons, plain, boldColoured, escapeless_append]
    exact ⟨⟨by decide, ⟨by decide, escapeless_toString _⟩, List.forall_mem_nil _⟩,
      List.forall_mem_nil _⟩

end MergeReport

/-! ### Every report -/

namespace Layout

/-- Colours do not show in what a report says.  Where no text of it has an escape character, the
report in colours is, without its style sequences, the report without colours. -/
theorem unstyle_render :
    (∀ r : VerifyReport, (∀ s ∈ r.texts, Escapeless s) →
      unstyle (r.render (.lines true)) = r.render (.lines false)) ∧
    (∀ r : StatusReport, (∀ s ∈ r.texts, Escapeless s) →
      unstyle (r.render (.lines true)) = r.render (.lines false)) ∧
    (∀ l : StepList, (∀ s ∈ l.texts, Escapeless s) →
      unstyle (l.render (.lines true)) = l.render (.lines false)) ∧
    ∀ r : MergeReport, (∀ s ∈ r.texts, Escapeless s) →
      unstyle (r.render (.lines true)) = r.render (.lines false) :=
  ⟨fun _ h => Line.unstyled_showAll (VerifyReport.escapeless_lines h),
    fun _ h => Line.unstyled_showAll (StatusReport.escapeless_lines h),
    fun _ h => Line.unstyled_showAll (StepList.escapeless_blocks h),
    fun _ h => Line.unstyled_showAll (MergeReport.escapeless_lines h)⟩

/-- A run with an outcome of each kind, after a stale proof. -/
def mixedRun : VerifyReport where
  step := "ci"
  title := "CI"
  number := 2
  revision := "c0"
  proofPath := "p/verify-ci.proof"
  run :=
    { result := ⟨"ci", 1, 1, 1, [⟨⟨1, "Present", .fileExists "f"⟩, .pass⟩,
        ⟨⟨2, "", .prChecksGreen⟩, .fail "[31m is no sequence"⟩,
        ⟨⟨3, "Green", .ciGreen none⟩, .pending ""⟩]⟩
      proof := none
      previous := .stale "c1" }

/-- A merge without relaxed approvals. -/
def plainMerge : MergeReport := ⟨7, "main", some 1, false⟩

theorem unstyle_render_mixed :
    (∀ s ∈ mixedRun.texts, Escapeless s) ∧
      unstyle (mixedRun.render (.lines true)) = mixedRun.render (.lines false) ∧
      plainMerge.render (.lines true) = "\x1B[1;32mMerged\x1B[0m pull request #7\n" ∧
      unstyle (plainMerge.render (.lines true)) = "Merged pull request #7\n" := by
  have hrun : ∀ s ∈ mixedRun.texts, Escapeless s := by decide
  have hmerge : ∀ s ∈ plainMerge.texts, Escapeless s := by decide
  have hplain : plainMerge.render (.lines false) = "Merged pull request #7\n" := by decide
  obtain ⟨hverify, -, -, hm⟩ := unstyle_render
  exact ⟨hrun, hverify mixedRun hrun, by decide, (hm plainMerge hmerge).trans hplain⟩

end Layout

end Readiness

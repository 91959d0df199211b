import Readiness.Proofs.Text.Shown
import Readiness.Report.Verify

/-!
# Report — what a report says about a proof

A report on a run shows whether the step is verified: for machines by the proof or its absence, for
people by a line.  Both stand at the end of what is printed.

* `VerifyReport.child?_proof_ne_null`, `VerifyReport.verifiedLine_mem_lines`: where the document and
  the lines show a proof.
* `VerifyReport.verifiedEnd`, `VerifyReport.unverifiedEnd`: how the printed text ends.
* `VerifyReport.append_unverifiedEnd_ne`: no text ends both ways.
* `VerifyReport.render_end`: it ends the one way where there is a proof, and the other where not.
-/

namespace Readiness

/-! ### The last members of a table -/

namespace Json

theorem prettyMembers_append (level : Nat) (ms ms' : List (String × Document)) :
    prettyMembers level (ms ++ ms') = prettyMembers level ms ++ prettyMembers level ms' := by
  induction ms with
  | nil => rw [List.nil_append, prettyMembers, String.empty_append]
  | cons m ms ih =>
      obtain ⟨k, v⟩ := m
      rw [List.cons_append, prettyMembers, prettyMembers, ih, ← String.append_assoc]

/-- A table is written with its last members at the end. -/
theorem exists_pretty (m : String × Document) (ms ms' : List (String × Document)) :
    ∃ front, pretty (.table (m :: (ms ++ ms'))) = front ++ prettyMembers 1 ms' ++ "\n\x7d" := by
  have hn : newline 0 = "\n" := by decide
  obtain ⟨k, v⟩ := m
  refine ⟨"\x7b" ++ newline 1 ++ quote k ++ ": " ++ prettyAt 1 v ++ prettyMembers 1 ms, ?_⟩
  rw [pretty, prettyAt, prettyMembers_append, hn]
  simp only [Nat.zero_add, String.append_assoc]
  rfl

end Json

namespace VerifyReport

open Text

variable {r : VerifyReport} {path step : String} {p : ProofToken} {l : Layout}

/-! ### The document and the lines -/

theorem child?_proof (r : VerifyReport) : r.toDocument.child? "proof" =
    some (match r.run.proof with
      | some p => p.toDocument
      | none => .null) := rfl

/-- In a report for machines the proof is not null just when there is one. -/
theorem child?_proof_ne_null (r : VerifyReport) :
    r.toDocument.child? "proof" ≠ some .null ↔ r.run.proof.isSome = true := by
  rw [child?_proof]
  cases r.run.proof with
  | none => simp
  | some p => simp [ProofToken.toDocument]

/-- The line that says that a step is verified. -/
def verifiedLine (token : String) : Line :=
  [boldColoured .green "VERIFIED", plain (" " ++ token)]

theorem verifiedLine_not_mem_checkLines (token : String) (c : CheckOutcome) :
    verifiedLine token ∉ checkLines c := by
  rw [checkLines]
  cases c.outcome.reason? <;> simp [verifiedLine, boldColoured, plain]

theorem verifiedLine_not_mem_staleLines (token : String) (p : ProofState) :
    verifiedLine token ∉ staleLines p := by
  cases p <;> simp [staleLines, verifiedLine, boldColoured, plain]

/-- A report for people says that the step is verified just when there is a proof. -/
theorem verifiedLine_mem_lines (r : VerifyReport) :
    (∃ token, verifiedLine token ∈ r.lines) ↔ r.run.proof.isSome = true := by
  have hc : ∀ token, verifiedLine token ∉ r.run.result.results.flatMap checkLines := by
    intro token h
    obtain ⟨c, -, hc⟩ := List.mem_flatMap.mp h
    exact verifiedLine_not_mem_checkLines token c hc
  have hl : ∀ token, verifiedLine token ∈ r.lines ↔ verifiedLine token ∈ r.proofLines := by
    intro token
    simp only [lines, List.mem_append, hc token, verifiedLine_not_mem_staleLines, or_false]
    simp [verifiedLine]
  simp only [hl, proofLines]
  cases r.run.proof with
  | none => simp [verifiedLine, boldColoured]
  | some p => exact ⟨fun _ => rfl, fun _ => ⟨p.token, by simp [verifiedLine]⟩⟩

/-! ### The end of the printed text -/

/-- The end of a report for machines, given the text of the proof. -/
def proofMembers (path proof : String) : String :=
  ",\n  \"proof\": " ++ proof ++ ",\n  \"proof_path\": " ++ Json.quote path ++ "\n\x7d\n"

/-- How the text that is printed for a verified step ends. -/
def verifiedEnd (path : String) (p : ProofToken) : Layout → String
  | .json => proofMembers path (Json.prettyAt 1 p.toDocument)
  | .lines colours =>
    "\n" ++ inBold colours .green "VERIFIED" ++ " " ++ p.token ++ "\nProof written to " ++ path ++
      "\n"

/-- How it ends for a step that is not verified. -/
def unverifiedEnd (path step : String) : Layout → String
  | .json => proofMembers path "null"
  | .lines colours =>
    "\n" ++ inBold colours .red "NOT VERIFIED: no proof written" ++
      "\nFix the failing checks and run `shipcheck verify " ++ step ++ "` again.\n"

theorem prettyMembers_proof (d : Document) (path : String) :
    Json.prettyMembers 1 [("proof", d), ("proof_path", .text path)] ++ "\n\x7d" ++ "\n" =
      proofMembers path (Json.prettyAt 1 d) := by
  have hp : "," ++ Json.newline 1 ++ Json.quote "proof" ++ ": " = ",\n  \"proof\": " := by decide
  have hpath : "," ++ Json.newline 1 ++ Json.quote "proof_path" ++ ": " =
    ",\n  \"proof_path\": " := by decide
  have hend : "\n\x7d\n" = "\n\x7d" ++ "\n" := by decide
  rw [Json.prettyMembers, Json.prettyMembers, Json.prettyMembers, hp, hpath, Json.prettyAt,
    proofMembers, hend, String.append_empty]
  simp only [String.append_assoc]

/-- A report for machines ends in the proof and its path. -/
theorem exists_pretty_toDocument (r : VerifyReport) : ∃ front, Json.pretty r.toDocument ++ "\n" =
    front ++ proofMembers r.proofPath (Json.prettyAt 1 (match r.run.proof with
      | some p => p.toDocument
      | none => .null)) := by
  obtain ⟨front, hf⟩ := Json.exists_pretty ("step", .text r.step)
    [("title", .text r.title), ("number", .integer r.number), ("revision", .text r.revision),
      ("previous_proof", .text r.run.previous.label), ("passed", .integer r.run.result.passed),
      ("failed", .integer r.run.result.failed), ("pending", .integer r.run.result.pending),
      ("total", .integer r.run.result.total),
      ("results", .list (r.run.result.results.map CheckOutcome.toDocument))]
    [("proof", match r.run.proof with
        | some p => p.toDocument
        | none => .null), ("proof_path", .text r.proofPath)]
  refine ⟨front, ?_⟩
  rw [← prettyMembers_proof, ← String.append_assoc, ← String.append_assoc, ← hf]
  rfl

/-- A report for people ends in the lines about the proof. -/
theorem exists_showAll_lines (r : VerifyReport) (colours : Bool) : ∃ front,
    Line.showAll colours r.lines = front ++ "\n" ++ Line.showAll colours r.proofLines := by
  obtain ⟨before, hne, hl⟩ : ∃ before, before ≠ [] ∧ r.lines = before ++ r.proofLines :=
    ⟨_, by simp, rfl⟩
  obtain ⟨front, hf⟩ := Line.exists_showAll hne colours
  exact ⟨front, by rw [hl, Line.showAll_append, hf]⟩

theorem render_verified (h : r.run.proof = some p) (l : Layout) :
    ∃ front, r.render l = front ++ verifiedEnd r.proofPath p l := by
  cases l with
  | json =>
      obtain ⟨front, hf⟩ := r.exists_pretty_toDocument
      rw [h] at hf
      exact ⟨front, hf⟩
  | lines colours =>
      obtain ⟨front, hf⟩ := r.exists_showAll_lines colours
      have he : Text.Escapeless "VERIFIED" := by decide
      have hl : "\nProof written to " = "\n" ++ "Proof written to " := by decide
      refine ⟨front, hf.trans ?_⟩
      rw [proofLines, h, verifiedEnd, hl]
      simp only [Line.showAll_cons, Line.showAll_nil, Line.text_plain_cons,
        Line.text_boldColoured_cons _ he, Line.text_nil, String.append_empty, String.append_assoc]

theorem render_unverified (h : r.run.proof = none) (l : Layout) :
    ∃ front, r.render l = front ++ unverifiedEnd r.proofPath r.step l := by
  cases l with
  | json =>
      obtain ⟨front, hf⟩ := r.exists_pretty_toDocument
      rw [h] at hf
      exact ⟨front, hf⟩
  | lines colours =>
      obtain ⟨front, hf⟩ := r.exists_showAll_lines colours
      have he : Text.Escapeless "NOT VERIFIED: no proof written" := by decide
      have hl : "\nFix the failing checks and run `shipcheck verify " =
        "\n" ++ "Fix the failing checks and run `shipcheck verify " := by decide
      have ha : "` again.\n" = "` again." ++ "\n" := by decide
      refine ⟨front, hf.trans ?_⟩
      rw [proofLines, h, unverifiedEnd, hl, ha]
      simp only [Line.showAll_cons, Line.showAll_nil, Line.text_plain_cons,
        Line.text_boldColoured_cons _ he, Line.text_nil, String.append_empty, String.append_assoc]

/-- No text ends both ways, if the path does not end in a full stop. -/
theorem append_unverifiedEnd_ne (h : path.toList.getLast? ≠ some '.') (a b : String) :
    a ++ unverifiedEnd path step l ≠ b ++ verifiedEnd path p l := by
  intro he
  rw [← String.toList_inj] at he
  cases l with
  | json =>
      -- before the same path stands `null` or a table
      have hnull : "null".toList.getLast? = some 'l' := by decide
      have hproof : (Json.prettyAt 1 p.toDocument).toList.getLast? = some '\x7d' := by
        rw [ProofToken.toDocument, Json.prettyAt, String.toList_append, List.getLast?_append]
        rfl
      simp only [unverifiedEnd, verifiedEnd, proofMembers, String.toList_append,
        ← List.append_assoc, List.append_cancel_right_eq] at he
      have hlast := congrArg List.getLast? he
      simp only [List.getLast?_append, hnull, hproof, Option.some_or] at hlast
      exact absurd hlast (by decide)
  | lines colours =>
      -- before the line break stands a full stop or the path
      have ha : "` again.\n".toList = "` again.".toList ++ "\n".toList := by decide
      have hstop : "` again.".toList.getLast? = some '.' := by decide
      have hblank : "\nProof written to ".toList.getLast? = some ' ' := by decide
      simp only [unverifiedEnd, verifiedEnd, String.toList_append, ha, ← List.append_assoc,
        List.append_cancel_right_eq] at he
      have hlast := congrArg List.getLast? he
      simp only [List.getLast?_append, hstop, hblank, Option.some_or] at hlast
      cases hp : path.toList.getLast? with
      | none => rw [hp] at hlast; exact absurd hlast (by decide)
      | some c => rw [hp] at hlast; exact h (hp.trans hlast.symm)

/-- The printed text ends in the proof, or says that there is none and does not end in one. -/
theorem render_end (h : r.proofPath.toList.getLast? ≠ some '.') (l : Layout) :
    (∃ p front, r.run.proof = some p ∧ r.render l = front ++ verifiedEnd r.proofPath p l) ∨
      r.run.proof = none ∧ (∃ front, r.render l = front ++ unverifiedEnd r.proofPath r.step l) ∧
        ∀ front p, r.render l ≠ front ++ verifiedEnd r.proofPath p l := by
  cases hp : r.run.proof with
  | some p =>
      obtain ⟨front, hf⟩ := render_verified hp l
      exact .inl ⟨p, front, rfl, hf⟩
  | none =>
      obtain ⟨front, hf⟩ := render_unverified hp l
      exact .inr ⟨rfl, ⟨front, hf⟩, fun front' p he =>
        append_unverifiedEnd_ne h front front' (hf.symm.trans he)⟩

end VerifyReport

end Readiness

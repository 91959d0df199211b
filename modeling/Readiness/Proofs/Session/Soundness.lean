import Mathlib.Data.List.Forall2
import Readiness.Proofs.Session.Basic

/-!
# Session — a proof has its reasons

* `chain_of_stored`: behind a proof stand verifications of the step and of all its prerequisites, in
  this order and all at the proof's commit.
-/

namespace Readiness.Session

variable {σ : Type} {w : Workspace} {start t : FileTree} {ms : List (Moment σ)}

/-- In every state of a session that begins without proofs, a proof of a step has behind it one
verification of each step of the chain that leads to it, the prerequisite's before the dependent's.
All of them ran at the commit of the proof, and every check of theirs was answered with a pass. -/
theorem chain_of_stored (hv : w.rulebook.validate = .ok ())
    (hs : Session w w.proofs.Spares start ms t)
    (hn : ∀ a, start.get? (w.proofs.place a) = none) {step : String} {p : ProofToken}
    (hp : w.proofs.Stored t step p) :
    ∃ chain runs, w.rulebook.Chain step chain ∧ runs.Sublist ms ∧
      List.Forall₂ (fun a (m : Moment σ) => m.Passes w a p.commit) chain runs := by
  -- for every step at once: a verification needs the proof of its prerequisite
  induction hs generalizing step p with
  | start => exact absurd hp (ProofStore.not_stored_of_none (hn step))
  | edit _ he ih => exact ih ((ProofStore.Stored.congr (he step)).mp hp)
  | @act ms t a _ ih =>
      rcases Act.stored_after hv a hp with hp | hm
      · obtain ⟨chain, runs, hc, hr, hf⟩ := ih hp
        exact ⟨chain, runs, hc, hr.trans (List.sublist_append_left _ _), hf⟩
      · cases hq : w.rulebook.prerequisite? step with
        | none =>
            exact ⟨[step], [⟨t, a⟩], .first hq, List.sublist_append_right _ _,
              .cons hm .nil⟩
        | some q =>
            have hm' := hm
            obtain ⟨o, -, ⟨r, hr, hrc⟩, hpass⟩ := hm'
            obtain ⟨p', hp', hc'⟩ :=
              Workspace.stored_prerequisite (w := w.during o) hv hpass hr hq
            obtain ⟨chain, runs, hc, hsub, hf⟩ := ih hp'
            rw [hc', hrc] at hf
            exact ⟨chain ++ [step], runs ++ [⟨t, a⟩], .next hq hc,
              hsub.append (List.Sublist.refl _), List.rel_append hf (.cons hm .nil)⟩

/-- A verification in which every check passed leaves a proof. -/
theorem stored_of_allPassed (hv : w.rulebook.validate = .ok ()) {o : Occasion σ} {step : String}
    {plan : StepPlan} {run : StepRun} (h : (o.verify w step t).1 = .ok (plan, run))
    (ha : run.result.allPassed = true) :
    ∃ p, w.proofs.Stored ((Act.verify o step).after w t) step p := by
  obtain ⟨hp, -, -, hall, ⟨-, r, p, -, -, -, hread, -⟩ | ⟨hn, -⟩⟩ :=
    Workspace.verify_settled (w := w.during o) hv (Prod.ext h rfl)
  · have hname := Rulebook.isName_of_mem hv (Rulebook.mem_of_plan_ok hp)
    exact ⟨p, ((ProofStore.read_eq_some hname).mp hread).2⟩
  · exact absurd (hall.mp ha) hn

theorem Small.passed_b : (match (Small.occasion.verify Small.workspace "b" Small.between).1 with
    | .ok (_, run) => run.result.allPassed
    | .error _ => false) = true := by decide +kernel

/-- In the small workspace the second step gets a proof. -/
theorem Small.stored_b : ∃ p, Small.workspace.proofs.Stored Small.done "b" p := by
  have hr := Small.passed_b
  generalize hx : (Small.occasion.verify Small.workspace "b" Small.between).1 = x at hr
  cases x with
  | error e => cases hr
  | ok x => exact stored_of_allPassed Small.validate_rulebook hx hr

/-- Its proof has two verifications behind it. -/
theorem chain_of_stored_small : ∃ (p : ProofToken) (chain : List String)
    (runs : List (Moment Unit)), Small.workspace.rulebook.Chain "b" chain ∧
      runs.Sublist Small.moments ∧
      List.Forall₂ (fun a m => m.Passes Small.workspace a p.commit) chain runs := by
  obtain ⟨p, hp⟩ := Small.stored_b
  exact ⟨p, chain_of_stored Small.validate_rulebook (Small.session _) Small.start_none hp⟩

end Readiness.Session

import Mathlib.Data.List.Basic
import Readiness.Proofs.Proof.Contents
import Readiness.Proofs.Workspace.Evaluation
import Readiness.Proofs.Workspace.Status

/-!
# Workspace — the contents of proof files

What stands in a proof file does not end a command, as long as it is text.

* `extends_evaluation`: the checks of a step add nothing to the files.
* `checkEach_of_legible`: the proofs of all steps can be looked at, if all are legible.
* `verify_of_legible`: a verification that gets past the tests is completed, or its checks all
  passed and there was no writing the proof.
* `answered_of_legible`: the two, along with what every look at a proof comes to.
* `Small.garbled`: bytes that are no text end both commands.
-/

namespace Readiness

open FileTree (Extends)

variable {σ : Type}

/-- A check adds nothing to the files. -/
theorem Probe.extends_evaluate (p : Probe σ) (q : Predicate) (s : Scene (Memory σ)) :
    Extends (p.evaluate q s).2.files s.files := by
  cases q with
  | proofExists step =>
      rw [(p.evaluate_gate step s).2, p.files_gate]
      exact p.store.extends_check step p.revision s.files
  | _ => exact .refl s.files

theorem Chain.extends_evaluateEach {τ : Type} {plan : StepPlan} {evaluate : Evaluator τ}
    (h : ∀ q s, Extends (evaluate q s).2.files s.files) (failed : Bool) (cs : List Check)
    (s : Scene τ) : Extends (evaluateEach plan evaluate failed cs s).2.files s.files := by
  induction cs generalizing failed s with
  | nil => exact .refl s.files
  | cons c cs ih =>
      rw [evaluateEach]
      split
      · exact ih failed s
      · exact (ih _ _).trans (h c.predicate s)

namespace Workspace

variable {w : Workspace} {vcs : Vcs} {host : Host σ} {step : String} {stamp : Stamp}
  {s : Scene σ} {plan : StepPlan} {r : Revision} {inner : σ}

theorem extends_evaluation (t : FileTree) :
    Extends (w.evaluation vcs host r plan inner t).2.files t :=
  Chain.extends_evaluateEach (w.probe vcs host r).extends_evaluate false plan.checks _

-- what the parts of a run come to is said by lemmas
attribute [local irreducible] evaluation Chain.settle ProofStore.check

/-- Taking away what is stale leaves the rest legible. -/
theorem checkEach_of_legible {store : ProofStore} {steps : List String} {t : FileTree}
    (h : ∀ a ∈ steps, store.Legible t a) (r : Revision) :
    ∃ states, (checkEach store r steps t).1 = .ok states := by
  induction steps generalizing t with
  | nil => exact ⟨[], rfl⟩
  | cons a steps ih =>
      obtain ⟨state, t', hc, hx⟩ := ProofStore.check_of_legible (h a List.mem_cons_self) r
      obtain ⟨states, hs⟩ := ih fun b hb => (h b (List.mem_cons_of_mem a hb)).mono hx
      rw [checkEach_cons, hc]
      dsimp only
      rw [hs]
      exact ⟨_, rfl⟩

/-- A verification stops at its own proof only where that cannot be written.  Whatever stands in
the place of another step's proof, it does not stop there. -/
theorem verify_of_legible (h : w.Proceeds vcs host step s.inner plan r inner)
    (hl : w.proofs.Legible s.files step) :
    (∃ run, (w.verify vcs host step stamp s).1 = .ok (plan, run)) ∨
      (∃ i, (w.verify vcs host step stamp s).1 = .error (.io i)) ∧
        ∀ o ∈ (w.evaluation vcs host r plan inner (w.proofs.check step r s.files).2).1,
          o.outcome.isPass = true := by
  obtain ⟨previous, t₁, hc, hx⟩ := ProofStore.check_of_legible hl r
  rw [hc]
  by_cases hp : ∀ o ∈ (w.evaluation vcs host r plan inner t₁).1, o.outcome.isPass = true
  · cases hs : Chain.settle w.proofs step
        (.ofOutcomes step (w.evaluation vcs host r plan inner t₁).1) r stamp
        (w.evaluation vcs host r plan inner t₁).2.files with
    | mk answer t₃ =>
        rw [verify_of_check h hc hs]
        cases answer with
        | ok proof => exact .inl ⟨_, rfl⟩
        | error e =>
            obtain ⟨i, rfl⟩ := Chain.settle_error (length_evaluation h.checks t₁) hs
            exact .inr ⟨⟨i, rfl⟩, hp⟩
  · -- what the gate deletes on the way leaves the step's own place legible
    obtain ⟨b, t₃, hr⟩ := ProofStore.remove_of_legible ((hl.mono hx).mono (extends_evaluation t₁))
    rw [verify_flunked h hc hp hr]
    exact .inl ⟨_, rfl⟩

/-- Every look at a proof comes to what the contents of its file make it; and where these are text,
no contents keep the proofs from being shown or a step from being verified. -/
theorem answered_of_legible (w : Workspace) (vcs : Vcs) (host : Host σ) (step : String)
    (stamp : Stamp) (s : Scene σ) :
    (∀ r, w.proofs.Judged step r s.files (w.proofs.check step r s.files).1
      (w.proofs.check step r s.files).2) ∧
    (∀ r, vcs.head = .ok r → (∀ a ∈ w.rulebook.names, w.proofs.Legible s.files a) →
      ∃ states, (w.proofStates vcs s.files).1 = .ok states) ∧
    ∀ plan r inner, w.Proceeds vcs host step s.inner plan r inner →
      w.proofs.Legible s.files step →
        (∃ run, (w.verify vcs host step stamp s).1 = .ok (plan, run)) ∨
          (∃ i, (w.verify vcs host step stamp s).1 = .error (.io i)) ∧
            ∀ o ∈ (w.evaluation vcs host r plan inner (w.proofs.check step r s.files).2).1,
              o.outcome.isPass = true := by
  refine ⟨fun r => w.proofs.judged step r s.files, fun r hh hl => ?_,
    fun plan r inner hp hl => verify_of_legible hp hl⟩
  unfold proofStates
  rw [hh]
  exact checkEach_of_legible hl r

/-- The proof file of the first step holds a text that is no token. -/
def Small.scrawled : FileTree :=
  Small.start.put ["p", "verify-a.proof"] (.file "no token".toUTF8)

theorem Small.legible_scrawled : ∀ a ∈ workspace.rulebook.names,
    workspace.proofs.Legible scrawled a := by
  rw [show workspace.rulebook.names = ["a", "b"] from rfl, List.forall_mem_cons,
    List.forall_mem_singleton]
  refine ⟨.inr ⟨["p", "verify-a.proof"], "no token", "no token".toUTF8, ?_, ?_⟩, .inl ?_⟩
  · decide +kernel
  · exact Text.Utf8.fromUTF8?_toUTF8 _
  · decide +kernel

theorem answered_of_legible_small :
    (∃ states, (Small.workspace.proofStates Small.vcs Small.scrawled).1 = .ok states) ∧
      ((∃ run, (Small.workspace.verify Small.vcs Small.host "a" Small.stamp
          ⟨(), Small.scrawled⟩).1 = .ok run) ∨
        ∃ i, (Small.workspace.verify Small.vcs Small.host "a" Small.stamp
          ⟨(), Small.scrawled⟩).1 = .error (.io i)) := by
  obtain ⟨-, hstatus, hverify⟩ := answered_of_legible Small.workspace Small.vcs Small.host "a"
    Small.stamp ⟨(), Small.scrawled⟩
  refine ⟨hstatus Small.revision rfl Small.legible_scrawled, ?_⟩
  obtain ⟨run, h⟩ | ⟨h, -⟩ := hverify _ _ () ⟨rfl, rfl, rfl, rfl⟩
    (Small.legible_scrawled "a" (by decide))
  · exact .inl ⟨_, h⟩
  · exact .inr h

/-- The proof file of the first step holds a byte that no text has. -/
def Small.garbled : FileTree := Small.start.put ["p", "verify-a.proof"] (.file ⟨#[0xFF]⟩)

/-- Such a file is not taken for a stale proof: looking at it fails, it stays, and neither the
proofs are shown nor the step verified. -/
theorem not_answered_garbled :
    let seen := Small.workspace.proofs.check "a" Small.revision Small.garbled
    seen.1 = .error (.io .invalidText) ∧
      seen.2.get? ["p", "verify-a.proof"] = some (.file ⟨#[0xFF]⟩) ∧
      (Small.workspace.proofStates Small.vcs Small.garbled).1 = .error (.io .invalidText) ∧
      (Small.workspace.verify Small.vcs Small.host "a" Small.stamp ⟨(), Small.garbled⟩).1 =
        .error (.io .invalidText) :=
  ⟨by decide +kernel, by decide +kernel, by decide +kernel, by decide +kernel⟩

end Workspace

end Readiness

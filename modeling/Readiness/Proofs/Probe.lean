import Readiness.Probe.Evaluate
import Readiness.Proofs.Chain

/-!
# Probe — what an evaluation does to the files

* `Probe.files_evaluate`: only a gate touches the files.
* `Probe.isPass_gate`: a gate passes just where the proof is current.
* `Probe.gate_eq`: a gate says what a look at the proof comes to, and leaves what that leaves.
-/

namespace Readiness.Probe

variable {σ : Type}

-- a check of a proof is not looked into here
attribute [local irreducible] ProofStore.check

/-- Only a gate touches the files. -/
theorem files_evaluate (p : Probe σ) {q : Predicate} (hq : q.isGate = false)
    (s : Scene (Memory σ)) : (p.evaluate q s).2.files = s.files := by
  cases q with
  | proofExists step => cases hq
  | _ => rfl

theorem files_gate (p : Probe σ) (step : String) (t : FileTree) :
    (p.gate step t).2 = (p.store.check step p.revision t).2 := by
  unfold gate
  split <;> rename_i h <;> rw [h]

/-- A gate passes just where the proof is current. -/
theorem isPass_gate (p : Probe σ) (step : String) (t : FileTree) :
    (p.gate step t).1.isPass = true ↔
      ∃ proof t', p.store.check step p.revision t = (.ok (.current proof), t') := by
  unfold gate
  split
  · rename_i proof t' h
    exact ⟨fun _ => ⟨proof, t', h⟩, fun _ => rfl⟩
  all_goals
    rename_i h
    constructor
    · intro hp; cases hp
    · rintro ⟨proof, t', h'⟩
      rw [h] at h'; cases h'

/-- The reason of a gate whose proof is from elsewhere. -/
def elsewhere (step stored : String) (r : Revision) : String :=
  "proof for '" ++ step ++ "' was issued at " ++ stored ++ " but HEAD is " ++ r.short ++
    "; re-run `shipcheck verify " ++ step ++ "`"

/-- The reason of a gate without a proof. -/
def unverified (step : String) : String :=
  "step '" ++ step ++ "' has not been verified; run `shipcheck verify " ++ step ++ "`"

/-- What a gate says of what a look at the proof came to. -/
def gateOutcome (step : String) (r : Revision) : Except Failure ProofState → Outcome
  | .ok (.current _) => .pass
  | .ok (.stale stored) => .fail (elsewhere step stored r)
  | .ok .missing => .fail (unverified step)
  | .error e => .fail ("cannot read proof for '" ++ step ++ "': " ++ e.message)

theorem gate_eq (p : Probe σ) (step : String) (t : FileTree) :
    p.gate step t = (gateOutcome step p.revision (p.store.check step p.revision t).1,
      (p.store.check step p.revision t).2) := by
  unfold gate
  split <;> rename_i h <;> rw [h] <;> rfl

theorem evaluate_gate (p : Probe σ) (step : String) (s : Scene (Memory σ)) :
    (p.evaluate (.proofExists step) s).1 = (p.gate step s.files).1 ∧
      (p.evaluate (.proofExists step) s).2.files = (p.gate step s.files).2 := ⟨rfl, rfl⟩

end Readiness.Probe

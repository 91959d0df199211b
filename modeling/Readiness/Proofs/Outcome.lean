import Readiness.Outcome

/-!
# Outcome — verdicts compared

* `Outcome.isPass_iff`, `Outcome.isPass_passIf`: what it is to pass.
* `Verdict.eq_of_iff`, `Verdict.eq_pending_iff`: a verdict is told by when it is a pass and when it
  is a failure.
* `Verdict.severity`: how bad a verdict is; `severity_eq_max` tells the worse of two.
-/

namespace Readiness

namespace Outcome

theorem isPass_iff {o : Outcome} : o.isPass = true ↔ o = .pass := by
  cases o <;> simp [isPass, verdict]

theorem isPass_passIf {ok : Bool} {reason : String} : (passIf ok reason).isPass = ok := by
  cases ok <;> rfl

end Outcome

namespace Verdict

variable {v v' w : Verdict}

theorem eq_of_iff (hp : v = .pass ↔ v' = .pass) (hf : v = .fail ↔ v' = .fail) : v = v' := by
  cases v <;> cases v' <;> simp_all

theorem eq_pending_iff : v = .pending ↔ v ≠ .pass ∧ v ≠ .fail := by
  cases v <;> decide

/-- A pass is best, and a failure is worse than waiting. -/
def severity : Verdict → Nat
  | .pass    => 0
  | .pending => 1
  | .fail    => 2

theorem severity_inj : v.severity = v'.severity ↔ v = v' := by
  cases v <;> cases v' <;> decide

/-- The worse of two verdicts fails where one of them does, and passes where both do. -/
theorem severity_eq_max (hf : w = .fail ↔ v = .fail ∨ v' = .fail)
    (hp : w = .pass ↔ v = .pass ∧ v' = .pass) : w.severity = max v.severity v'.severity := by
  cases v <;> cases v' <;> cases w <;> simp_all [severity]

end Verdict

end Readiness

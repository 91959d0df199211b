import Readiness.Document.Record
import Readiness.FileTree.Access
import Readiness.Trouble

/-!
# Failure

What ends a command before it has an answer.  A check that does not hold is no failure: it is an
outcome of the run.
-/

namespace Readiness

inductive Failure where
  /-- The directory to start from is in no work tree. -/
  | notARepository (start : String)
  /-- HEAD names no commit yet. -/
  | noRevision
  /-- The rulebook has no such step. -/
  | unknownStep (name : String)
  /-- All checks of the step belong to other stacks. -/
  | nothingToVerify (step : String)
  /-- A program the step needs is not installed. -/
  | toolMissing (tool : String)
  | invalidRulebook (path reason : String)
  /-- A proof was asked for a run that did not fully pass. -/
  | incompleteProof (step : String) (passed total : Nat)
  | io (e : IoError)
  /-- A proof file whose text is no token. -/
  | unreadableProof (fault : Fault)
  /-- The repository could not be read. -/
  | repository (reason : String)
deriving DecidableEq, Repr

namespace Failure

def message : Failure → String
  | .notARepository p      => "not inside a git repository: " ++ p
  | .noRevision            => "repository has no commits yet; commit something before verifying"
  | .unknownStep s         => "unknown step '" ++ s ++ "' (run `shipcheck steps` to list steps)"
  | .nothingToVerify s     =>
    "step '" ++ s ++ "' has no checks for the detected stack; nothing to verify"
  | .toolMissing t         => "required tool '" ++ t ++ "' was not found on PATH"
  | .invalidRulebook p r   => "invalid rulebook " ++ p ++ ": " ++ r
  | .incompleteProof s p n =>
    "refusing to write proof for '" ++ s ++ "': only " ++ toString p ++ "/" ++ toString n ++
      " checks passed"
  | .io e                  => "io error: " ++ e.message
  | .unreadableProof f     => "proof encoding error: " ++ f.message
  | .repository r          => "git error: " ++ r

/-- The failure as a chain of causes; some name their cause in their own wording too. -/
def toTrouble (f : Failure) : Trouble :=
  match f with
  | .io e              => ⟨[f.message, e.message]⟩
  | .unreadableProof e => ⟨[f.message, e.message]⟩
  | .repository r      => ⟨[f.message, r]⟩
  | _                  => ⟨[f.message]⟩

end Failure

end Readiness

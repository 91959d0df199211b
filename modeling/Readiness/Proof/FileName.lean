import Readiness.Text.Basic

/-!
# Proof — FileName

The name of a step's proof file, and the step a file name stands for.
-/

namespace Readiness.ProofFile

def start : String := "verify-"

def extension : String := "proof"

/-- The file of a step's proof. -/
def name (step : String) : String := start ++ step ++ "." ++ extension

/-- The step of a proof file; other files have none. -/
def step? (name : String) : Option String := do
  let rest ← Text.stripStart? name start
  let rest ← Text.stripEnd? rest extension
  let step ← Text.stripEnd? rest "."
  if step = "" then none else some step

end Readiness.ProofFile

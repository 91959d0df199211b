import Readiness.Text.Basic

/-!
# Trouble

Why something outside the program could not be asked or did not do what it was told: a chain of
causes.
-/

namespace Readiness

/-- Causes from the outermost to the root. -/
structure Trouble where
  causes : List String
deriving DecidableEq, Repr

namespace Trouble

def ofCause (s : String) : Trouble := ⟨[s]⟩

/-- The trouble under a further outermost cause. -/
def within (t : Trouble) (context : String) : Trouble := ⟨context :: t.causes⟩

/-- The causes on one line. -/
def message (t : Trouble) : String := Text.join ": " t.causes

end Trouble

end Readiness

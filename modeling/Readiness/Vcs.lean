import Readiness.Failure
import Readiness.Proof.Token

/-!
# Vcs

What version control says about the work tree during one command.  Nothing here writes to it.
-/

namespace Readiness

structure Vcs where
  /-- The commit HEAD points at. -/
  head : Except Failure Revision
  /-- The default branch according to the tracking reference. -/
  tracking : Option String
  /-- The messages of the most recent commits reachable from HEAD, newest first. -/
  messages : Nat → Except Trouble (List String)
  /-- A remote with this name is configured. -/
  hasRemote : String → Bool

end Readiness

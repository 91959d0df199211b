import Readiness.Outcome
import Readiness.Vcs

/-!
# Probe — History

Questions that version control answers.
-/

namespace Readiness.Probe

/-- A remote is configured. -/
def gitRemote (vcs : Vcs) (name : String) : Outcome :=
  .passIf (vcs.hasRemote name) ("no git remote named '" ++ name ++ "'")

/-- One of the last `depth` commit messages contains the marker. -/
def handshakeCommit (vcs : Vcs) (marker : String) (depth : Nat) : Outcome :=
  match vcs.messages depth with
  | .ok ms =>
    .passIf (ms.any fun m => Text.contains m marker)
      ("none of the last " ++ toString depth ++ " commits mentions '" ++ marker ++ "'")
  | .error t => .fail ("cannot read commit history: " ++ t.message)

end Readiness.Probe

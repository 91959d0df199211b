import Readiness.Probe.Evaluate
import Readiness.Repository.Discovery
import Readiness.Rulebook.Record
import Readiness.Rulebook.Standard

/-!
# Workspace

A work tree opened for verification: its rulebook, its proofs and its stack, as they were found when
it was opened.

* `Workspace.openAt` finds and reads them;
* `Workspace.verify`, `Workspace.proofStates` and `Workspace.reset` are the commands on proofs.

What version control says is given to each command.
-/

namespace Readiness

/-- The file a rulebook is kept in. -/
def Rulebook.fileName : String := ".shipcheck.toml"

/-- The path of the rulebook of a work tree. -/
def Rulebook.path (root : String) : String := Path.join root Rulebook.fileName

/-- The rulebook of a work tree; one without a file has the standard rulebook. -/
def Rulebook.load (t : FileTree) (root : String) : Except Failure Rulebook :=
  if !t.exists? (Rulebook.path root) then .ok .standard
  else
    match t.readText (Rulebook.path root) with
    | .error e => .error (.invalidRulebook (Rulebook.path root) e.message)
    | .ok text =>
      match Rulebook.parse text with
      | .error f => .error (.invalidRulebook (Rulebook.path root) f.message)
      | .ok r => .ok r

structure Workspace where
  /-- The root of the work tree, an absolute path. -/
  root : String
  rulebook : Rulebook
  proofs : ProofStore
  stack : Stack
deriving DecidableEq, Repr

namespace Workspace

/-! ### Opening -/

/-- The proof directory that a rulebook configures for a work tree. -/
def proofsOf (root : String) (rulebook : Rulebook) : ProofStore :=
  ⟨Path.join root rulebook.settings.proofDir⟩

/-- The stack whose marker stands at the root of a work tree. -/
def stackOf (t : FileTree) (root : String) : Stack :=
  Stack.detect fun name => t.isFile (Path.join root name)

/-- The workspace of a work tree. -/
def load (t : FileTree) (root : String) : Except Failure Workspace :=
  (Rulebook.load t root).map fun r => ⟨root, r, proofsOf root r, stackOf t root⟩

/-- The workspace around `start`, a path seen from `cwd`. -/
def openAt (t : FileTree) (cwd : Location) (start : String) : Except Failure Workspace :=
  match Repository.discover t cwd start with
  | .error e => .error e
  | .ok root => load t root

/-! ### Commands -/

/-- The plan of a step for the detected stack. -/
def plan (w : Workspace) (step : String) : Except Failure StepPlan := w.rulebook.plan step w.stack

/-- The plans of all steps. -/
def plans (w : Workspace) : Except Failure (List StepPlan) := w.rulebook.plans w.stack

/-- The client of the hosting service. -/
def hostTool : String := "gh"

variable {σ : Type}

/-- Whether the host can be asked, which is looked at only when the plan needs it. -/
def hostReady (host : Host σ) (plan : StepPlan) (s : σ) : Bool × σ :=
  if plan.needsHosted then host.isAvailable s else (true, s)

/-- What the checks of one run look at. -/
def probe (w : Workspace) (vcs : Vcs) (host : Host σ) (revision : Revision) : Probe σ where
  root := w.root
  vcs := vcs
  host := host
  store := w.proofs
  settings := w.rulebook.settings
  revision := revision

/-- Runs a plan at a revision. -/
def run (w : Workspace) (vcs : Vcs) (host : Host σ) (plan : StepPlan) (revision : Revision)
    (stamp : Stamp) (s : Scene σ) : Except Failure StepRun × Scene σ :=
  let (answer, s) := Chain.verifyStep plan (w.probe vcs host revision).evaluate w.proofs revision
    stamp ⟨⟨s.inner, none⟩, s.files⟩
  (answer, ⟨s.inner.host, s.files⟩)

/-- Verifies a step.  Nothing is evaluated unless the step is known, HEAD is at a commit and the
host, where the plan needs it, can be asked. -/
def verify (w : Workspace) (vcs : Vcs) (host : Host σ) (step : String) (stamp : Stamp)
    (s : Scene σ) : Except Failure (StepPlan × StepRun) × Scene σ :=
  match w.plan step with
  | .error e => (.error e, s)
  | .ok plan =>
    match vcs.head with
    | .error e => (.error e, s)
    | .ok revision =>
      match hostReady host plan s.inner with
      | (false, inner) => (.error (.toolMissing hostTool), { s with inner })
      | (true, inner) =>
        let (answer, s) := w.run vcs host plan revision stamp { s with inner }
        (answer.map fun run => (plan, run), s)

/-- What the proofs of the given steps are worth at a revision; stale ones are deleted. -/
def checkEach (store : ProofStore) (revision : Revision) :
    List String → FileTree → ProofStore.Result (List (String × ProofState))
  | [], t => (.ok [], t)
  | step :: steps, t =>
    match store.check step revision t with
    | (.error e, t) => (.error e, t)
    | (.ok state, t) =>
      let (rest, t) := checkEach store revision steps t
      (rest.map fun states => (step, state) :: states, t)

/-- What the proof of each step is worth now. -/
def proofStates (w : Workspace) (vcs : Vcs) (t : FileTree) :
    ProofStore.Result (List (String × ProofState)) :=
  match vcs.head with
  | .error e => (.error e, t)
  | .ok revision => checkEach w.proofs revision (w.rulebook.steps.map (·.name)) t

/-- Deletes the proof of one step, or of every step, and counts what is gone. -/
def reset (w : Workspace) (step : Option String) (t : FileTree) : ProofStore.Result Nat :=
  match step with
  | none => w.proofs.clear t
  | some name =>
    if (w.rulebook.step? name).isNone then (.error (.unknownStep name), t)
    else
      match w.proofs.remove name t with
      | (.error e, t) => (.error e, t)
      | (.ok removed, t) => (.ok (if removed then 1 else 0), t)

end Workspace

end Readiness

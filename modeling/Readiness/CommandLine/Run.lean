import Readiness.CommandLine.Arguments
import Readiness.Host.Client
import Readiness.Report.Merge
import Readiness.Report.Notice
import Readiness.Report.Status
import Readiness.Report.StepList
import Readiness.Report.Verify
import Readiness.Workspace

/-!
# CommandLine — Run

The commands: what each one prints, the code it ends with, and the files it leaves.

* `CommandLine.run` carries out an invocation;
* `CommandLine.answer` does so for the words of a command line.

A command that ends in trouble prints it as an error and ends with code 1; only `verify` also ends
with code 1 when it worked, and then because some check did not pass.
-/

namespace Readiness

/-- Where a command line is given. -/
structure Surroundings where
  /-- The current directory. -/
  cwd : Location
  /-- The commits of the repository. -/
  graph : CommitGraph
  /-- The terminal shows colours. -/
  colours : Bool
  /-- The stamp for a proof that is issued now. -/
  stamp : Stamp

/-- What a command leaves for its caller. -/
structure Reply where
  code : Nat
  stdout : String
  stderr : String
deriving DecidableEq, Repr

namespace CommandLine

/-! ### Replies -/

/-- The error line of a command that ended in trouble. -/
def errorText (colours : Bool) (t : Trouble) : String :=
  Text.Line.showAll colours
    [[Text.boldColoured .red "error:", Text.plain (" " ++ t.message)]]

def failed (e : Surroundings) (t : Trouble) : Reply := ⟨1, "", errorText e.colours t⟩

def succeeded (text : String) : Reply := ⟨0, text, ""⟩

/-- How reports are written for an invocation. -/
def layout (e : Surroundings) (json : Bool) : Layout := if json then .json else .lines e.colours

variable {σ : Type}

/-- What a command comes to: the text to print and the code, or trouble. -/
abbrev Result := Except Trouble (String × Nat)

/-- The result of a step of a command that failed. -/
def fault {α : Type} (f : Failure) : Except Trouble α := .error f.toTrouble

/-! ### Commands -/

/-- What stands above the steps in a new rulebook. -/
def rulebookHeader : String :=
  "# shipcheck rulebook\n#\n" ++
    "# Steps run in file order; each step requires a current proof of the previous one.\n" ++
    "# Verify a step with `shipcheck verify <name>`.\n\n"

def alreadyInitialized : Notice :=
  ⟨"Already initialized (" ++ Rulebook.fileName ++ " exists). Use --force to overwrite."⟩

def initialized (r : Rulebook) : Notice :=
  ⟨"Created " ++ Rulebook.fileName ++ " with " ++ toString r.steps.length ++ " steps and " ++
    r.settings.proofDir ++ "/\nNext: shipcheck verify " ++
    (r.steps.head?.map (·.name)).getD "<step>"⟩

/-- Writes the standard rulebook and makes the proof directory.  A rulebook that is there stays,
unless `force` is given. -/
def init (e : Surroundings) (l : Layout) (dir : String) (force : Bool) (t : FileTree) :
    Result × FileTree :=
  match Repository.discover t e.cwd dir with
  | .error f => (fault f, t)
  | .ok root =>
    let path := Rulebook.path root
    if t.exists? path && !force then (.ok (alreadyInitialized.render l, 0), t)
    else
      let rulebook := Rulebook.standard
      match rulebook.write with
      | none => (.error (.ofCause "failed to render default checklist"), t)
      | some body =>
        match t.writeFile path (rulebookHeader ++ body).toUTF8 with
        | .error x => (.error ⟨["failed to write " ++ path, x.message]⟩, t)
        | .ok t =>
          match (Workspace.proofsOf root rulebook).ensureDir t with
          | (.error f, t) => (fault f, t)
          | (.ok (), t) => (.ok ((initialized rulebook).render l, 0), t)

/-- The path of a step's proof as it is shown: from the root of the work tree on, if it is below
it. -/
def shownPath (w : Workspace) (step : String) : String :=
  (Path.below? w.root (w.proofs.pathFor step)).getD (w.proofs.pathFor step)

/-- Verifies a step.  The code is 0 if every check passed. -/
def verify (e : Surroundings) (l : Layout) (dir step : String) (host : Host σ) (s : Scene σ) :
    Result × Scene σ :=
  match Workspace.openAt s.files e.cwd dir with
  | .error f => (fault f, s)
  | .ok w =>
    let vcs := Vcs.ofTree s.files e.graph w.root
    match w.verify vcs host step e.stamp s with
    | (.error f, s) => (fault f, s)
    | (.ok (plan, run), s) =>
      match vcs.head with
      | .error f => (fault f, s)
      | .ok revision =>
        let report := VerifyReport.ofRun plan run revision (shownPath w step)
        (.ok (report.render l, if report.allPassed then 0 else 1), s)

/-- The steps with their proofs, numbered from `n`. -/
def statuses (w : Workspace) : Nat → List (String × ProofState) → List StepStatus
  | _, [] => []
  | n, (name, state) :: rest =>
    ⟨n, name, ((w.rulebook.step? name).bind (·.title)).getD name, state⟩ ::
      statuses w (n + 1) rest

/-- Shows which steps hold a proof. -/
def status (e : Surroundings) (l : Layout) (dir : String) (t : FileTree) : Result × FileTree :=
  match Workspace.openAt t e.cwd dir with
  | .error f => (fault f, t)
  | .ok w =>
    let vcs := Vcs.ofTree t e.graph w.root
    match vcs.head with
    | .error f => (fault f, t)
    | .ok revision =>
      match w.proofStates vcs t with
      | (.error f, t) => (fault f, t)
      | (.ok states, t) =>
        (.ok (StatusReport.render ⟨revision.short, w.stack, statuses w 1 states⟩ l, 0), t)

/-- Shows the steps and their checks. -/
def steps (e : Surroundings) (l : Layout) (dir : String) (t : FileTree) : Result :=
  match Workspace.openAt t e.cwd dir with
  | .error f => fault f
  | .ok w =>
    match w.plans with
    | .error f => fault f
    | .ok plans => .ok (StepList.render ⟨w.stack, plans⟩ l, 0)

/-- What a reset says. -/
def resetNotice (step : Option String) (removed : Nat) : Notice :=
  match step with
  | none => ⟨"Removed " ++ toString removed ++ " proof(s)."⟩
  | some name =>
    if removed = 0 then ⟨"No proof for '" ++ name ++ "'."⟩
    else ⟨"Removed proof for '" ++ name ++ "'."⟩

/-- Deletes the proof of one step, or of every step. -/
def reset (e : Surroundings) (l : Layout) (dir : String) (step : Option String) (t : FileTree) :
    Result × FileTree :=
  match Workspace.openAt t e.cwd dir with
  | .error f => (fault f, t)
  | .ok w =>
    match w.reset step t with
    | (.error f, t) => (fault f, t)
    | (.ok n, t) => (.ok ((resetNotice step n).render l, 0), t)

/-- Merges a pull request into the default branch. -/
def merge (e : Surroundings) (l : Layout) (dir : String) (number : Nat) (method : MergeMethod)
    (host : Host σ) (s : Scene σ) : Result × Scene σ :=
  match Workspace.openAt s.files e.cwd dir with
  | .error f => (fault f, s)
  | .ok w =>
    let vcs := Vcs.ofTree s.files e.graph w.root
    match host.isAvailable s.inner with
    | (false, inner) => (fault (.toolMissing Workspace.hostTool), { s with inner })
    | (true, inner) =>
      let (branch, inner) :=
        Probe.defaultBranch host vcs w.rulebook.settings.fallbackBranch inner
      let (report, inner) := Merge.assisted host branch number method inner
      (report.map fun r => (r.render l, 0), { s with inner })

/-! ### Command lines -/

/-- A command that asks no host. -/
def locally (s : Scene σ) (r : Result × FileTree) : Result × Scene σ :=
  (r.1, { s with files := r.2 })

/-- Carries out an invocation, up to its reply. -/
def carryOut (e : Surroundings) (host : Host σ) (i : Invocation) (s : Scene σ) :
    Result × Scene σ :=
  let l := layout e i.json
  match i.command with
  | .init force => locally s (init e l i.dir force s.files)
  | .verify step => verify e l i.dir step host s
  | .status => locally s (status e l i.dir s.files)
  | .steps => (steps e l i.dir s.files, s)
  | .reset step => locally s (reset e l i.dir step s.files)
  | .merge number method => merge e l i.dir number method host s

/-- Carries out an invocation. -/
def run (e : Surroundings) (host : Host σ) (i : Invocation) (s : Scene σ) : Reply × Scene σ :=
  match carryOut e host i s with
  | (.error t, s) => (failed e t, s)
  | (.ok (text, code), s) => (⟨code, text, ""⟩, s)

def version : String := "0.1.0"

/-- The commands and what they are for. -/
def usageLines : List String :=
  ["Usage: shipcheck [-v] [--json] [-C <dir>] <command>",
   "",
   "Commands:",
   "  init [-f]              write the default checklist to .shipcheck.toml",
   "  verify <step>          verify one step and record a proof if every check passes",
   "  status                 show which steps hold a proof for the current revision",
   "  steps                  list steps and their checks",
   "  reset [<step>]         delete the proof of one step, or of every step",
   "  merge <pr> [-m <how>]  merge a pull request, relaxing required approvals around the merge"]

def usage : String := Text.join "\n" usageLines ++ "\n"

/-- The reply to words that ask for nothing to be done. -/
def haltReply : Halt → Reply
  | .help    => succeeded usage
  | .version => succeeded ("shipcheck " ++ version ++ "\n")
  | .misuse  => ⟨2, "", usage⟩

/-- The reply to a command line. -/
def answer (e : Surroundings) (host : Host σ) (words : List String) (s : Scene σ) :
    Reply × Scene σ :=
  match Arguments.read words with
  | .error h => (haltReply h, s)
  | .ok i => run e host i s

end CommandLine

end Readiness

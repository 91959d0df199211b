import Readiness.Host.Basic
import Readiness.Vcs

/-!
# Probe — Hosted

Questions that the hosting service answers.  A service that cannot be asked gives `pending`: the
condition is undetermined, not known to be false.

* the verdicts `protectionVerdict`, `jobVerdict` and `prChecksVerdict` depend on answers alone;
* the probes ask the service and give the verdict;
* `defaultBranch` resolves the branch they ask about.
-/

namespace Readiness.Probe

/-! ### Verdicts -/

/-- What a check demands of a branch's protection. -/
structure Demands where
  requiredCheck : Option String
  enforceAdmins : Bool
  minApprovals : Option Nat
deriving DecidableEq, Repr

/-- The demand on the status check, when it is not met. -/
def checkProblem (d : Demands) (p : BranchProtection) : Option String :=
  (d.requiredCheck.filter fun c => !p.requiredChecks.contains c).map fun c =>
    "status check '" ++ c ++ "' is not required"

/-- The demand on administrators, when it is not met. -/
def adminProblem (d : Demands) (p : BranchProtection) : Option String :=
  if d.enforceAdmins && !p.enforceAdmins then some "rules are not enforced for administrators"
  else none

/-- The demand on approvals, when it is not met. -/
def approvalProblem (d : Demands) (p : BranchProtection) : Option String :=
  (d.minApprovals.filter fun n => p.requiredApprovals.getD 0 < n).map fun n =>
    toString (p.requiredApprovals.getD 0) ++ " approval(s) required, need at least " ++ toString n

/-- The demands that are not met, in order. -/
def problems (d : Demands) (p : BranchProtection) : List String :=
  (checkProblem d p).toList ++ (adminProblem d p).toList ++ (approvalProblem d p).toList

def protectionVerdict (branch : String) (d : Demands) (p : BranchProtection) : Outcome :=
  .passIf (problems d p).isEmpty ("'" ++ branch ++ "': " ++ Text.join "; " (problems d p))

/-- The job is called `name`, or is one of its matrix. -/
def isJobOf (name : String) (j : Job) : Bool :=
  j.name == name || Text.hasStart j.name (name ++ " (")

/-- The first failure, else the first pending outcome, else a pass. -/
def worst (os : List Outcome) : Outcome :=
  match os.find? fun o => o.verdict == .fail with
  | some o => o
  | none => (os.find? fun o => o.verdict == .pending).getD .pass

/-- The verdict on a run's job.  A run that is not completed may still start it. -/
def jobVerdict (run : WorkflowRun) (jobs : List Job) (name : String) : Outcome :=
  let own := jobs.filter (isJobOf name)
  if own.isEmpty then
    if run.status = "completed" then
      .fail ("run " ++ toString run.id ++ " has no job '" ++ name ++ "'")
    else .pending ("run " ++ toString run.id ++ " has not started job '" ++ name ++ "' yet")
  else worst (own.map Job.outcome)

def isFailing (c : PrCheck) : Bool := c.bucket == "fail" || c.bucket == "cancel"

/-- The check is neither failing nor done; a bucket with an unknown name waits. -/
def isUnsettled (c : PrCheck) : Bool := c.bucket != "pass" && c.bucket != "skipping"

def checkNames (cs : List PrCheck) : String := Text.join ", " (cs.map (·.name))

def prChecksVerdict (cs : List PrCheck) : Outcome :=
  if cs.isEmpty then .pending "pull request has no checks reported yet"
  else if cs.any isFailing then
    .fail ("failing checks: " ++ checkNames (cs.filter isFailing))
  else if cs.any isUnsettled then
    .pending ("checks still running: " ++ checkNames (cs.filter isUnsettled))
  else .pass

/-! ### Probes -/

variable {σ : Type}

/-- The default branch: the host's if it names one, else the tracked one, else the fallback. -/
def defaultBranch (h : Host σ) (vcs : Vcs) (fallback : String) (s : σ) : String × σ :=
  match h.ask .defaultBranch s with
  | (.ok (some b), s) => (if b = "" then vcs.tracking.getD fallback else b, s)
  | (_, s) => (vcs.tracking.getD fallback, s)

def handshakeIssue (h : Host σ) (marker : String) (s : σ) : Outcome × σ :=
  match h.ask (.findIssue marker) s with
  | (.ok (some _), s) => (.pass, s)
  | (.ok none, s) => (.fail ("no issue title contains '" ++ marker ++ "'"), s)
  | (.error t, s) => (.pending ("cannot search issues: " ++ t.message), s)

def branchProtection (h : Host σ) (branch : String) (d : Demands) (s : σ) : Outcome × σ :=
  match h.ask (.branchProtection branch) s with
  | (.ok (some p), s) => (protectionVerdict branch d p, s)
  | (.ok none, s) => (.fail ("branch '" ++ branch ++ "' is not protected"), s)
  | (.error t, s) => (.pending ("cannot read protection of '" ++ branch ++ "': " ++ t.message), s)

/-- The latest run, or the outcome when there is none. -/
def latestRun (h : Host σ) (branch : String) (workflow : Option String) (s : σ) :
    Except Outcome WorkflowRun × σ :=
  match h.ask (.latestRun branch workflow) s with
  | (.ok (some run), s) => (.ok run, s)
  | (.ok none, s) => (.error (.pending ("no CI run on '" ++ branch ++ "' yet")), s)
  | (.error t, s) =>
    (.error (.pending ("cannot list CI runs on '" ++ branch ++ "': " ++ t.message)), s)

def ciGreen (h : Host σ) (branch : String) (workflow : Option String) (s : σ) : Outcome × σ :=
  match latestRun h branch workflow s with
  | (.ok run, s) => (run.outcome, s)
  | (.error o, s) => (o, s)

def ciJob (h : Host σ) (branch name : String) (workflow : Option String) (s : σ) : Outcome × σ :=
  match latestRun h branch workflow s with
  | (.error o, s) => (o, s)
  | (.ok run, s) =>
    match h.ask (.runJobs run.id) s with
    | (.ok jobs, s) => (jobVerdict run jobs name, s)
    | (.error t, s) =>
      (.pending ("cannot list jobs of run " ++ toString run.id ++ ": " ++ t.message), s)

def prChecksGreen (h : Host σ) (s : σ) : Outcome × σ :=
  match h.ask .pullRequestChecks s with
  | (.ok (some cs), s) => (prChecksVerdict cs, s)
  | (.ok none, s) => (.pending "no pull request for the current branch", s)
  | (.error t, s) => (.pending ("cannot read pull request checks: " ++ t.message), s)

end Readiness.Probe

import Readiness.Host.Basic
import Readiness.Json.Reader
import Readiness.Text.Blank

/-!
# Host — Client

The hosting service behind the `gh` command line client.

* `Client.arguments` is the command line for a query;
* `Client.interpret` reads what the client printed as the query's answer;
* `Client.host` is the service that runs the one and reads the other.
-/

namespace Readiness.Client

/-- What a finished run of the client left. -/
structure Output where
  success : Bool
  stdout : ByteArray
  stderr : ByteArray

/-- How the client is launched: a run ends with output, or cannot be started for a reason. -/
abbrev Launch (σ : Type) := List String → σ → Except String Output × σ

/-! ### Command lines -/

def protectionEndpoint (branch : String) : String :=
  "repos/\x7bowner\x7d/\x7brepo\x7d/branches/" ++ branch ++ "/protection"

def runFields : String := "databaseId,name,workflowName,status,conclusion,headBranch"

/-- A search for titles with the exact phrase.  A quote cannot be part of it. -/
def issueSearch (marker : String) : String :=
  "\"" ++ String.ofList (marker.toList.filter (· ≠ '"')) ++ "\" in:title"

/-- The arguments that ask whether the client is there. -/
def versionArguments : List String := ["--version"]

/-- The arguments for a query. -/
def arguments : HostQuery → List String
  | .defaultBranch => ["repo", "view", "--json", "defaultBranchRef"]
  | .branchProtection b => ["api", protectionEndpoint b]
  | .latestRun b w =>
    ["run", "list", "--branch", b, "--limit", "1", "--json", runFields] ++
      match w with
      | some w => ["--workflow", w]
      | none => []
  | .runJobs id => ["run", "view", toString id, "--json", "jobs"]
  | .pullRequestChecks => ["pr", "checks", "--json", "name,state,bucket"]
  | .findIssue m =>
    ["issue", "list", "--state", "all", "--search", issueSearch m, "--limit", "100", "--json",
      "number,title,state"]
  | .setRequiredApprovals b n =>
    ["api", "-X", "PATCH", protectionEndpoint b ++ "/required_pull_request_reviews", "-F",
      "required_approving_review_count=" ++ toString n]
  | .merge n m => ["pr", "merge", toString n, m.flag]

/-! ### Answers -/

/-- What the client complained about. -/
def complaint (o : Output) : String := Text.trim (Text.Utf8.lossy o.stderr)

def failed (o : Output) : Trouble := .ofCause ("gh failed: " ++ complaint o)

/-- The decoded output of a run that succeeded. -/
def decodeOutput {α : Type} (f : Decoder α) (o : Output) : Except Trouble α :=
  if o.success then
    match Json.decodeBytes f o.stdout with
    | .ok a => .ok a
    | .error e => .error ⟨["unexpected gh output", e.message]⟩
  else .error (failed o)

/-- The rules in a protection payload. -/
def parseProtection (payload : String) : Except Trouble BranchProtection :=
  match Json.decode BranchProtection.decode payload with
  | .ok p => .ok p
  | .error e => .error ⟨["unexpected branch protection payload", e.message]⟩

/-- The checks in the output for a pull request. -/
def parsePrChecks (stdout : ByteArray) : Except Trouble (List PrCheck) :=
  let s := Text.Utf8.lossy stdout
  if Text.trim s = "" then .error (.ofCause "no output")
  else
    match Json.decode (Decoder.items PrCheck.decode) s with
    | .ok cs => .ok cs
    | .error e => .error ⟨["unexpected pr checks payload", e.message]⟩

/-- The answer in the output of a run that was started. -/
def answer (o : Output) : (q : HostQuery) → Except Trouble q.Answer
  | .defaultBranch =>
    (decodeOutput decodeDefaultBranch o).map fun b => b.filter fun name => name ≠ ""
  | .branchProtection _ =>
    if o.success then (parseProtection (Text.Utf8.lossy o.stdout)).map some
    else if Text.contains (complaint o) "Branch not protected" ||
        Text.contains (complaint o) "HTTP 404" then .ok none
    else .error (failed o)
  | .latestRun .. =>
    (decodeOutput (Decoder.items WorkflowRun.decode) o).map fun runs => runs.head?
  | .runJobs _ => decodeOutput Job.decodeView o
  | .pullRequestChecks =>
    -- The exit code also tells failing from pending checks, so it is not looked at.
    if Text.contains (complaint o) "no pull requests found" then .ok none
    else if Text.contains (complaint o) "no checks reported" then .ok (some [])
    else
      match parsePrChecks o.stdout with
      | .ok cs => .ok (some cs)
      | .error t => .error (t.within ("gh pr checks failed: " ++ complaint o))
  | .findIssue m =>
    -- The search is fuzzy; the title must contain the marker itself.
    (decodeOutput (Decoder.items Issue.decode) o).map fun issues =>
      issues.find? fun i => Text.contains i.title m
  | .setRequiredApprovals .. => if o.success then .ok () else .error (failed o)
  | .merge .. => if o.success then .ok () else .error (failed o)

/-- The answer to a query from a run of the client. -/
def interpret (q : HostQuery) : Except String Output → Except Trouble q.Answer
  | .ok o => answer o q
  | .error reason => .error ⟨["cannot run gh", reason]⟩

/-- The service behind a client that is launched for each query. -/
def host {σ : Type} (launch : Launch σ) : Host σ where
  isAvailable s :=
    let (o, s) := launch versionArguments s
    (match o with
      | .ok o => o.success
      | .error _ => false, s)
  ask q s :=
    let (o, s) := launch (arguments q) s
    (interpret q o, s)

end Readiness.Client

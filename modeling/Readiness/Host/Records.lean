import Readiness.Document.Record
import Readiness.Outcome
import Readiness.Text.Lowercase

/-!
# Host — Records

What a hosting service reports: protection rules, workflow runs and their jobs, pull request checks
and issues.

* Each record has its decoder from the service's JSON;
* `WorkflowRun.outcome` and `Job.outcome` classify a run and a job by the same rule;
* `MergeMethod` is how a pull request is merged.
-/

namespace Readiness

open Decoder Record

/-! ### Branch protection -/

/-- The rules on a branch. -/
structure BranchProtection where
  /-- The status checks that are required before merging. -/
  requiredChecks : List String
  /-- The rules bind administrators too. -/
  enforceAdmins : Bool
  /-- The required number of approving reviews, when reviews are required at all. -/
  requiredApprovals : Option Nat
deriving DecidableEq, Repr

namespace BranchProtection

def countMax : Nat := 2 ^ 32 - 1

/-- `c` at the end of the list, unless it is in it. -/
def addCheck (cs : List String) (c : String) : List String :=
  if cs.contains c then cs else cs ++ [c]

/-- The contexts, then each further check that is not among them. -/
def mergeChecks (contexts checks : List String) : List String := checks.foldl addCheck contexts

def decodeCheck : Decoder String := fun r => do
  let slots ← Record.read .malformed [required "context" text] r
  slots.get "context" text

/-- The contexts and checks of the status rules. -/
def decodeStatus : Decoder (List String × List String) := fun r => do
  let slots ← Record.read .malformed
    [defaulted "contexts" (items text), defaulted "checks" (items decodeCheck)] r
  return (← slots.getD "contexts" (items text) [], ← slots.getD "checks" (items decodeCheck) [])

def decodeToggle : Decoder Bool := fun r => do
  let slots ← Record.read .malformed [required "enabled" flag] r
  slots.get "enabled" flag

def decodeReviews : Decoder Nat := fun r => do
  let slots ← Record.read .malformed
    [defaulted "required_approving_review_count" (natural countMax)] r
  slots.getD "required_approving_review_count" (natural countMax) 0

/-- The rules in a protection payload; a part that is absent or null demands nothing. -/
def decode : Decoder BranchProtection := fun r => do
  let slots ← Record.read .malformed
    [defaulted "required_status_checks" (optional decodeStatus),
     defaulted "enforce_admins" (optional decodeToggle),
     defaulted "required_pull_request_reviews" (optional decodeReviews)] r
  let status ← slots.getD "required_status_checks" (optional decodeStatus) none
  let admins ← slots.getD "enforce_admins" (optional decodeToggle) none
  let reviews ← slots.getD "required_pull_request_reviews" (optional decodeReviews) none
  return {
    requiredChecks := match status with
      | some (contexts, checks) => mergeChecks contexts checks
      | none => []
    enforceAdmins := admins.getD false
    requiredApprovals := reviews }

end BranchProtection

/-! ### Runs and jobs -/

/-- The states of a run that has not finished. -/
def unfinishedStatuses : List String :=
  ["queued", "in_progress", "waiting", "requested", "pending", "action_required"]

/-- Completed with success passes, completed with anything else fails, all else is pending. -/
def classify (label status conclusion : String) : Outcome :=
  if status = "completed" then
    if conclusion = "success" then .pass
    else if conclusion = "" then .fail (label ++ " completed without a conclusion")
    else .fail (label ++ " concluded '" ++ conclusion ++ "'")
  else if unfinishedStatuses.contains status then .pending (label ++ " is " ++ status)
  else .pending (label ++ " has unrecognized status '" ++ status ++ "'")

/-- A run of a workflow. -/
structure WorkflowRun where
  id : Nat
  name : String
  workflowName : String
  status : String
  conclusion : String
  headBranch : String
deriving DecidableEq, Repr

namespace WorkflowRun

/-- The workflow's name, or the run's own where it has none, after the run's number. -/
def label (r : WorkflowRun) : String :=
  "run " ++ toString r.id ++ " (" ++ (if r.workflowName = "" then r.name else r.workflowName) ++ ")"

def outcome (r : WorkflowRun) : Outcome := classify r.label r.status r.conclusion

def idMax : Nat := 2 ^ 64 - 1

def decode : Decoder WorkflowRun := fun r => do
  let slots ← Record.read .malformed
    [required "databaseId" (natural idMax), defaulted "name" text, defaulted "workflowName" text,
     required "status" text, defaulted "conclusion" text, defaulted "headBranch" text] r
  return {
    id := ← slots.get "databaseId" (natural idMax)
    name := ← slots.getD "name" text ""
    workflowName := ← slots.getD "workflowName" text ""
    status := ← slots.get "status" text
    conclusion := ← slots.getD "conclusion" text ""
    headBranch := ← slots.getD "headBranch" text "" }

end WorkflowRun

/-- A job of a run. -/
structure Job where
  name : String
  status : String
  conclusion : String
deriving DecidableEq, Repr

namespace Job

def outcome (j : Job) : Outcome := classify ("job '" ++ j.name ++ "'") j.status j.conclusion

def decode : Decoder Job := fun r => do
  let slots ← Record.read .malformed
    [required "name" text, required "status" text, defaulted "conclusion" text] r
  return {
    name := ← slots.get "name" text
    status := ← slots.get "status" text
    conclusion := ← slots.getD "conclusion" text "" }

/-- The jobs of a run's view; a view without jobs has none. -/
def decodeView : Decoder (List Job) := fun r => do
  let slots ← Record.read .malformed [defaulted "jobs" (items decode)] r
  slots.getD "jobs" (items decode) []

end Job

/-! ### Pull request checks and issues -/

/-- A check reported on a pull request. -/
structure PrCheck where
  name : String
  state : String
  /-- The normalised state: `pass`, `fail`, `pending`, `skipping`, `cancel`, or a new word. -/
  bucket : String
deriving DecidableEq, Repr

def PrCheck.decode : Decoder PrCheck := fun r => do
  let slots ← Record.read .malformed
    [required "name" text, defaulted "state" text, required "bucket" text] r
  return {
    name := ← slots.get "name" text
    state := ← slots.getD "state" text ""
    bucket := ← slots.get "bucket" text }

/-- An issue. -/
structure Issue where
  number : Nat
  title : String
  state : String
deriving DecidableEq, Repr

def Issue.decode : Decoder Issue := fun r => do
  let slots ← Record.read .malformed
    [required "number" (natural (2 ^ 64 - 1)), required "title" text, required "state" text] r
  return {
    number := ← slots.get "number" (natural (2 ^ 64 - 1))
    title := ← slots.get "title" text
    state := ← slots.get "state" text }

/-- The default branch in a repository's view. -/
def decodeDefaultBranch : Decoder (Option String) := fun r => do
  let name : Decoder String := fun r => do
    let slots ← Record.read .malformed [required "name" text] r
    slots.get "name" text
  let slots ← Record.read .malformed [nullable "defaultBranchRef" name] r
  slots.getD "defaultBranchRef" (optional name) none

/-! ### Merging -/

/-- How a pull request is merged. -/
inductive MergeMethod where
  | squash
  | merge
  | rebase
deriving DecidableEq, Repr

namespace MergeMethod

def name : MergeMethod → String
  | .squash => "squash"
  | .merge  => "merge"
  | .rebase => "rebase"

/-- The client's option for the method. -/
def flag (m : MergeMethod) : String := "--" ++ m.name

/-- The method a word names, in any case. -/
def parse (s : String) : Except String MergeMethod :=
  match [squash, merge, rebase].find? fun m => m.name == Text.toLower s with
  | some m => .ok m
  | none => .error ("Invalid merge method: " ++ s ++ ". Use: squash, merge, rebase")

end MergeMethod

end Readiness

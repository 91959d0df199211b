import Readiness.Host.Records
import Readiness.Trouble

/-!
# Host — Basic

The hosting service as the program sees it: a machine that answers queries.

* `HostQuery` lists what can be asked, with the type of each answer;
* `Host` is a machine over a state of its own, so that answers may change from call to call;
* `Host.recorded` also keeps the queries that were asked.
-/

namespace Readiness

/-- A query to the hosting service; the last two change it. -/
inductive HostQuery where
  | defaultBranch
  | branchProtection (branch : String)
  | latestRun (branch : String) (workflow : Option String)
  | runJobs (id : Nat)
  | pullRequestChecks
  | findIssue (marker : String)
  | setRequiredApprovals (branch : String) (count : Nat)
  | merge (number : Nat) (method : MergeMethod)
deriving DecidableEq, Repr

/-- What a query is answered with.  `none` says that the thing asked for does not exist. -/
abbrev HostQuery.Answer : HostQuery → Type
  | .defaultBranch           => Option String
  | .branchProtection _      => Option BranchProtection
  | .latestRun ..            => Option WorkflowRun
  | .runJobs _               => List Job
  | .pullRequestChecks       => Option (List PrCheck)
  | .findIssue _             => Option Issue
  | .setRequiredApprovals .. => Unit
  | .merge ..                => Unit

/-- A hosting service with the state `σ`. -/
structure Host (σ : Type) where
  /-- The client is installed. -/
  isAvailable : σ → Bool × σ
  ask : (q : HostQuery) → σ → Except Trouble q.Answer × σ

/-- The service, keeping the queries it is asked, in order. -/
def Host.recorded {σ : Type} (h : Host σ) : Host (σ × List HostQuery) where
  isAvailable s :=
    let (b, inner) := h.isAvailable s.1
    (b, inner, s.2)
  ask q s :=
    let (a, inner) := h.ask q s.1
    (a, inner, s.2 ++ [q])

end Readiness

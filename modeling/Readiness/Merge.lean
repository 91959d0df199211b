import Readiness.Document.Basic
import Readiness.Host.Basic

/-!
# Merge

Merging a pull request into a protected branch.  The required approvals are set to zero before the
merge and to their former count after it, whether the merge succeeded or not.
-/

namespace Readiness

/-- What an assisted merge did. -/
structure MergeReport where
  pullRequest : Nat
  branch : String
  /-- The approvals required before, when reviews were required at all. -/
  formerApprovals : Option Nat
  /-- The requirement was relaxed and restored. -/
  relaxed : Bool
deriving DecidableEq, Repr

namespace MergeReport

def members (r : MergeReport) : List (String × Document) :=
  [("pull_request", .integer r.pullRequest), ("branch", .text r.branch),
   ("original_approvals",
     match r.formerApprovals with
     | some n => .integer n
     | none => .null),
   ("relaxed", .bool r.relaxed)]

end MergeReport

namespace Merge

def cannotRead (branch : String) : String := "failed to read protection of '" ++ branch ++ "'"

def cannotRelax (branch : String) : String := "failed to relax approvals on '" ++ branch ++ "'"

def cannotRestore (branch : String) (count : Nat) : String :=
  "failed to restore " ++ toString count ++ " required approval(s) on '" ++ branch ++
    "'; restore it manually"

def cannotMerge (number : Nat) : String := "failed to merge pull request #" ++ toString number

/-- The outcome under a context for its trouble. -/
def explain {α : Type} (context : String) (r : Except Trouble α) : Except Trouble α :=
  r.mapError fun t => t.within context

variable {σ : Type}

/-- Merges while the requirement is `count`, which is positive, and restores it.  Trouble with
restoring outweighs trouble with merging. -/
def relaxed (h : Host σ) (branch : String) (number : Nat) (method : MergeMethod) (count : Nat)
    (s : σ) : Except Trouble MergeReport × σ :=
  match h.ask (.setRequiredApprovals branch 0) s with
  | (.error t, s) => (.error (t.within (cannotRelax branch)), s)
  | (.ok (), s) =>
    let (merged, s) := h.ask (.merge number method) s
    let (restored, s) := h.ask (.setRequiredApprovals branch count) s
    match restored with
    | .error t => (.error (t.within (cannotRestore branch count)), s)
    | .ok () =>
      ((explain (cannotMerge number) merged).map fun () => ⟨number, branch, some count, true⟩, s)

/-- Merges where nothing has to be relaxed. -/
def direct (h : Host σ) (branch : String) (number : Nat) (method : MergeMethod)
    (former : Option Nat) (s : σ) : Except Trouble MergeReport × σ :=
  let (merged, s) := h.ask (.merge number method) s
  ((explain (cannotMerge number) merged).map fun () => ⟨number, branch, former, false⟩, s)

/-- Merges a pull request into a branch, relaxing its required approvals around the merge. -/
def assisted (h : Host σ) (branch : String) (number : Nat) (method : MergeMethod) (s : σ) :
    Except Trouble MergeReport × σ :=
  match h.ask (.branchProtection branch) s with
  | (.error t, s) => (.error (t.within (cannotRead branch)), s)
  | (.ok protection, s) =>
    match protection.bind (·.requiredApprovals) with
    | some (n + 1) => relaxed h branch number method (n + 1) s
    | former => direct h branch number method former s

end Merge

end Readiness

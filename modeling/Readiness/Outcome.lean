import Readiness.Document.Basic

/-!
# Outcome

What evaluating a check finds.  An undetermined condition is `pending`; it is neither a pass nor a
failure.
-/

namespace Readiness

/-- The result of evaluating one check. -/
inductive Outcome where
  | pass
  /-- The condition was looked at and does not hold. -/
  | fail (reason : String)
  /-- The condition cannot be determined yet. -/
  | pending (reason : String)
deriving DecidableEq, Repr

/-- The three kinds of outcome. -/
inductive Verdict where
  | pass
  | fail
  | pending
deriving DecidableEq, Repr

namespace Outcome

/-- `pass` when `ok` holds, else `fail`. -/
def passIf (ok : Bool) (reason : String) : Outcome := if ok then .pass else .fail reason

def verdict : Outcome → Verdict
  | .pass      => .pass
  | .fail _    => .fail
  | .pending _ => .pending

def isPass (o : Outcome) : Bool := o.verdict == .pass

/-- The word a report shows. -/
def label (o : Outcome) : String :=
  match o.verdict with
  | .pass    => "PASS"
  | .fail    => "FAIL"
  | .pending => "PENDING"

def reason? : Outcome → Option String
  | .pass => none
  | .fail r | .pending r => some r

/-- The outcome in a report. -/
def toDocument : Outcome → Document
  | .pass      => .table [("status", .text "pass")]
  | .fail r    => .table [("status", .text "fail"), ("reason", .text r)]
  | .pending r => .table [("status", .text "pending"), ("reason", .text r)]

end Outcome

end Readiness

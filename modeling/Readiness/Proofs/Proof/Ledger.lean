import Mathlib.Data.Finmap
import Mathlib.Data.Finset.Sort
import Mathlib.Data.String.Basic
import Readiness.Proof.Store
import Readiness.Rulebook.Basic

/-!
# Proof — the ledger that a store is

What a user of a proof store may think of it: a finite map from steps to tokens.

* `ProofStore.Op` and `ProofStore.Answer`: the uses of a store, and what they are answered with.
* `ProofStore.perform`: a use of the store in a directory; `Ledger.perform`: the same use of a map.
* `ProofStore.runOps`: one use after the other.
-/

namespace Readiness

namespace ProofStore

/-- A use of a proof store. -/
inductive Op where
  | ensureDir
  | write (step : String) (passed total : Nat) (revision : Revision) (stamp : Stamp)
  | read (step : String)
  | holds (step : String)
  | check (step : String) (current : Revision)
  | remove (step : String)
  | list
  | clear

/-- The step that a use is about. -/
def Op.step? : Op → Option String
  | .write step .. | .read step | .holds step | .check step _ | .remove step => some step
  | .ensureDir | .list | .clear => none

/-- The step is a well-formed name. -/
def Op.WellNamed (op : Op) : Prop := ∀ step, op.step? = some step → Rulebook.isName step = true

/-- What a use is answered with. -/
inductive Answer where
  | done
  | token (proof : ProofToken)
  | found (proof : Option ProofToken)
  | held (b : Bool)
  | state (s : ProofState)
  | removed (b : Bool)
  | names (steps : List String)
  | count (n : Nat)
deriving DecidableEq

abbrev Reply := Except Failure Answer

/-- The file system failed. -/
def Blocked (r : Reply) : Prop := ∃ i, r = .error (.io i)

/-- An answer of one kind among all. -/
def Result.wrap {α : Type} (f : α → Answer) (r : Result α) : Result Answer := (r.1.map f, r.2)

/-- A use of the store. -/
def perform (s : ProofStore) : Op → FileTree → Result Answer
  | .ensureDir, t => (s.ensureDir t).wrap fun () => .done
  | .write step passed total revision stamp, t =>
    (s.write step passed total revision stamp t).wrap .token
  | .read step, t => ((s.read step t).map .found, t)
  | .holds step, t => (.ok (.held (s.holds step t)), t)
  | .check step current, t => (s.check step current t).wrap .state
  | .remove step, t => (s.remove step t).wrap .removed
  | .list, t => ((s.list t).map .names, t)
  | .clear, t => (s.clear t).wrap .count

/-- One use after the other. -/
def runOps {α : Type} (perform : Op → α → Reply × α) : List Op → α → List Reply × α
  | [], a => ([], a)
  | op :: ops, a =>
    let (r, a) := perform op a
    let (rs, a) := runOps perform ops a
    (r :: rs, a)

end ProofStore

/-- A finite map from steps to tokens. -/
abbrev Ledger := Finmap fun _ : String => ProofToken

namespace Ledger

open ProofStore (Op Reply)

/-- A new token, for a run that fully passed. -/
def write (step : String) (passed total : Nat) (revision : Revision) (stamp : Stamp) (m : Ledger) :
    Except Failure ProofToken × Ledger :=
  if total = 0 ∨ passed ≠ total then (.error (.incompleteProof step passed total), m)
  else
    let proof := ProofToken.issue step passed total revision stamp
    (.ok proof, m.insert step proof)

/-- A token stays if it is of the revision. -/
def check (step : String) (current : Revision) (m : Ledger) : ProofState × Ledger :=
  match m.lookup step with
  | none => (.missing, m)
  | some proof =>
    if proof.commit = current.id then (.current proof, m)
    else (.stale proof.revision, m.erase step)

/-- A use of the map. -/
def perform : Op → Ledger → Reply × Ledger
  | .ensureDir, m => (.ok .done, m)
  | .write step passed total revision stamp, m =>
    ((write step passed total revision stamp m).1.map .token,
      (write step passed total revision stamp m).2)
  | .read step, m => (.ok (.found (m.lookup step)), m)
  | .holds step, m => (.ok (.held (m.lookup step).isSome), m)
  | .check step current, m =>
    (.ok (.state (check step current m).1), (check step current m).2)
  | .remove step, m => (.ok (.removed (m.lookup step).isSome), m.erase step)
  | .list, m => (.ok (.names m.keys.sort), m)
  | .clear, m => (.ok (.count m.keys.card), ∅)

end Ledger

end Readiness

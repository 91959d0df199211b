import Readiness.Failure
import Readiness.Proof.FileName
import Readiness.Proof.Token

/-!
# Proof — Store

The directory of proof files, one token for each step that holds a proof.

* `write` is the only way a proof comes in, and refuses a run that did not fully pass;
* `check` compares a proof with a revision and deletes one that cannot be trusted;
* `remove`, `list` and `clear` do what they say.

Each operation takes the files and gives them back, also when it fails on the way.
-/

namespace Readiness

/-- What a step's proof is worth at a revision. -/
inductive ProofState where
  | missing
  /-- There was a proof, issued elsewhere or unreadable; it has been deleted. -/
  | stale (stored : String)
  | current (proof : ProofToken)
deriving DecidableEq, Repr

namespace ProofState

def isCurrent : ProofState → Bool
  | .current _ => true
  | _ => false

def label : ProofState → String
  | .missing   => "missing"
  | .stale _   => "stale"
  | .current _ => "verified"

def proof? : ProofState → Option ProofToken
  | .current p => some p
  | _ => none

end ProofState

/-- The proof files in a directory, given by its absolute path. -/
structure ProofStore where
  dir : String
deriving DecidableEq, Repr

namespace ProofStore

/-- The rule that keeps proofs out of version control. -/
def ignoreRule : String := "*\n!.gitignore\n"

/-- The revision a deleted proof is said to be from when its file could not be read as a token. -/
def unreadable : String := "unreadable"

def pathFor (s : ProofStore) (step : String) : String := Path.join s.dir (ProofFile.name step)

def ignorePath (s : ProofStore) : String := Path.join s.dir ".gitignore"

/-- What an operation came to, and the files it left. -/
abbrev Result (α : Type) := Except Failure α × FileTree

/-- The directory with its ignore rule; a rule that is there stays as it is. -/
def ensureDir (s : ProofStore) (t : FileTree) : Result Unit :=
  match t.makeDirectories s.dir with
  | (.error e, t) => (.error (.io e), t)
  | (.ok (), t) =>
    if t.exists? s.ignorePath then (.ok (), t)
    else
      match t.writeFile s.ignorePath ignoreRule.toUTF8 with
      | .error e => (.error (.io e), t)
      | .ok t => (.ok (), t)

/-- A new proof for a step, instead of any former one.  A run without checks proves nothing. -/
def write (s : ProofStore) (step : String) (passed total : Nat) (revision : Revision)
    (stamp : Stamp) (t : FileTree) : Result ProofToken :=
  if total = 0 ∨ passed ≠ total then (.error (.incompleteProof step passed total), t)
  else
    match s.ensureDir t with
    | (.error e, t) => (.error e, t)
    | (.ok (), t) =>
      let proof := ProofToken.issue step passed total revision stamp
      match t.writeFile (s.pathFor step) proof.encode.toUTF8 with
      | .error e => (.error (.io e), t)
      | .ok t => (.ok proof, t)

/-- A step's proof, whatever revision it is from. -/
def read (s : ProofStore) (step : String) (t : FileTree) : Except Failure (Option ProofToken) :=
  if !t.exists? (s.pathFor step) then .ok none
  else
    match t.readText (s.pathFor step) with
    | .error e => .error (.io e)
    | .ok text =>
      match ProofToken.decode text with
      | .error f => .error (.unreadableProof f)
      | .ok p => .ok (some p)

/-- There is a proof file for the step. -/
def holds (s : ProofStore) (step : String) (t : FileTree) : Bool := t.isFile (s.pathFor step)

/-- Deletes a step's proof, and says whether there was one. -/
def remove (s : ProofStore) (step : String) (t : FileTree) : Result Bool :=
  if !t.exists? (s.pathFor step) then (.ok false, t)
  else
    match t.removeFile (s.pathFor step) with
    | .error e => (.error (.io e), t)
    | .ok t => (.ok true, t)

/-- Deletes a proof that is from `stored`. -/
def discard (s : ProofStore) (step stored : String) (t : FileTree) : Result ProofState :=
  match s.remove step t with
  | (.error e, t) => (.error e, t)
  | (.ok _, t) => (.ok (.stale stored), t)

/-- What a step's proof is worth at a revision.  One that was issued at another revision, or is no
token, is deleted. -/
def check (s : ProofStore) (step : String) (current : Revision) (t : FileTree) :
    Result ProofState :=
  match s.read step t with
  | .ok none => (.ok .missing, t)
  | .ok (some proof) =>
    if proof.matchesRevision current then (.ok (.current proof), t)
    else s.discard step proof.revision t
  | .error (.unreadableProof _) => s.discard step unreadable t
  | .error e => (.error e, t)

/-- The steps that hold a proof file, sorted. -/
def list (s : ProofStore) (t : FileTree) : Except Failure (List String) :=
  if !t.exists? s.dir then .ok []
  else
    match t.names s.dir with
    | .error e => .error (.io e)
    | .ok names => .ok ((names.filterMap ProofFile.step?).mergeSort fun a b => decide (a ≤ b))

/-- Deletes the proofs of the given steps, and counts them on top of `n`. -/
def removeEach (s : ProofStore) (n : Nat) : List String → FileTree → Result Nat
  | [], t => (.ok n, t)
  | step :: steps, t =>
    match s.remove step t with
    | (.error e, t) => (.error e, t)
    | (.ok removed, t) => s.removeEach (if removed then n + 1 else n) steps t

/-- Deletes every proof, and counts them. -/
def clear (s : ProofStore) (t : FileTree) : Result Nat :=
  match s.list t with
  | .error e => (.error e, t)
  | .ok steps => s.removeEach 0 steps t

end ProofStore

end Readiness

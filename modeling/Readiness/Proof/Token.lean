import Readiness.Document.Record
import Readiness.Instant
import Readiness.Json.Reader
import Readiness.Json.Writer

/-!
# Proof — Token

A proof token says that every check of a step passed at one revision.

* `Revision` is a commit as one run sees it, `Stamp` what makes a token unique;
* `ProofToken.issue` makes a token, `ProofToken.matchesRevision` compares it with a revision;
* `ProofToken.encode` and `ProofToken.decode` are its file form.
-/

namespace Readiness

/-- A commit as one run sees it. -/
structure Revision where
  /-- The full object id. -/
  id : String
  /-- The abbreviated id, for display and tokens only. -/
  short : String
deriving DecidableEq, Repr

/-- The time of issue in its two written forms, and a nonce. -/
structure Stamp where
  timestamp : String
  compact : String
  nonce : String
deriving DecidableEq, Repr

def Stamp.ofInstant (t : Instant) (nonce : String) : Stamp := ⟨t.timestamp, t.compact, nonce⟩

/-- The proof of a fully passing run of a step. -/
structure ProofToken where
  step : String
  /-- The abbreviated id of the revision it was issued at. -/
  revision : String
  /-- The full id of that revision; empty when it is not recorded. -/
  commit : String
  timestamp : String
  ratio : String
  token : String
deriving DecidableEq, Repr

namespace ProofToken

/-- A new proof for a step at a revision. -/
def issue (step : String) (passed total : Nat) (revision : Revision) (stamp : Stamp) :
    ProofToken where
  step := step
  revision := revision.short
  commit := revision.id
  timestamp := stamp.timestamp
  ratio := toString passed ++ "/" ++ toString total
  token := "SHIP-" ++ revision.short ++ "-" ++ stamp.compact ++ "-" ++ toString passed ++ "of" ++
    toString total ++ "-" ++ stamp.nonce

/-- The proof was issued at this revision.  Full ids are compared, for abbreviations can grow. -/
def matchesRevision (p : ProofToken) (r : Revision) : Bool := p.commit == r.id

def toDocument (p : ProofToken) : Document :=
  .table [("step", .text p.step), ("revision", .text p.revision), ("commit", .text p.commit),
    ("timestamp", .text p.timestamp), ("ratio", .text p.ratio), ("token", .text p.token)]

open Decoder Record

def fields : List Field :=
  [required "step" text, required "revision" text, defaulted "commit" text,
   required "timestamp" text, required "ratio" text, required "token" text]

def ofReading (r : Reading) : Except Fault ProofToken := do
  let slots ← Record.read .malformed fields r
  return {
    step := ← slots.get "step" text
    revision := ← slots.get "revision" text
    commit := ← slots.getD "commit" text ""
    timestamp := ← slots.get "timestamp" text
    ratio := ← slots.get "ratio" text
    token := ← slots.get "token" text }

/-- The text of a proof file. -/
def encode (p : ProofToken) : String := Json.pretty p.toDocument

/-- The token in the text of a proof file. -/
def decode (s : String) : Except Fault ProofToken := Json.decode ofReading s

end ProofToken

end Readiness

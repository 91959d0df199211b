import Readiness.Proof.Token
import Readiness.Proofs.Json.Texts
import Readiness.Proofs.Text.Utf8

/-!
# Proof — the token in a file

* `ProofToken.decode_encode`: a token is read back from the text it is written as.
* `ProofToken.ofBytes?` is the token that the bytes of a file are; `ofBytes?_encode` says so of a
  file that was written.
* `ProofToken.matchesRevision_iff`: a token is current at the revision with its commit.
-/

namespace Readiness.ProofToken

/-- The texts in the file of a token. -/
def parts (p : ProofToken) : List (String × String) :=
  [("revision", p.revision), ("commit", p.commit), ("timestamp", p.timestamp), ("ratio", p.ratio),
   ("token", p.token)]

theorem ofReading_parts (p : ProofToken) :
    ofReading (.table (Json.readings (("step", p.step) :: p.parts)) true) = .ok p := rfl

/-- A token is read back from the text it is written as. -/
theorem decode_encode (p : ProofToken) : decode p.encode = .ok p := by
  have h : Json.readInput (p.encode.toList.map some) =
      (.table (Json.readings (("step", p.step) :: p.parts)) true, true) :=
    Json.readInput_pretty ("step", p.step) p.parts
  rw [decode, Json.decode, Json.decodeInput, h]
  exact ofReading_parts p

/-- The token that the bytes of a file are, when they are one. -/
def ofBytes? (bytes : ByteArray) : Option ProofToken :=
  (String.fromUTF8? bytes).bind fun s => (decode s).toOption

theorem ofBytes?_encode (p : ProofToken) : ofBytes? p.encode.toUTF8 = some p := by
  rw [ofBytes?, Text.Utf8.fromUTF8?_toUTF8, Option.bind_some, decode_encode]
  rfl

theorem matchesRevision_iff {p : ProofToken} {r : Revision} :
    p.matchesRevision r = true ↔ p.commit = r.id := beq_iff_eq

end Readiness.ProofToken

import Readiness.Chain
import Readiness.Probe.Files
import Readiness.Probe.History
import Readiness.Probe.Hosted

/-!
# Probe — Evaluate

The evaluator of predicates for one run.

* `Probe` is what every check of the run may look at;
* `Memory` is what it remembers: the host's state, and the default branch once it is known;
* `Probe.evaluate` sends each predicate to the question it is.

Nothing here ends a run: whatever goes wrong while a predicate is evaluated becomes its outcome.
-/

namespace Readiness

/-- The context of one run at a revision. -/
structure Probe (σ : Type) where
  /-- The root of the work tree, an absolute path. -/
  root : String
  vcs : Vcs
  host : Host σ
  store : ProofStore
  settings : Settings
  revision : Revision

/-- What a run remembers from check to check. -/
structure Probe.Memory (σ : Type) where
  host : σ
  /-- The default branch, which is resolved once. -/
  branch : Option String

namespace Probe

variable {σ : Type}

/-- A step's proof is current.  One that is stale is deleted on the way. -/
def gate (p : Probe σ) (step : String) (t : FileTree) : Outcome × FileTree :=
  match p.store.check step p.revision t with
  | (.ok (.current _), t) => (.pass, t)
  | (.ok (.stale stored), t) =>
    (.fail ("proof for '" ++ step ++ "' was issued at " ++ stored ++ " but HEAD is " ++
      p.revision.short ++ "; re-run `shipcheck verify " ++ step ++ "`"), t)
  | (.ok .missing, t) =>
    (.fail ("step '" ++ step ++ "' has not been verified; run `shipcheck verify " ++ step ++ "`"),
      t)
  | (.error e, t) => (.fail ("cannot read proof for '" ++ step ++ "': " ++ e.message), t)

/-- The default branch, as remembered or else resolved and remembered. -/
def branch (p : Probe σ) (m : Memory σ) : String × Memory σ :=
  match m.branch with
  | some b => (b, m)
  | none =>
    let (b, host) := defaultBranch p.host p.vcs p.settings.fallbackBranch m.host
    (b, ⟨host, some b⟩)

/-- A question to the host. -/
def asking (q : σ → Outcome × σ) (m : Memory σ) : Outcome × Memory σ :=
  let (o, host) := q m.host
  (o, { m with host })

/-- A question to the host about the default branch. -/
def askingBranch (p : Probe σ) (q : String → σ → Outcome × σ) (m : Memory σ) :
    Outcome × Memory σ :=
  let (b, m) := p.branch m
  asking (q b) m

/-- An answer that leaves the files as they are. -/
def remembering (q : Memory σ → Outcome × Memory σ) (s : Scene (Memory σ)) :
    Outcome × Scene (Memory σ) :=
  let (o, inner) := q s.inner
  (o, { s with inner })

/-- The evaluator of the run. -/
def evaluate (p : Probe σ) : Evaluator (Memory σ) := fun predicate s =>
  match predicate with
  | .fileExists path => (fileExists s.files p.root path, s)
  | .dirExists path => (dirExists s.files p.root path, s)
  | .anyFileExists paths => (anyFileExists s.files p.root paths, s)
  | .globMatches pattern => (globMatches s.files p.root pattern, s)
  | .fileContains path pattern => (fileContains s.files p.root path pattern, s)
  | .yamlKey path key => (hasKey s.files p.root path key .yaml, s)
  | .jsonKey path key => (hasKey s.files p.root path key .json, s)
  | .tomlKey path key => (hasKey s.files p.root path key .toml, s)
  | .gitRemote name => (gitRemote p.vcs name, s)
  | .handshakeCommit marker => (handshakeCommit p.vcs marker p.settings.historyDepth, s)
  | .handshakeIssue marker => remembering (asking (handshakeIssue p.host marker)) s
  | .branchProtection c a n =>
    remembering (p.askingBranch fun b => branchProtection p.host b ⟨c, a, n⟩) s
  | .ciGreen workflow => remembering (p.askingBranch fun b => ciGreen p.host b workflow) s
  | .ciJob name workflow => remembering (p.askingBranch fun b => ciJob p.host b name workflow) s
  | .prChecksGreen => remembering (asking (prChecksGreen p.host)) s
  | .proofExists step =>
    let (o, files) := p.gate step s.files
    (o, { s with files })

end Probe

end Readiness

import Readiness.Probe.Evaluate

/-!
# Probe — what an outcome depends on

A host that answers a query the same way whenever it is asked, and predicates that do not ask it.

* `Host.Steady`: the answers do not depend on what was asked before.
* `evaluate_congr`, `branchFor_evaluate`: with such a host outcomes do not depend on it either,
  although the default branch is remembered from the first check that asks about it.
* `evaluate_unhosted`: a predicate that is not hosted leaves the memory alone, and it is answered as
  with a host that says nothing.
-/

namespace Readiness

/-- The host answers a query the same way whenever it is asked. -/
structure Host.Steady {σ : Type} (h : Host σ) : Prop where
  isAvailable : ∀ s s', (h.isAvailable s).1 = (h.isAvailable s').1
  ask : ∀ q s s', (h.ask q s).1 = (h.ask q s').1

/-- Two results with one answer. -/
@[elab_as_elim]
theorem Host.same_answer {α σ : Type} {motive : α × σ → α × σ → Prop} (r r' : α × σ)
    (h : r.1 = r'.1) (same : ∀ a s s', motive (a, s) (a, s')) : motive r r' := by
  obtain ⟨a, s⟩ := r
  obtain ⟨a', s'⟩ := r'
  obtain rfl : a = a' := h
  exact same a s s'

namespace Probe

open Host (same_answer)

variable {σ : Type}

/-! ### Questions to a steady host -/

section Questions

variable {h : Host σ} (hs : h.Steady)

include hs

theorem defaultBranch_steady (vcs : Vcs) (fallback : String) (s s' : σ) :
    (defaultBranch h vcs fallback s).1 = (defaultBranch h vcs fallback s').1 := by
  unfold defaultBranch
  refine same_answer (h.ask .defaultBranch s) (h.ask .defaultBranch s') (hs.ask _ s s') ?_
  rintro (t | _ | b) x x' <;> rfl

theorem handshakeIssue_steady (marker : String) (s s' : σ) :
    (handshakeIssue h marker s).1 = (handshakeIssue h marker s').1 := by
  unfold handshakeIssue
  refine same_answer (h.ask (.findIssue marker) s) (h.ask (.findIssue marker) s')
    (hs.ask _ s s') ?_
  rintro (t | _ | i) x x' <;> rfl

theorem branchProtection_steady (branch : String) (d : Demands) (s s' : σ) :
    (branchProtection h branch d s).1 = (branchProtection h branch d s').1 := by
  unfold branchProtection
  refine same_answer (h.ask (.branchProtection branch) s) (h.ask (.branchProtection branch) s')
    (hs.ask _ s s') ?_
  rintro (t | _ | p) x x' <;> rfl

theorem latestRun_steady (branch : String) (workflow : Option String) (s s' : σ) :
    (latestRun h branch workflow s).1 = (latestRun h branch workflow s').1 := by
  unfold latestRun
  refine same_answer (h.ask (.latestRun branch workflow) s)
    (h.ask (.latestRun branch workflow) s') (hs.ask _ s s') ?_
  rintro (t | _ | run) x x' <;> rfl

theorem ciGreen_steady (branch : String) (workflow : Option String) (s s' : σ) :
    (ciGreen h branch workflow s).1 = (ciGreen h branch workflow s').1 := by
  unfold ciGreen
  refine same_answer (latestRun h branch workflow s) (latestRun h branch workflow s')
    (latestRun_steady hs branch workflow s s') ?_
  rintro (o | run) x x' <;> rfl

theorem ciJob_steady (branch name : String) (workflow : Option String) (s s' : σ) :
    (ciJob h branch name workflow s).1 = (ciJob h branch name workflow s').1 := by
  unfold ciJob
  refine same_answer (latestRun h branch workflow s) (latestRun h branch workflow s')
    (latestRun_steady hs branch workflow s s') ?_
  rintro (o | run) x x'
  · rfl
  · -- a second question is asked, in two states again
    dsimp only
    refine same_answer (h.ask (.runJobs run.id) x) (h.ask (.runJobs run.id) x')
      (hs.ask _ x x') ?_
    rintro (t | jobs) y y' <;> rfl

theorem prChecksGreen_steady (s s' : σ) : (prChecksGreen h s).1 = (prChecksGreen h s').1 := by
  unfold prChecksGreen
  refine same_answer (h.ask .pullRequestChecks s) (h.ask .pullRequestChecks s')
    (hs.ask _ s s') ?_
  rintro (t | _ | cs) x x' <;> rfl

end Questions

/-! ### The default branch -/

variable {p : Probe σ}

/-- The branch that a memory leads to: the one it holds, or else the one it would get. -/
def branchFor (p : Probe σ) (m : Memory σ) : String := (p.branch m).1

/-- Once it is resolved the branch stays. -/
theorem branchFor_branch (m : Memory σ) : p.branchFor (p.branch m).2 = p.branchFor m := by
  obtain ⟨x, _ | b⟩ := m <;> rfl

/-- With a steady host it does not matter when the branch is resolved. -/
theorem branchFor_steady (hs : p.host.Steady) {m m' : Memory σ} (hm : m.branch = m'.branch) :
    p.branchFor m = p.branchFor m' := by
  obtain ⟨x, b⟩ := m
  obtain ⟨x', b'⟩ := m'
  obtain rfl : b = b' := hm
  cases b with
  | none => exact defaultBranch_steady hs p.vcs p.settings.fallbackBranch x x'
  | some b => rfl

/-! ### Outcomes -/

-- which questions the files are asked does not matter here
attribute [local irreducible] fileExists dirExists anyFileExists globMatches fileContains hasKey
  gitRemote handshakeCommit ProofStore.check

theorem askingBranch_congr_branchFor {f : String → σ → Outcome × σ}
    (hf : ∀ b s s', (f b s).1 = (f b s').1) {m m' : Memory σ}
    (hm : p.branchFor m = p.branchFor m') :
    (p.askingBranch f m).1 = (p.askingBranch f m').1 := by
  have hb := hf (p.branchFor m') (p.branch m).2.host (p.branch m').2.host
  rw [← hm] at hb
  exact hb.trans (congrArg (fun b => (f b (p.branch m').2.host).1) hm)

/-- With a steady host an outcome depends on the files and on the branch that the memory leads
to. -/
theorem evaluate_congr (hs : p.host.Steady) (q : Predicate) {m m' : Memory σ}
    (hm : p.branchFor m = p.branchFor m') (t : FileTree) :
    (p.evaluate q ⟨m, t⟩).1 = (p.evaluate q ⟨m', t⟩).1 := by
  cases q with
  | handshakeIssue marker => exact handshakeIssue_steady hs marker m.host m'.host
  | prChecksGreen => exact prChecksGreen_steady hs m.host m'.host
  | branchProtection c a n =>
      exact askingBranch_congr_branchFor (fun b => branchProtection_steady hs b ⟨c, a, n⟩) hm
  | ciGreen workflow =>
      exact askingBranch_congr_branchFor (fun b => ciGreen_steady hs b workflow) hm
  | ciJob name workflow =>
      exact askingBranch_congr_branchFor (fun b => ciJob_steady hs b name workflow) hm
  | _ => rfl

/-- With a steady host an outcome does not depend on what was asked before. -/
theorem evaluate_steady (hs : p.host.Steady) (q : Predicate) (x x' : σ) (b : Option String)
    (t : FileTree) : (p.evaluate q ⟨⟨x, b⟩, t⟩).1 = (p.evaluate q ⟨⟨x', b⟩, t⟩).1 := by
  have hb : p.branchFor ⟨x, b⟩ = p.branchFor ⟨x', b⟩ := branchFor_steady hs rfl
  exact evaluate_congr hs q hb t

theorem branchFor_askingBranch (hs : p.host.Steady) (f : String → σ → Outcome × σ)
    (m : Memory σ) : p.branchFor (p.askingBranch f m).2 = p.branchFor m := by
  have hb : (p.askingBranch f m).2.branch = (p.branch m).2.branch := rfl
  rw [branchFor_steady hs hb, branchFor_branch]

/-- With a steady host an evaluation does not change what branch the memory leads to. -/
theorem branchFor_evaluate (hs : p.host.Steady) (q : Predicate) (s : Scene (Memory σ)) :
    p.branchFor (p.evaluate q s).2.inner = p.branchFor s.inner := by
  cases q with
  | handshakeIssue marker => exact branchFor_steady hs rfl
  | prChecksGreen => exact branchFor_steady hs rfl
  | branchProtection c a n =>
      exact branchFor_askingBranch hs (fun b => branchProtection p.host b ⟨c, a, n⟩) s.inner
  | ciGreen workflow =>
      exact branchFor_askingBranch hs (fun b => ciGreen p.host b workflow) s.inner
  | ciJob name workflow =>
      exact branchFor_askingBranch hs (fun b => ciJob p.host b name workflow) s.inner
  | _ => rfl

/-! ### Predicates that do not ask the host -/

/-- A host that says nothing. -/
def muteHost : Host Unit := ⟨fun s => (false, s), fun _ s => (.error ⟨[]⟩, s)⟩

/-- The same probe with a host that says nothing. -/
def unhosted (p : Probe σ) : Probe Unit :=
  ⟨p.root, p.vcs, muteHost, p.store, p.settings, p.revision⟩

/-- What a predicate is answered with by the files and version control, and the files after. -/
def localAnswer (p : Probe σ) (q : Predicate) (t : FileTree) : Outcome × FileTree :=
  ((p.unhosted.evaluate q ⟨⟨(), none⟩, t⟩).1, (p.unhosted.evaluate q ⟨⟨(), none⟩, t⟩).2.files)

/-- A predicate that is not hosted does not ask the host, nor about the branch. -/
theorem evaluate_unhosted (p : Probe σ) {q : Predicate} (hq : q.isHosted = false)
    (s : Scene (Memory σ)) :
    p.evaluate q s = ((p.localAnswer q s.files).1, ⟨s.inner, (p.localAnswer q s.files).2⟩) := by
  cases q with
  | handshakeIssue | branchProtection | ciGreen | ciJob | prChecksGreen => cases hq
  | _ => rfl

end Probe

end Readiness

import Readiness.Proofs.Probe.Steady
import Readiness.Proofs.Workspace.Verify

/-!
# Workspace — the evaluation of a plan

What the checks of a plan come to, said of the files that the run began with.  The gate is evaluated
first, and it is the one check that touches the files; the others find what it left.

* `evaluation_parted`: the gate, and then the plan's own checks.
* `own_steady`: with a steady host each of these comes to what it would come to alone.
* `own_unasked`: so it does with any host when none of them asks it.
* `Small`: a workspace with a hosted check behind a gate.
-/

namespace Readiness

-- a check of a proof is not looked into here
attribute [local irreducible] ProofStore.check

namespace Probe

variable {σ : Type} (p : Probe σ)

/-- What the gate on a prerequisite comes to, and the files it leaves; without one it is open. -/
def gateAnswer (prerequisite : Option String) (t : FileTree) : Outcome × FileTree :=
  prerequisite.elim (.pass, t) fun a => p.gate a t

theorem files_gateAnswer (prerequisite : Option String) (t : FileTree) :
    (p.gateAnswer prerequisite t).2 =
      prerequisite.elim t fun a => (p.store.check a p.revision t).2 := by
  cases prerequisite with
  | none => rfl
  | some a => exact p.files_gate a t

variable {p} {prerequisite : Option String} {plan : StepPlan} {gates own : List Check}

open Chain (evaluateEach isBlocked reply)

/-- The checks of a plan are evaluated by evaluating its gate, and then its own on what it left. -/
theorem evaluateEach_parted (h : Rulebook.Parted prerequisite plan gates own)
    (s : Scene (Memory σ)) :
    evaluateEach plan p.evaluate false plan.checks s =
      let g := p.gateAnswer prerequisite s.files
      let e := evaluateEach plan p.evaluate (!g.1.isPass) own { s with files := g.2 }
      (gates.map (fun c => ⟨c, g.1⟩) ++ e.1, e.2) := by
  obtain ⟨hc, hg, -⟩ := h
  rw [hc]
  cases prerequisite with
  | none =>
      obtain rfl : gates = [] := List.map_eq_nil_iff.mp hg
      rfl
  | some a =>
      obtain ⟨c, rfl, hs⟩ := List.map_eq_singleton_iff.mp hg
      obtain ⟨n, d, q⟩ := c
      obtain rfl : q = .proofExists a := (Prod.mk.inj hs).2
      rw [List.singleton_append, Chain.evaluateEach_cons rfl]
      rfl

/-- With a steady host every check comes to what it would come to alone. -/
theorem own_steady (plan : StepPlan) (failed : Bool) (hs : p.host.Steady)
    (hg : ∀ c ∈ own, c.predicate.isGate = false) (s : Scene (Memory σ)) :
    (evaluateEach plan p.evaluate failed own s).1 =
        own.map (reply plan failed fun q => (p.evaluate q s).1) ∧
      (evaluateEach plan p.evaluate failed own s).2.files = s.files := by
  -- the host and the memory move on, but not to another branch
  let Stays (x : Scene (Memory σ)) : Prop :=
    x.files = s.files ∧ p.branchFor x.inner = p.branchFor s.inner
  have stays : ∀ c ∈ own, ∀ x, Stays x →
      (p.evaluate c.predicate x).1 = (p.evaluate c.predicate s).1 ∧
        Stays (p.evaluate c.predicate x).2 := by
    rintro c hc x ⟨hf, hb⟩
    refine ⟨?_, ?_, (branchFor_evaluate hs c.predicate x).trans hb⟩
    · obtain ⟨m, t⟩ := x
      obtain rfl : t = s.files := hf
      exact evaluate_congr hs c.predicate hb s.files
    · rw [p.files_evaluate (hg c hc), hf]
  obtain ⟨he, hf, -⟩ := Chain.evaluateEach_replies Stays (fun q => (p.evaluate q s).1) hg
    (fun c hc _ => stays c hc) ⟨rfl, rfl⟩
  exact ⟨he, hf⟩

/-- Checks that are blocked or not hosted ask nothing, and each comes to what it would come to
alone. -/
theorem own_unasked {failed : Bool} (hg : ∀ c ∈ own, c.predicate.isGate = false)
    (hu : ∀ c ∈ own, isBlocked plan failed c.predicate = false → c.predicate.isHosted = false)
    (s : Scene (Memory σ)) :
    evaluateEach plan p.evaluate failed own s =
      (own.map (reply plan failed fun q => (p.localAnswer q s.files).1), s) := by
  have stays : ∀ c ∈ own, isBlocked plan failed c.predicate = false → ∀ x, x = s →
      (p.evaluate c.predicate x).1 = (p.localAnswer c.predicate s.files).1 ∧
        (p.evaluate c.predicate x).2 = s := by
    rintro c hc hb x rfl
    have hf := p.files_evaluate (hg c hc) x
    rw [p.evaluate_unhosted (hu c hc hb)] at hf ⊢
    exact ⟨rfl, congrArg (Scene.mk x.inner) hf⟩
  obtain ⟨he, hs⟩ := Chain.evaluateEach_replies (· = s) (fun q => (p.localAnswer q s.files).1) hg
    stays rfl
  exact Prod.ext he hs

end Probe

namespace Workspace

variable {σ : Type} {w : Workspace} {vcs : Vcs} {host : Host σ} {step : String} {plan : StepPlan}
  {r : Revision} {inner : σ} {gates own : List Check} {t : FileTree}

/-- What the gate of a step comes to in a run at a revision, and the files it leaves.  It has
nothing to do with the host. -/
def gated (w : Workspace) (vcs : Vcs) (r : Revision) (step : String) (t : FileTree) :
    Outcome × FileTree :=
  (w.probe vcs Probe.muteHost r).gateAnswer (w.rulebook.prerequisite? step) t

theorem evaluation_parted
    (h : Rulebook.Parted (w.rulebook.prerequisite? step) plan gates own) (t : FileTree) :
    w.evaluation vcs host r plan inner t =
      let g := w.gated vcs r step t
      let e := Chain.evaluateEach plan (w.probe vcs host r).evaluate (!g.1.isPass) own
        ⟨⟨inner, none⟩, g.2⟩
      (gates.map (fun c => ⟨c, g.1⟩) ++ e.1, e.2) :=
  Probe.evaluateEach_parted h ⟨⟨inner, none⟩, t⟩

/-- What the checks of a plan come to when `answer` answers the predicates of its own ones. -/
def outcomes (plan : StepPlan) (gates own : List Check) (gate : Outcome)
    (answer : Predicate → Outcome) : List CheckOutcome :=
  gates.map (fun c => ⟨c, gate⟩) ++ own.map (Chain.reply plan (!gate.isPass) answer)

/-- With a steady host every check besides the gate comes to what it would come to alone, on the
files that the gate leaves. -/
theorem evaluation_steady (vcs : Vcs) (hs : host.Steady)
    (h : Rulebook.Parted (w.rulebook.prerequisite? step) plan gates own) (r : Revision)
    (inner : σ) (t : FileTree) :
    (w.evaluation vcs host r plan inner t).1 =
        outcomes plan gates own (w.gated vcs r step t).1
          (fun q => ((w.probe vcs host r).evaluate q
            ⟨⟨inner, none⟩, (w.gated vcs r step t).2⟩).1) ∧
      (w.evaluation vcs host r plan inner t).2.files = (w.gated vcs r step t).2 := by
  have hs : (w.probe vcs host r).host.Steady := hs
  obtain ⟨he, hf⟩ := Probe.own_steady plan (!(w.gated vcs r step t).1.isPass) hs h.notGate
    ⟨⟨inner, none⟩, (w.gated vcs r step t).2⟩
  rw [evaluation_parted h]
  exact ⟨congrArg (_ ++ ·) he, hf⟩

/-- Where no check gets to ask the host, the evaluation is the same with every host, and leaves it
alone. -/
theorem evaluation_unasked
    (h : Rulebook.Parted (w.rulebook.prerequisite? step) plan gates own)
    (hu : ∀ c ∈ own,
      Chain.isBlocked plan (!(w.gated vcs r step t).1.isPass) c.predicate = false →
        c.predicate.isHosted = false) :
    w.evaluation vcs host r plan inner t =
      (outcomes plan gates own (w.gated vcs r step t).1
          (fun q => ((w.probe vcs Probe.muteHost r).evaluate q
            ⟨⟨(), none⟩, (w.gated vcs r step t).2⟩).1),
        ⟨⟨inner, none⟩, (w.gated vcs r step t).2⟩) := by
  rw [evaluation_parted h]
  dsimp only
  rw [Probe.own_unasked h.notGate hu]
  rfl

end Workspace

/-! ### A small workspace -/

namespace Workspace.Small

/-- A host that is at hand and always answers that there is nothing. -/
def host : Host Unit where
  isAvailable s := (true, s)
  ask
    | .defaultBranch, s | .branchProtection _, s | .latestRun .., s | .pullRequestChecks, s
    | .findIssue _, s => (.ok none, s)
    | .runJobs _, s => (.ok [], s)
    | .setRequiredApprovals .., s | .merge .., s => (.ok (), s)

theorem steady_host : host.Steady where
  isAvailable _ _ := rfl
  ask q _ _ := by cases q <;> rfl

def revision : Revision := ⟨"c0", "c0"⟩

def vcs : Vcs := ⟨.ok revision, none, fun _ => .ok [], fun _ => true⟩

def remoteCheck : CheckDef := ⟨"Remote configured", none, .gitRemote "origin"⟩

def runCheck : CheckDef := ⟨"Latest run green", none, .ciGreen none⟩

/-- A step with a local check, and behind it one with a hosted check too. -/
def workspace : Workspace :=
  ⟨"/", ⟨.standard, [⟨"a", none, none, false, [remoteCheck]⟩,
    ⟨"b", none, none, true, [remoteCheck, runCheck]⟩]⟩, ⟨"/p"⟩, .unknown⟩

theorem validate_rulebook : workspace.rulebook.validate = .ok () := by rfl

/-- An empty proof directory. -/
def start : FileTree := ⟨[(["p"], .directory)]⟩

def stamp : Stamp := ⟨"t", "t", "n"⟩

end Workspace.Small

end Readiness

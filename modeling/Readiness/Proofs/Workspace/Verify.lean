import Readiness.Proofs.Probe
import Readiness.Proofs.Proof.Directory
import Readiness.Proofs.Rulebook.Plan

/-!
# Workspace — verifying a step

* `Proceeds`: a verification gets past the tests that come before anything is looked at.
* `admission`: these tests, and what they come to.
* `course`: it is refused and leaves the files alone, or the former proof is looked at, the checks
  are evaluated, and their outcomes settle what proof there is.
* `verify_flunked`, `verify_passed`: what a run is once its outcomes are known.
* `AllPass`, `Passed`: every check passes, and the verification is completed besides.
* `stored_verify`: a proof that is there afterwards was there before, or every check passed.
* `stored_prerequisite`: when every check passes the prerequisite has a proof of the same commit.
* `verify_exact`: in an orderly directory, what it does to every proof.
-/

namespace Readiness.Workspace

open Chain (evaluateEach)

variable {σ : Type}

/-! ### The checks of a gated plan -/

section Gated

variable {plan : StepPlan} {q : Option String} {own : List Check} (probe : Probe σ)

/-- Checks of a step touch the files by the gate alone. -/
theorem files_evaluateEach_gated (h : Rulebook.Gated q plan.checks own)
    (s : Scene (Probe.Memory σ)) :
    (evaluateEach plan probe.evaluate false plan.checks s).2.files =
      q.elim s.files fun p => (probe.store.check p probe.revision s.files).2 := by
  -- past the gate nothing touches the files, whether it has failed or not
  have hown : ∀ failed s, (evaluateEach plan probe.evaluate failed own s).2.files = s.files :=
    Chain.files_evaluateEach fun c hc => probe.files_evaluate (h.notGate c hc)
  obtain ⟨-, hc⟩ := h
  cases q with
  | none => dsimp only at hc; rw [hc]; exact hown false s
  | some p =>
      obtain ⟨c, hp, hc⟩ := hc
      have hh : c.predicate.isHosted = false := by rw [hp]; rfl
      rw [hc, Chain.evaluateEach_cons hh]
      dsimp only
      rw [hown, hp, (probe.evaluate_gate p s).2, probe.files_gate, Option.elim_some]

/-- When every check passes, the proof of the prerequisite is current. -/
theorem check_current_of_passed {p : String} (h : Rulebook.Gated (some p) plan.checks own)
    {s : Scene (Probe.Memory σ)}
    (ha : ∀ o ∈ (evaluateEach plan probe.evaluate false plan.checks s).1,
      o.outcome.isPass = true) :
    ∃ proof t, probe.store.check p probe.revision s.files = (.ok (.current proof), t) := by
  obtain ⟨-, c, hp, hc⟩ := h
  have hh : c.predicate.isHosted = false := by rw [hp]; rfl
  rw [hc, Chain.evaluateEach_cons hh] at ha
  have hg := ha _ List.mem_cons_self
  dsimp only at hg
  rw [hp, (probe.evaluate_gate p s).1] at hg
  exact (probe.isPass_gate p s.files).mp hg

/-- When the checks besides the gate pass, every check does if the proof of the prerequisite is
current. -/
theorem passed_of_ownPass (h : Rulebook.Gated q plan.checks own) {s : Scene (Probe.Memory σ)}
    (hown : Chain.OwnPass plan probe.evaluate false plan.checks s)
    (hq : ∀ p, q = some p →
      ∃ proof t, probe.store.check p probe.revision s.files = (.ok (.current proof), t)) :
    ∀ o ∈ (evaluateEach plan probe.evaluate false plan.checks s).1, o.outcome.isPass = true := by
  obtain ⟨hg, hc⟩ := h
  cases q with
  | none =>
      dsimp only at hc
      rw [hc] at hown ⊢
      exact Chain.isPass_of_ownPass hg hown
  | some p =>
      obtain ⟨c, hp, hc⟩ := hc
      have hh : c.predicate.isHosted = false := by rw [hp]; rfl
      have hpass : (probe.evaluate c.predicate s).1.isPass = true := by
        rw [hp, (probe.evaluate_gate p s).1]
        exact (probe.isPass_gate p s.files).mpr (hq p rfl)
      have hf : Chain.gateFails probe.evaluate c s = false := by
        simp [Chain.gateFails, hpass]
      rw [hc, Chain.OwnPass, if_neg (by simp [Chain.isBlocked, hh]), Bool.false_or, hf] at hown
      rw [hc, Chain.evaluateEach_cons hh, hf]
      intro o ho
      rcases List.mem_cons.mp ho with rfl | ho
      · exact hpass
      · exact Chain.isPass_of_ownPass hg hown.2 o ho

end Gated

/-! ### Refusals and runs -/

variable {w : Workspace} {vcs : Vcs} {host : Host σ} {step : String} {stamp : Stamp}
  {s s' : Scene σ} {plan : StepPlan} {r : Revision} {inner : σ}

/-- A verification gets past the tests that come before anything is looked at. -/
structure Proceeds (w : Workspace) (vcs : Vcs) (host : Host σ) (step : String) (start : σ)
    (plan : StepPlan) (r : Revision) (inner : σ) : Prop where
  planned : w.plan step = .ok plan
  head : vcs.head = .ok r
  ready : hostReady host plan start = (true, inner)
  checks : plan.hasOwnChecks = true

/-- Why a verification is refused. -/
def Refusal (vcs : Vcs) (step : String) (e : Failure) : Prop :=
  e = .unknownStep step ∨ vcs.head = .error e ∨ e = .toolMissing hostTool ∨
    e = .nothingToVerify step

section

attribute [local irreducible] Chain.verifyStep

theorem verify_proceeds (h : w.Proceeds vcs host step s.inner plan r inner) :
    w.verify vcs host step stamp s =
      ((w.run vcs host plan r stamp { s with inner }).1.map fun run => (plan, run),
        (w.run vcs host plan r stamp { s with inner }).2) := by
  unfold verify
  rw [h.planned, h.head]
  dsimp only
  rw [h.ready]

/-- What does not get past the tests leaves the files alone. -/
theorem verify_refused (stamp : Stamp) (s : Scene σ)
    (h : ¬ ∃ plan r inner, w.Proceeds vcs host step s.inner plan r inner) :
    ∃ e s', w.verify vcs host step stamp s = (.error e, s') ∧ s'.files = s.files ∧
      Refusal vcs step e := by
  unfold verify
  cases hp : w.plan step with
  | error e =>
      refine ⟨e, s, rfl, rfl, .inl ?_⟩
      by_cases hm : step ∈ w.rulebook.names
      · obtain ⟨plan, hplan⟩ := Rulebook.plan_of_mem hm w.stack
        rw [Workspace.plan, hplan] at hp
        cases hp
      · rw [Workspace.plan, Rulebook.plan_of_not_mem hm] at hp
        cases hp; rfl
  | ok plan =>
      cases hh : vcs.head with
      | error e => exact ⟨e, s, rfl, rfl, .inr (.inl hh)⟩
      | ok r =>
          dsimp only
          cases hr : hostReady host plan s.inner with
          | mk b inner =>
              cases b with
              | false => exact ⟨_, _, rfl, rfl, .inr (.inr (.inl rfl))⟩
              | true =>
                  have hc : plan.hasOwnChecks = false :=
                    Bool.eq_false_iff.mpr fun hc => h ⟨plan, r, inner, hp, hh, hr, hc⟩
                  dsimp only
                  rw [Workspace.run, Chain.verifyStep_of_no_checks hc, Rulebook.name_of_plan_ok hp]
                  exact ⟨_, _, rfl, rfl, .inr (.inr (.inr rfl))⟩

/-- The tests before anything is looked at, with a host that is at hand or not: the plan and the
revision, or why a verification is refused. -/
def admission (w : Workspace) (vcs : Vcs) (available : Bool) (step : String) :
    Except Failure (StepPlan × Revision) :=
  match w.plan step with
  | .error e => .error e
  | .ok plan =>
    match vcs.head with
    | .error e => .error e
    | .ok r =>
      if plan.needsHosted && !available then .error (.toolMissing hostTool)
      else if !plan.hasOwnChecks then .error (.nothingToVerify step)
      else .ok (plan, r)

theorem hostReady_fst (host : Host σ) (plan : StepPlan) (x : σ) :
    (hostReady host plan x).1 = !(plan.needsHosted && !(host.isAvailable x).1) := by
  rw [hostReady]
  cases plan.needsHosted
  · rfl
  · exact (Bool.not_not _).symm

/-- A verification is refused for the reason that the tests give. -/
theorem verify_of_admission_error {e : Failure}
    (h : w.admission vcs (host.isAvailable s.inner).1 step = .error e) (stamp : Stamp) :
    ∃ inner, w.verify vcs host step stamp s = (.error e, ⟨inner, s.files⟩) := by
  unfold admission at h
  unfold verify
  cases hp : w.plan step with
  | error f => rw [hp] at h; cases h; exact ⟨s.inner, rfl⟩
  | ok plan =>
      cases hh : vcs.head with
      | error f => rw [hp, hh] at h; cases h; exact ⟨s.inner, rfl⟩
      | ok r =>
          have hb := hostReady_fst host plan s.inner
          rw [hp, hh] at h
          dsimp only at h ⊢
          generalize hostReady host plan s.inner = ready at hb ⊢
          generalize (plan.needsHosted && !(host.isAvailable s.inner).1) = lacking at h hb
          obtain ⟨b, inner⟩ := ready
          obtain rfl : b = !lacking := hb
          refine ⟨inner, ?_⟩
          cases lacking with
          | true => cases h; rfl
          | false =>
              rw [if_neg (by simp)] at h
              split at h
              · rename_i hc
                cases h
                rw [Bool.not_false]
                dsimp only
                rw [Workspace.run, Chain.verifyStep_of_no_checks (by simpa using hc),
                  Rulebook.name_of_plan_ok hp]
                rfl
              · cases h

theorem proceeds_of_admission_ok {plan : StepPlan} {r : Revision}
    (h : w.admission vcs (host.isAvailable s.inner).1 step = .ok (plan, r)) :
    w.Proceeds vcs host step s.inner plan r (hostReady host plan s.inner).2 := by
  unfold admission at h
  split at h
  · cases h
  · rename_i plan' hp
    split at h
    · cases h
    · rename_i r' hh
      split at h
      · cases h
      · rename_i hn
        split at h
        · cases h
        · rename_i hc
          cases h
          refine ⟨hp, hh, Prod.ext ?_ rfl, by simpa using hc⟩
          rw [hostReady_fst, Bool.eq_false_iff.mpr hn]
          rfl

/-- The evaluation of a plan's checks, beginning with these files. -/
def evaluation (w : Workspace) (vcs : Vcs) (host : Host σ) (r : Revision) (plan : StepPlan)
    (inner : σ) (t : FileTree) : List CheckOutcome × Scene (Probe.Memory σ) :=
  evaluateEach plan (w.probe vcs host r).evaluate false plan.checks ⟨⟨inner, none⟩, t⟩

/-- A run after the former proof was looked at: its evaluation, settled. -/
theorem verify_of_check (h : w.Proceeds vcs host step s.inner plan r inner)
    {previous : ProofState} {t₁ t₃ : FileTree} {answer : Except Failure (Option ProofToken)}
    (hc : w.proofs.check step r s.files = (.ok previous, t₁))
    (hs : Chain.settle w.proofs step
      (.ofOutcomes step (w.evaluation vcs host r plan inner t₁).1) r stamp
      (w.evaluation vcs host r plan inner t₁).2.files = (answer, t₃)) :
    w.verify vcs host step stamp s =
      (answer.map fun proof =>
          (plan, ⟨.ofOutcomes step (w.evaluation vcs host r plan inner t₁).1, proof, previous⟩),
        ⟨(w.evaluation vcs host r plan inner t₁).2.inner.host, t₃⟩) := by
  have hn := Rulebook.name_of_plan_ok h.planned
  rw [evaluation] at hs
  rw [verify_proceeds h, Workspace.run, Chain.verifyStep_of_check h.checks (by rw [hn]; exact hc),
    hn]
  dsimp only
  rw [hs]
  cases answer <;> rfl

theorem verify_of_check_error (h : w.Proceeds vcs host step s.inner plan r inner) {e : Failure}
    {t₁ : FileTree} (hc : w.proofs.check step r s.files = (.error e, t₁)) :
    w.verify vcs host step stamp s = (.error e, ⟨inner, t₁⟩) := by
  have hn := Rulebook.name_of_plan_ok h.planned
  rw [verify_proceeds h, Workspace.run,
    Chain.verifyStep_of_check_error h.checks (by rw [hn]; exact hc)]
  rfl

end

theorem isName_of_proceeds (hv : w.rulebook.validate = .ok ())
    (h : w.Proceeds vcs host step s.inner plan r inner) : Rulebook.isName step = true :=
  Rulebook.isName_of_mem hv (Rulebook.mem_of_plan_ok h.planned)

theorem length_evaluation_eq (t : FileTree) :
    (w.evaluation vcs host r plan inner t).1.length = plan.checks.length :=
  Chain.length_evaluateEach false plan.checks _

theorem length_evaluation (h : plan.hasOwnChecks = true) (t : FileTree) :
    (w.evaluation vcs host r plan inner t).1.length ≠ 0 := by
  rw [length_evaluation_eq]
  exact Chain.checks_ne_nil h

theorem map_check_evaluation (t : FileTree) :
    (w.evaluation vcs host r plan inner t).1.map (·.check) = plan.checks :=
  Chain.map_check_evaluateEach false plan.checks _

/-- A verification in which some check did not pass deletes the proof. -/
theorem verify_flunked (h : w.Proceeds vcs host step s.inner plan r inner)
    {previous : ProofState} {t₁ t₃ : FileTree} {b : Bool}
    (hc : w.proofs.check step r s.files = (.ok previous, t₁))
    (hn : ¬ ∀ o ∈ (w.evaluation vcs host r plan inner t₁).1, o.outcome.isPass = true)
    (hr : w.proofs.remove step (w.evaluation vcs host r plan inner t₁).2.files = (.ok b, t₃)) :
    w.verify vcs host step stamp s =
      (.ok (plan, ⟨.ofOutcomes step (w.evaluation vcs host r plan inner t₁).1, none, previous⟩),
        ⟨(w.evaluation vcs host r plan inner t₁).2.inner.host, t₃⟩) := by
  have hs : Chain.settle w.proofs step (.ofOutcomes step (w.evaluation vcs host r plan inner t₁).1)
      r stamp (w.evaluation vcs host r plan inner t₁).2.files = (.ok none, t₃) := by
    rw [Chain.settle_eq, if_neg hn, hr]
    rfl
  exact verify_of_check h hc hs

/-- One in which every check passed writes it. -/
theorem verify_passed (h : w.Proceeds vcs host step s.inner plan r inner)
    {previous : ProofState} {t₁ t₃ : FileTree} {written : Except Failure ProofToken}
    (hc : w.proofs.check step r s.files = (.ok previous, t₁))
    (hp : ∀ o ∈ (w.evaluation vcs host r plan inner t₁).1, o.outcome.isPass = true)
    (hw : w.proofs.write step plan.checks.length plan.checks.length r stamp
      (w.evaluation vcs host r plan inner t₁).2.files = (written, t₃)) :
    w.verify vcs host step stamp s =
      (written.map fun proof => (plan,
          ⟨.ofOutcomes step (w.evaluation vcs host r plan inner t₁).1, some proof, previous⟩),
        ⟨(w.evaluation vcs host r plan inner t₁).2.inner.host, t₃⟩) := by
  have hs : Chain.settle w.proofs step (.ofOutcomes step (w.evaluation vcs host r plan inner t₁).1)
      r stamp (w.evaluation vcs host r plan inner t₁).2.files = (written.map some, t₃) := by
    rw [Chain.settle_eq, if_pos hp, length_evaluation_eq, hw]
  rw [verify_of_check h hc hs]
  cases written <;> rfl

/-- The files after the evaluation: the gate alone looks at proofs. -/
theorem files_evaluation (hv : w.rulebook.validate = .ok ()) (hp : w.plan step = .ok plan)
    (t : FileTree) :
    (w.evaluation vcs host r plan inner t).2.files =
      (w.rulebook.prerequisite? step).elim t fun p => (w.proofs.check p r t).2 := by
  obtain ⟨own, hg⟩ := Rulebook.gated_of_plan_ok hv hp
  exact files_evaluateEach_gated (w.probe vcs host r) hg _

/-- When every check passes, the proof of the prerequisite is current. -/
theorem check_prerequisite_of_passed (hv : w.rulebook.validate = .ok ())
    (hp : w.plan step = .ok plan) {q : String} (hq : w.rulebook.prerequisite? step = some q)
    {t : FileTree} (ha : ∀ o ∈ (w.evaluation vcs host r plan inner t).1, o.outcome.isPass = true) :
    ∃ p, w.proofs.check q r t = (.ok (.current p), t) := by
  obtain ⟨own, hg⟩ := Rulebook.gated_of_plan_ok hv hp
  rw [hq] at hg
  obtain ⟨p, t', hc⟩ := check_current_of_passed (w.probe vcs host r) hg ha
  obtain ⟨rfl, -, -⟩ := ProofStore.check_current hc
  exact ⟨p, hc⟩

/-- What a verification can come to. -/
inductive Course (w : Workspace) (vcs : Vcs) (host : Host σ) (step : String) (stamp : Stamp)
    (s : Scene σ) : Except Failure (StepPlan × StepRun) × Scene σ → Prop
  | refused {e : Failure} {s' : Scene σ} : s'.files = s.files → Refusal vcs step e →
      Course w vcs host step stamp s (.error e, s')
  /-- Looking at the former proof failed. -/
  | unseen {plan : StepPlan} {r : Revision} {inner : σ} {i : IoError} {t₁ : FileTree} :
      w.Proceeds vcs host step s.inner plan r inner →
      w.proofs.check step r s.files = (.error (.io i), t₁) →
      Course w vcs host step stamp s (.error (.io i), ⟨inner, t₁⟩)
  | settled {plan : StepPlan} {r : Revision} {inner : σ} {previous : ProofState}
      {t₁ t₃ : FileTree} {answer : Except Failure (Option ProofToken)} :
      w.Proceeds vcs host step s.inner plan r inner →
      w.proofs.check step r s.files = (.ok previous, t₁) →
      Chain.settle w.proofs step (.ofOutcomes step (w.evaluation vcs host r plan inner t₁).1) r
        stamp (w.evaluation vcs host r plan inner t₁).2.files = (answer, t₃) →
      Course w vcs host step stamp s
        (answer.map fun proof =>
            (plan, ⟨.ofOutcomes step (w.evaluation vcs host r plan inner t₁).1, proof, previous⟩),
          ⟨(w.evaluation vcs host r plan inner t₁).2.inner.host, t₃⟩)

theorem course (w : Workspace) (vcs : Vcs) (host : Host σ) (step : String) (stamp : Stamp)
    (s : Scene σ) : w.Course vcs host step stamp s (w.verify vcs host step stamp s) := by
  by_cases hp : ∃ plan r inner, w.Proceeds vcs host step s.inner plan r inner
  · obtain ⟨plan, r, inner, hp⟩ := hp
    cases hc : w.proofs.check step r s.files with
    | mk a t₁ =>
        cases a with
        | error e =>
            obtain ⟨i, rfl⟩ := ProofStore.check_error hc
            rw [verify_of_check_error hp hc]
            exact .unseen hp hc
        | ok previous =>
            cases hs : Chain.settle w.proofs step
                (.ofOutcomes step (w.evaluation vcs host r plan inner t₁).1) r stamp
                (w.evaluation vcs host r plan inner t₁).2.files with
            | mk answer t₃ =>
                rw [verify_of_check hp hc hs]
                exact .settled hp hc hs
  · obtain ⟨e, s', hr, hf, hrefusal⟩ := verify_refused stamp s hp
    rw [hr]
    exact .refused hf hrefusal

/-- A verification that is completed got past the tests, and its result is the evaluation's. -/
theorem verify_ok {run : StepRun} {plan' : StepPlan}
    (h : w.verify vcs host step stamp s = (.ok (plan', run), s')) :
    ∃ r inner previous t₁, w.Proceeds vcs host step s.inner plan' r inner ∧
      w.proofs.check step r s.files = (.ok previous, t₁) ∧
      run.result = .ofOutcomes step (w.evaluation vcs host r plan' inner t₁).1 ∧
      run.previous = previous ∧
      Chain.settle w.proofs step (.ofOutcomes step (w.evaluation vcs host r plan' inner t₁).1) r
        stamp (w.evaluation vcs host r plan' inner t₁).2.files = (.ok run.proof, s'.files) := by
  have hc := w.course vcs host step stamp s
  generalize w.verify vcs host step stamp s = x at h hc
  cases hc with
  | refused | unseen => cases h
  | @settled plan r inner previous t₁ t₃ answer hp hc hs =>
      cases answer with
      | error e => cases h
      | ok proof =>
          cases h
          exact ⟨r, inner, previous, t₁, hp, hc, rfl, rfl, hs⟩

/-- A verification without an answer leaves the files alone, unless the file system is at fault. -/
theorem files_of_error {e : Failure} (h : (w.verify vcs host step stamp s).1 = .error e)
    (hio : ∀ i, e ≠ .io i) : (w.verify vcs host step stamp s).2.files = s.files := by
  have hc := w.course vcs host step stamp s
  generalize w.verify vcs host step stamp s = x at h hc
  cases hc with
  | refused hf => exact hf
  | unseen => cases h; exact absurd rfl (hio _)
  | @settled plan r inner previous t₁ t₃ answer hp hc hs =>
      cases answer with
      | ok proof => cases h
      | error f =>
          obtain ⟨i, rfl⟩ := Chain.settle_error (length_evaluation hp.checks t₁) hs
          cases h
          exact absurd rfl (hio i)

/-- A verification that is completed leaves a proof just when every check passed. -/
theorem verify_settled (hv : w.rulebook.validate = .ok ()) {run : StepRun}
    (h : w.verify vcs host step stamp s = (.ok (plan, run), s')) :
    w.plan step = .ok plan ∧ plan.hasOwnChecks = true ∧
      run.result.results.map (·.check) = plan.checks ∧
      (run.result.allPassed = true ↔ ∀ c ∈ run.result.results, c.outcome.isPass = true) ∧
      ((∀ c ∈ run.result.results, c.outcome.isPass = true) ∧
          (∃ r p, vcs.head = .ok r ∧ run.proof = some p ∧
            p = .issue step plan.checks.length plan.checks.length r stamp ∧
            w.proofs.read step s'.files = .ok (some p) ∧ w.proofs.holds step s'.files = true) ∨
        ¬ (∀ c ∈ run.result.results, c.outcome.isPass = true) ∧ run.proof = none ∧
          s'.files.exists? (w.proofs.pathFor step) = false) := by
  obtain ⟨r, inner, previous, t₁, hp, -, hres, -, hs⟩ := verify_ok h
  have hname := isName_of_proceeds hv hp
  have hlen : (w.evaluation vcs host r plan inner t₁).1.length ≠ 0 :=
    length_evaluation hp.checks t₁
  have hmap : (w.evaluation vcs host r plan inner t₁).1.map (·.check) = plan.checks :=
    map_check_evaluation t₁
  rw [hres, StepResult.allPassed_iff, StepResult.results_ofOutcomes]
  refine ⟨hp.planned, hp.checks, hmap, Iff.rfl, ?_⟩
  rcases Chain.settle_cases hlen hs with ⟨i, hi⟩ | ⟨ha, p, hproof, hw⟩ | ⟨ha, hproof, b, hr⟩
  · cases hi
  · obtain ⟨hi, hread, hholds⟩ := ProofStore.write_ok hname hlen hw
    refine .inl ⟨ha, r, p, hp.head, Except.ok.inj hproof, ?_, hread, hholds⟩
    rw [hi, ← hmap, List.length_map]
  · exact .inr ⟨ha, Except.ok.inj hproof, ProofStore.remove_ok hname hr⟩

/-! ### What a verification does to the proofs -/

/-- Every check of the step's plan was answered with a pass.  It is another matter whether the proof
could then be settled. -/
def AllPass (w : Workspace) (vcs : Vcs) (host : Host σ) (step : String) (s : Scene σ) : Prop :=
  ∃ plan r inner, w.Proceeds vcs host step s.inner plan r inner ∧
    (∃ previous, (w.proofs.check step r s.files).1 = .ok previous) ∧
    ∀ c ∈ (w.evaluation vcs host r plan inner (w.proofs.check step r s.files).2).1,
      c.outcome.isPass = true

/-- The verification was completed, and every check of the step's plan was answered with a pass. -/
def Passed (w : Workspace) (vcs : Vcs) (host : Host σ) (step : String) (stamp : Stamp)
    (s : Scene σ) : Prop :=
  ∃ plan run, w.plan step = .ok plan ∧ (w.verify vcs host step stamp s).1 = .ok (plan, run) ∧
    run.result.results.map (·.check) = plan.checks ∧
      ∀ c ∈ run.result.results, c.outcome.isPass = true

/-- The verification was completed, and some check did not pass. -/
def Flunked (w : Workspace) (vcs : Vcs) (host : Host σ) (step : String) (stamp : Stamp)
    (s : Scene σ) : Prop :=
  ∃ plan run, (w.verify vcs host step stamp s).1 = .ok (plan, run) ∧
    ∃ c ∈ run.result.results, c.outcome.isPass = false

theorem not_passed_of_error {e : Failure} (h : (w.verify vcs host step stamp s).1 = .error e) :
    ¬ w.Passed vcs host step stamp s ∧ ¬ w.Flunked vcs host step stamp s := by
  constructor
  · rintro ⟨plan, run, -, hrun, -⟩
    rw [h] at hrun; cases hrun
  · rintro ⟨plan, run, hrun, -⟩
    rw [h] at hrun; cases hrun

/-- A verification that was completed passed or flunked. -/
theorem passed_iff (hv : w.rulebook.validate = .ok ()) {run : StepRun}
    (h : (w.verify vcs host step stamp s).1 = .ok (plan, run)) :
    (w.Passed vcs host step stamp s ↔ ∀ c ∈ run.result.results, c.outcome.isPass = true) ∧
      (w.Flunked vcs host step stamp s ↔
        ¬ ∀ c ∈ run.result.results, c.outcome.isPass = true) := by
  have hs : w.verify vcs host step stamp s =
      (.ok (plan, run), (w.verify vcs host step stamp s).2) := Prod.ext h rfl
  obtain ⟨hp, -, hmap, -⟩ := verify_settled hv hs
  refine ⟨⟨?_, fun ha => ⟨plan, run, hp, h, hmap, ha⟩⟩, ?_, fun ha => ?_⟩
  · rintro ⟨_, _, -, h', -, ha⟩
    cases h.symm.trans h'
    exact ha
  · rintro ⟨_, _, h', c, hc, hf⟩ ha
    cases h.symm.trans h'
    rw [ha c hc] at hf
    cases hf
  · obtain ⟨c, hc, hf⟩ := by simpa using ha
    exact ⟨plan, run, h, c, hc, hf⟩

/-- A verification was completed with every check passed just when all of them pass and the file
system does not keep it from its end. -/
theorem passed_iff_allPass : w.Passed vcs host step stamp s ↔
    w.AllPass vcs host step s ∧ ∀ i, (w.verify vcs host step stamp s).1 ≠ .error (.io i) := by
  constructor
  · rintro ⟨plan, run, -, hrun, -, ha⟩
    have hs : w.verify vcs host step stamp s =
        (.ok (plan, run), (w.verify vcs host step stamp s).2) := Prod.ext hrun rfl
    obtain ⟨r, inner, previous, t₁, hp, hc, hres, -, -⟩ := verify_ok hs
    rw [hres, StepResult.results_ofOutcomes] at ha
    refine ⟨⟨plan, r, inner, hp, ⟨previous, by rw [hc]⟩, by rwa [hc]⟩, fun i hi => ?_⟩
    rw [hrun] at hi
    cases hi
  · rintro ⟨⟨plan, r, inner, hp, ⟨previous, hc⟩, ha⟩, hio⟩
    have hlen : (w.evaluation vcs host r plan inner
        (w.proofs.check step r s.files).2).1.length ≠ 0 := length_evaluation hp.checks _
    cases hs : Chain.settle w.proofs step
        (.ofOutcomes step (w.evaluation vcs host r plan inner (w.proofs.check step r s.files).2).1)
        r stamp (w.evaluation vcs host r plan inner (w.proofs.check step r s.files).2).2.files with
    | mk answer t₃ =>
        have hx := verify_of_check hp (Prod.ext hc rfl) hs
        cases answer with
        | error e =>
            obtain ⟨i, rfl⟩ := Chain.settle_error hlen hs
            exact absurd (congrArg Prod.fst hx) (hio i)
        | ok proof =>
            refine ⟨plan, _, hp.planned, congrArg Prod.fst hx, ?_, ?_⟩
            · dsimp only
              rw [StepResult.results_ofOutcomes]
              exact map_check_evaluation _
            · dsimp only
              rwa [StepResult.results_ofOutcomes]

theorem loses_evaluation (hv : w.rulebook.validate = .ok ()) (hp : w.plan step = .ok plan)
    (t : FileTree) :
    FileTree.LosesFiles w.proofs.IsPath t (w.evaluation vcs host r plan inner t).2.files := by
  rw [files_evaluation hv hp]
  cases w.rulebook.prerequisite? step with
  | none => exact .refl t
  | some q => exact (ProofStore.check_loses w.proofs q r t).mono fun l hl => ⟨q, hl⟩

/-- A proof that is there after a verification was there before, or every check passed at its
commit. -/
theorem stored_verify (hv : w.rulebook.validate = .ok ()) {a : String} {p : ProofToken}
    (h : w.proofs.Stored (w.verify vcs host step stamp s).2.files a p) :
    w.proofs.Stored s.files a p ∨
      (a = step ∧ w.Passed vcs host step stamp s ∧ ∃ r, vcs.head = .ok r ∧ r.id = p.commit) := by
  have hc := w.course vcs host step stamp s
  generalize hx : w.verify vcs host step stamp s = x at h hc
  cases hc with
  | refused hf => exact .inl (hf ▸ h)
  | @unseen plan r inner i t₁ hp hc =>
      have hl := ProofStore.check_loses w.proofs step r s.files
      rw [hc] at hl
      exact .inl (h.of_loses hl)
  | @settled plan r inner previous t₁ t₃ answer hp hc hs =>
      have hl := ProofStore.check_loses w.proofs step r s.files
      rw [hc] at hl
      rcases Chain.stored_settle (isName_of_proceeds hv hp) (length_evaluation hp.checks t₁) hs h
        with h' | ⟨rfl, hr, ha, q, rfl⟩
      · -- looking at proofs deletes them at most
        exact .inl ((h'.of_loses (loses_evaluation hv hp.planned t₁)).of_loses hl)
      · refine .inr ⟨rfl, ⟨plan, _, hp.planned, by rw [hx]; rfl, ?_, ?_⟩, r, hp.head, hr.symm⟩
        · dsimp only
          rw [StepResult.results_ofOutcomes]
          exact map_check_evaluation t₁
        · dsimp only
          rw [StepResult.results_ofOutcomes]
          exact ha

/-- When every check of a step passes, its prerequisite has a proof of the same commit. -/
theorem stored_prerequisite (hv : w.rulebook.validate = .ok ())
    (h : w.Passed vcs host step stamp s) (hh : vcs.head = .ok r) {q : String}
    (hq : w.rulebook.prerequisite? step = some q) :
    ∃ p, w.proofs.Stored s.files q p ∧ p.commit = r.id := by
  obtain ⟨plan, run, hplan, hrun, -, ha⟩ := h
  have hs : w.verify vcs host step stamp s =
      (.ok (plan, run), (w.verify vcs host step stamp s).2) := Prod.ext hrun rfl
  obtain ⟨r', inner, previous, t₁, hp, hc, hres, -, -⟩ := verify_ok hs
  obtain rfl : r' = r := Except.ok.inj (hp.head.symm.trans hh)
  rw [hres, StepResult.results_ofOutcomes] at ha
  -- the gate saw what the look at the step's own proof left, so what it found was there before
  obtain ⟨proof, hk⟩ := check_prerequisite_of_passed hv hplan hq ha
  obtain ⟨-, hread, hcommit⟩ := ProofStore.check_current hk
  have hname := Rulebook.isName_of_mem hv (Rulebook.prerequisite?_mem hv hq).2
  have hl := ProofStore.check_loses w.proofs step r' s.files
  rw [hc] at hl
  exact ⟨proof, ((ProofStore.read_eq_some hname).mp hread).2.of_loses hl, hcommit⟩

/-- A proof that a verification of a step looks at, and that is not deleted then. -/
def Survives (w : Workspace) (step : String) (r : Revision) (a commit : String) : Prop :=
  a = step ∨ w.rulebook.prerequisite? step = some a → commit = r.id

/-- How a verification that got past the tests ends, and what it does to every proof: those it looks
at are deleted unless they are current, and then its own is made or deleted. -/
inductive Ending (w : Workspace) (step : String) (plan : StepPlan) (r : Revision)
    (outcomes : List CheckOutcome) (t t' : FileTree) : Except Failure (StepPlan × StepRun) → Prop
  /-- A directory stood in the place of the proof. -/
  | unseen {i : IoError} : t.get? (w.proofs.place step) = some .directory → t' = t →
      Ending w step plan r outcomes t t' (.error (.io i))
  /-- The proof could not be written or deleted. -/
  | broken {i : IoError} :
      (∀ a commit, w.proofs.Has t' a commit ↔
        w.proofs.Has t a commit ∧ w.Survives step r a commit) →
      Ending w step plan r outcomes t t' (.error (.io i))
  | passed {run : StepRun} : (∀ c ∈ outcomes, c.outcome.isPass = true) →
      run.result.results = outcomes →
      (∀ a commit, w.proofs.Has t' a commit ↔
        if a = step then commit = r.id
        else w.proofs.Has t a commit ∧ w.Survives step r a commit) →
      Ending w step plan r outcomes t t' (.ok (plan, run))
  | flunked {run : StepRun} : ¬ (∀ c ∈ outcomes, c.outcome.isPass = true) →
      run.result.results = outcomes →
      (∀ a commit, w.proofs.Has t' a commit ↔
        (w.proofs.Has t a commit ∧ w.Survives step r a commit) ∧ a ≠ step) →
      Ending w step plan r outcomes t t' (.ok (plan, run))

/-- What the evaluation leaves of the proofs that a look at the step's own left. -/
theorem evaluation_exact (vcs : Vcs) (host : Host σ) (inner : σ)
    (hv : w.rulebook.validate = .ok ()) (hp : w.plan step = .ok plan) {t t₁ : FileTree}
    (ho : w.proofs.Orderly t₁)
    (hh : ∀ a commit, w.proofs.Has t₁ a commit ↔
      w.proofs.Has t a commit ∧ (a = step → commit = r.id)) :
    w.proofs.Orderly (w.evaluation vcs host r plan inner t₁).2.files ∧
      ∀ a commit, w.proofs.Has (w.evaluation vcs host r plan inner t₁).2.files a commit ↔
        w.proofs.Has t a commit ∧ w.Survives step r a commit := by
  rw [files_evaluation hv hp]
  cases hq : w.rulebook.prerequisite? step with
  | none =>
      refine ⟨ho, fun a commit => ?_⟩
      rw [Option.elim_none, hh, Survives, hq]
      simp
  | some q =>
      have hqn := Rulebook.isName_of_mem hv (Rulebook.prerequisite?_mem hv hq).2
      obtain ⟨answer, t₂, hc, ho₂, hh₂, -⟩ := ProofStore.check_exact ho hqn r
      rw [Option.elim_some, hc]
      refine ⟨ho₂, fun a commit => ?_⟩
      rw [hh₂, hh, Survives, hq, and_assoc, Option.some.injEq, or_imp, eq_comm (a := q)]

/-- In an orderly directory a verification has one of these endings.  Its checks begin with the
files that looking at its own proof leaves. -/
theorem verify_exact (stamp : Stamp) (hv : w.rulebook.validate = .ok ())
    (ho : w.proofs.Orderly s.files) (hp : w.Proceeds vcs host step s.inner plan r inner) :
    w.proofs.Orderly (w.verify vcs host step stamp s).2.files ∧
      w.Ending step plan r
        (w.evaluation vcs host r plan inner (w.proofs.check step r s.files).2).1 s.files
        (w.verify vcs host step stamp s).2.files (w.verify vcs host step stamp s).1 := by
  have hname := isName_of_proceeds hv hp
  obtain ⟨_, t₁, hc, ho₁, hh₁, ⟨previous, rfl, -⟩ | ⟨hd, rfl, i, rfl⟩⟩ :=
    ProofStore.check_exact ho hname r
  · rw [hc]
    obtain ⟨ho₂, hh₂⟩ := evaluation_exact vcs host inner hv hp.planned ho₁ hh₁
    have hlen : (w.evaluation vcs host r plan inner t₁).1.length ≠ 0 :=
      length_evaluation hp.checks t₁
    obtain ⟨answer, t₃, hs, ho₃, he⟩ := Chain.settle_exact r stamp hname hlen ho₂
    rw [verify_of_check hp hc hs]
    refine ⟨ho₃, ?_⟩
    rcases he with ⟨⟨i, rfl⟩, hh⟩ | ⟨ha, ⟨q, rfl⟩, hh⟩ | ⟨ha, rfl, hh⟩
    · exact .broken fun a commit => (hh a commit).trans (hh₂ a commit)
    · refine .passed ha (StepResult.results_ofOutcomes _ _) fun a commit => ?_
      rw [hh, ← hh₂]
    · refine .flunked ha (StepResult.results_ofOutcomes _ _) fun a commit => ?_
      rw [hh, ← hh₂]
  · rw [verify_of_check_error hp hc]
    exact ⟨ho₁, .unseen hd rfl⟩

/-- Nothing gets in the way of proofs by a verification. -/
theorem verify_free (stamp : Stamp) (hv : w.rulebook.validate = .ok ())
    (hf : w.proofs.Free s.files) : w.proofs.Free (w.verify vcs host step stamp s).2.files := by
  have hc := w.course vcs host step stamp s
  generalize w.verify vcs host step stamp s = x at hc
  cases hc with
  | refused hfiles => exact hfiles ▸ hf
  | @unseen plan r inner i t₁ hp hc =>
      have hl := ProofStore.check_loses w.proofs step r s.files
      rw [hc] at hl
      exact hf.of_loses hl
  | @settled plan r inner previous t₁ t₃ answer hp hc hs =>
      have hl := ProofStore.check_loses w.proofs step r s.files
      rw [hc] at hl
      have hf₂ : w.proofs.Free (w.evaluation vcs host r plan inner t₁).2.files :=
        (hf.of_loses hl).of_loses (loses_evaluation hv hp.planned t₁)
      have hlen : (w.evaluation vcs host r plan inner t₁).1.length ≠ 0 :=
        length_evaluation hp.checks t₁
      have hf₃ := Chain.settle_free r stamp (isName_of_proceeds hv hp) hlen hf₂
      rw [hs] at hf₃
      exact hf₃

/-- The checks of its own that a verification evaluates pass. -/
def OwnPass (w : Workspace) (vcs : Vcs) (host : Host σ) (step : String) (s : Scene σ) : Prop :=
  ∀ plan r inner, w.Proceeds vcs host step s.inner plan r inner →
    Chain.OwnPass plan (w.probe vcs host r).evaluate false plan.checks
      ⟨⟨inner, none⟩, (w.proofs.check step r s.files).2⟩

section

-- a check of a proof is not looked into here
attribute [local irreducible] ProofStore.check

/-- When its own checks pass, every check of a verification does just if its prerequisite has a
proof of the same commit. -/
theorem isPass_evaluation_iff (hv : w.rulebook.validate = .ok ())
    (ho : w.proofs.Orderly s.files) (hp : w.Proceeds vcs host step s.inner plan r inner)
    (hown : w.OwnPass vcs host step s) :
    (∀ c ∈ (w.evaluation vcs host r plan inner (w.proofs.check step r s.files).2).1,
        c.outcome.isPass = true) ↔
      ∀ q, w.rulebook.prerequisite? step = some q → w.proofs.Has s.files q r.id := by
  obtain ⟨answer, t₁, hc, ho₁, hh₁, -⟩ := ProofStore.check_exact ho (isName_of_proceeds hv hp) r
  have hown := hown plan r inner hp
  rw [hc] at hown ⊢
  obtain ⟨own, hg⟩ := Rulebook.gated_of_plan_ok hv hp.planned
  have hcur : ∀ q, w.rulebook.prerequisite? step = some q →
      ((∃ proof t, w.proofs.check q r t₁ = (.ok (.current proof), t)) ↔
        w.proofs.Has s.files q r.id) := by
    intro q hq
    -- the look at the step's own proof spares the prerequisite's where it is of this commit
    have hq' := hh₁ q r.id
    rw [and_iff_left fun _ => rfl] at hq'
    rw [← hq']
    obtain ⟨_, t₂, hc₂, -, -, ⟨state, rfl, hs⟩ | ⟨hd, -, i, rfl⟩⟩ := ProofStore.check_exact ho₁
      (Rulebook.isName_of_mem hv (Rulebook.prerequisite?_mem hv hq).2) r
    · rw [hc₂, ← hs]
      constructor
      · rintro ⟨proof, t, h⟩
        cases h
        rfl
      · intro h
        cases state with
        | current proof => exact ⟨proof, t₂, rfl⟩
        | _ => cases h
    · rw [hc₂]
      refine iff_of_false ?_ (ProofStore.not_has_of_no_file (fun b hb => ?_) r.id)
      · rintro ⟨proof, t, h⟩
        cases h
      · rw [hd] at hb; cases hb
  constructor
  · intro ha q hq
    rw [hq] at hg
    exact (hcur q hq).mp (check_current_of_passed (w.probe vcs host r) hg ha)
  · exact fun h => passed_of_ownPass (w.probe vcs host r) hg hown fun q hq =>
      (hcur q hq).mpr (h q hq)

end

end Readiness.Workspace

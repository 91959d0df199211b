import Readiness.Proofs.Chain.Transcript
import Readiness.Proofs.Repository.Head
import Readiness.Proofs.Workspace.Consultation

/-!
# Workspace — refusing to verify

The tests that come before anything is looked at, in their order, and what a refusal leaves behind.

* `Chain.logged`, `verifyLogged`: a verification that keeps every predicate it evaluates;
  `verify_logged`: without what it keeps it is `verify`.
* `Tested`, `tested`: what the tests come to, said of the rulebook, of HEAD and of the host.
* `verify_error_iff`: a verification is refused for the reason that the tests give, and otherwise
  fails because of the file system alone.
* `refused_iff`: so for each reason there is one condition, and nothing has happened by then.
-/

namespace Readiness

/-! ### Keeping what is evaluated -/

namespace Chain

variable {τ : Type}

/-- The evaluator, keeping every predicate, in order. -/
def logged (evaluate : Evaluator τ) : Evaluator (τ × List Predicate) := fun q s =>
  let (o, s') := evaluate q ⟨s.inner.1, s.files⟩
  (o, ⟨(s'.inner, s.inner.2 ++ [q]), s'.files⟩)

/-- The scene without what was kept. -/
def unlogged (s : Scene (τ × List Predicate)) : Scene τ := ⟨s.inner.1, s.files⟩

/-- What a run comes to does not depend on whether its predicates are kept. -/
theorem verifyStep_logged (plan : StepPlan) (evaluate : Evaluator τ) (store : ProofStore)
    (r : Revision) (stamp : Stamp) (s : Scene (τ × List Predicate)) :
    verifyStep plan evaluate store r stamp (unlogged s) =
      ((verifyStep plan (logged evaluate) store r stamp s).1,
        unlogged (verifyStep plan (logged evaluate) store r stamp s).2) :=
  verifyStep_map (fun _ _ => rfl) plan store r stamp s

end Chain

namespace Workspace

open Chain (unlogged)

variable {σ : Type} {w : Workspace} {vcs : Vcs} {host : Host σ} {step : String} {stamp : Stamp}
  {plan : StepPlan} {r : Revision} {inner : σ} {graph : CommitGraph} {t : FileTree}

/-- A run of a plan that keeps every predicate. -/
def runLogged (w : Workspace) (vcs : Vcs) (host : Host σ) (plan : StepPlan) (revision : Revision)
    (stamp : Stamp) (s : Scene (σ × List Predicate)) :
    Except Failure StepRun × Scene (σ × List Predicate) :=
  let (answer, s) := Chain.verifyStep plan (Chain.logged (w.probe vcs host revision).evaluate)
    w.proofs revision stamp ⟨(⟨s.inner.1, none⟩, s.inner.2), s.files⟩
  (answer, ⟨(s.inner.1.host, s.inner.2), s.files⟩)

/-- A verification that keeps every predicate it evaluates. -/
def verifyLogged (w : Workspace) (vcs : Vcs) (host : Host σ) (step : String) (stamp : Stamp)
    (s : Scene (σ × List Predicate)) :
    Except Failure (StepPlan × StepRun) × Scene (σ × List Predicate) :=
  match w.plan step with
  | .error e => (.error e, s)
  | .ok plan =>
    match vcs.head with
    | .error e => (.error e, s)
    | .ok revision =>
      match hostReady host plan s.inner.1 with
      | (false, inner) => (.error (.toolMissing hostTool), ⟨(inner, s.inner.2), s.files⟩)
      | (true, inner) =>
        let (answer, s) := w.runLogged vcs host plan revision stamp ⟨(inner, s.inner.2), s.files⟩
        (answer.map fun run => (plan, run), s)

section

attribute [local irreducible] Chain.verifyStep

theorem run_logged (w : Workspace) (vcs : Vcs) (host : Host σ) (plan : StepPlan) (r : Revision)
    (stamp : Stamp) (s : Scene (σ × List Predicate)) :
    w.run vcs host plan r stamp (unlogged s) =
      ((w.runLogged vcs host plan r stamp s).1,
        unlogged (w.runLogged vcs host plan r stamp s).2) := by
  have h := Chain.verifyStep_logged plan (w.probe vcs host r).evaluate w.proofs r stamp
    ⟨(⟨s.inner.1, none⟩, s.inner.2), s.files⟩
  rw [run]
  dsimp only [unlogged] at h ⊢
  rw [h]
  rfl

/-- What a verification comes to does not depend on whether its predicates are kept. -/
theorem verify_logged (w : Workspace) (vcs : Vcs) (host : Host σ) (step : String) (stamp : Stamp)
    (s : Scene (σ × List Predicate)) :
    w.verify vcs host step stamp (unlogged s) =
      ((w.verifyLogged vcs host step stamp s).1,
        unlogged (w.verifyLogged vcs host step stamp s).2) := by
  unfold verify verifyLogged
  cases w.plan step with
  | error e => rfl
  | ok plan =>
      cases vcs.head with
      | error e => rfl
      | ok r =>
          dsimp only [unlogged]
          cases hostReady host plan s.inner.1 with
          | mk b inner =>
              cases b with
              | false => rfl
              | true =>
                  have h := run_logged w vcs host plan r stamp ⟨(inner, s.inner.2), s.files⟩
                  dsimp only [unlogged] at h ⊢
                  rw [h]

end

/-! ### The tests -/

/-- Some check of the step's plan asks the host. -/
def AsksHost (w : Workspace) (step : String) : Prop :=
  ∃ plan, w.plan step = .ok plan ∧ ∃ c ∈ plan.checks, c.predicate.isHosted = true

/-- The step's plan has no check besides its gate. -/
def OnlyGated (w : Workspace) (step : String) : Prop :=
  ∃ plan, w.plan step = .ok plan ∧ ∀ c ∈ plan.checks, c.predicate.isGate = true

theorem asksHost_iff (hp : w.plan step = .ok plan) :
    w.AsksHost step ↔ plan.needsHosted = true := by
  rw [AsksHost, StepPlan.needsHosted, List.any_eq_true]
  constructor
  · rintro ⟨plan', hp', hc⟩
    cases hp.symm.trans hp'
    exact hc
  · exact fun hc => ⟨plan, hp, hc⟩

theorem onlyGated_iff (hp : w.plan step = .ok plan) :
    w.OnlyGated step ↔ plan.hasOwnChecks = false := by
  rw [OnlyGated, StepPlan.hasOwnChecks, List.any_eq_false]
  simp only [Bool.not_eq_true', Bool.not_eq_false]
  constructor
  · rintro ⟨plan', hp', hc⟩
    cases hp.symm.trans hp'
    exact hc
  · exact fun hc => ⟨plan, hp, hc⟩

/-- What the tests come to, one after the other, with a host that is at hand or not. -/
inductive Tested (w : Workspace) (t : FileTree) (graph : CommitGraph) (available : Bool)
    (step : String) : Except Failure (StepPlan × Revision) → Prop
  | unknown : step ∉ w.rulebook.names → Tested w t graph available step (.error (.unknownStep step))
  | unplaced {e : Failure} : step ∈ w.rulebook.names → (¬ ∃ c, Vcs.PlacedAt t graph w.root c) →
      (e = .noRevision ∨ ∃ reason, e = .repository reason) →
      Tested w t graph available step (.error e)
  | lacking {c : Commit} : step ∈ w.rulebook.names → Vcs.PlacedAt t graph w.root c →
      w.AsksHost step ∧ available = false →
      Tested w t graph available step (.error (.toolMissing hostTool))
  | bare {c : Commit} : step ∈ w.rulebook.names → Vcs.PlacedAt t graph w.root c →
      ¬ (w.AsksHost step ∧ available = false) → w.OnlyGated step →
      Tested w t graph available step (.error (.nothingToVerify step))
  | admitted {c : Commit} {plan : StepPlan} : step ∈ w.rulebook.names →
      Vcs.PlacedAt t graph w.root c → ¬ (w.AsksHost step ∧ available = false) →
      ¬ w.OnlyGated step → w.plan step = .ok plan →
      Tested w t graph available step (.ok (plan, graph.revision c))

theorem tested (w : Workspace) (t : FileTree) (graph : CommitGraph) (available : Bool)
    (step : String) : w.Tested t graph available step
      (w.admission (.ofTree t graph w.root) available step) := by
  by_cases hm : step ∈ w.rulebook.names
  · obtain ⟨plan, hp⟩ := Rulebook.plan_of_mem hm w.stack
    have hp : w.plan step = .ok plan := hp
    unfold admission
    rw [hp]
    dsimp only
    cases hh : (Vcs.ofTree t graph w.root).head with
    | error e =>
        refine .unplaced hm ?_ (Vcs.head_ofTree_error hh)
        rintro ⟨c, hc⟩
        rw [Vcs.head_ofTree_eq_ok.mpr ⟨c, hc, rfl⟩] at hh
        cases hh
    | ok r =>
        obtain ⟨c, hc, rfl⟩ := Vcs.head_ofTree_eq_ok.mp hh
        dsimp only
        have hl : (plan.needsHosted && !available) = true ↔
            w.AsksHost step ∧ available = false := by
          rw [asksHost_iff hp, Bool.and_eq_true, Bool.not_eq_true']
        split
        · rename_i h
          exact .lacking hm hc (hl.mp h)
        · rename_i h
          split
          · rename_i hown
            exact .bare hm hc (fun hn => h (hl.mpr hn))
              ((onlyGated_iff hp).mpr (by simpa using hown))
          · rename_i hown
            refine .admitted hm hc (fun hn => h (hl.mpr hn)) (fun hg => hown ?_) hp
            simpa using (onlyGated_iff hp).mp hg
  · have hp : w.plan step = .error (.unknownStep step) := Rulebook.plan_of_not_mem hm w.stack
    unfold admission
    rw [hp]
    exact .unknown hm

namespace Tested

variable {available : Bool} {a : Except Failure (StepPlan × Revision)}
  (h : w.Tested t graph available step a)

include h

theorem unknown_iff : a = .error (.unknownStep step) ↔ step ∉ w.rulebook.names := by
  cases h with
  | unplaced hm _ he =>
      refine iff_of_false (fun h => ?_) (not_not_intro hm)
      cases h
      simp at he
  | _ => simp_all

theorem unplaced_iff :
    a = .error .noRevision ∨ (∃ reason, a = .error (.repository reason)) ↔
      step ∈ w.rulebook.names ∧ ¬ ∃ c, Vcs.PlacedAt t graph w.root c := by
  cases h with
  | unplaced hm hc he => simp [hm, hc, he]
  | lacking _ hc | bare _ hc | admitted _ hc => simpa using fun _ => ⟨_, hc⟩
  | unknown hm => simp [hm]

theorem lacking_iff : a = .error (.toolMissing hostTool) ↔
    step ∈ w.rulebook.names ∧ (∃ c, Vcs.PlacedAt t graph w.root c) ∧
      w.AsksHost step ∧ available = false := by
  cases h with
  | lacking hm hc hl => exact iff_of_true rfl ⟨hm, ⟨_, hc⟩, hl⟩
  | unplaced _ hc he =>
      refine iff_of_false (fun h => ?_) fun h => hc h.2.1
      cases h
      simp at he
  | unknown hm => exact iff_of_false nofun fun h => hm h.1
  | bare _ _ hl | admitted _ _ hl => exact iff_of_false nofun fun h => hl h.2.2

theorem bare_iff : a = .error (.nothingToVerify step) ↔
    step ∈ w.rulebook.names ∧ (∃ c, Vcs.PlacedAt t graph w.root c) ∧
      ¬ (w.AsksHost step ∧ available = false) ∧ w.OnlyGated step := by
  cases h with
  | bare hm hc hl hg => exact iff_of_true rfl ⟨hm, ⟨_, hc⟩, hl, hg⟩
  | unplaced _ hc he =>
      refine iff_of_false (fun h => ?_) fun h => hc h.2.1
      cases h
      simp at he
  | unknown hm => exact iff_of_false nofun fun h => hm h.1
  | lacking _ _ hl => exact iff_of_false nofun fun h => h.2.2.1 hl
  | admitted _ _ _ hg => exact iff_of_false nofun fun h => hg h.2.2.2

theorem reason {e : Failure} (he : a = .error e) :
    e = .unknownStep step ∨ e = .noRevision ∨ (∃ reason, e = .repository reason) ∨
      e = .toolMissing hostTool ∨ e = .nothingToVerify step := by
  cases h with
  | unplaced _ _ hr => cases he; exact .inr (hr.imp_right .inl)
  | _ => cases he <;> simp

end Tested

/-- A verification that gets past the tests fails because of the file system alone. -/
theorem error_of_proceeds {s : Scene σ} (h : w.Proceeds vcs host step s.inner plan r inner)
    {e : Failure} (he : (w.verify vcs host step stamp s).1 = .error e) : ∃ i, e = .io i := by
  cases hc : w.proofs.check step r s.files with
  | mk a t₁ =>
      cases a with
      | error f =>
          rw [verify_of_check_error h hc] at he
          cases he
          exact ProofStore.check_error hc
      | ok previous =>
          cases hs : Chain.settle w.proofs step
              (.ofOutcomes step (w.evaluation vcs host r plan inner t₁).1) r stamp
              (w.evaluation vcs host r plan inner t₁).2.files with
          | mk answer t₃ =>
              rw [verify_of_check h hc hs] at he
              cases answer with
              | ok proof => cases he
              | error f =>
                  cases he
                  exact Chain.settle_error (length_evaluation h.checks t₁) hs

/-- A verification fails for the reason that the tests give, and otherwise because of the file
system alone. -/
theorem verify_error_iff (stamp : Stamp) {s : Scene σ} {e : Failure} (hio : ∀ i, e ≠ .io i) :
    (w.verify vcs host step stamp s).1 = .error e ↔
      w.admission vcs (host.isAvailable s.inner).1 step = .error e := by
  cases ha : w.admission vcs (host.isAvailable s.inner).1 step with
  | error f =>
      obtain ⟨inner, hv⟩ := verify_of_admission_error ha stamp
      rw [hv, Except.error.injEq, Except.error.injEq]
  | ok x =>
      refine iff_of_false (fun he => ?_) nofun
      obtain ⟨i, rfl⟩ := error_of_proceeds (proceeds_of_admission_ok ha) he
      exact hio i rfl

/-! ### What a refusal leaves -/

theorem run_of_no_checks (h : plan.hasOwnChecks = false) (s : Scene σ) :
    w.run vcs host plan r stamp s = (.error (.nothingToVerify plan.name), s) := by
  rw [run, Chain.verifyStep_of_no_checks h]

/-- Without checks to run nothing is evaluated. -/
theorem runLogged_of_no_checks (h : plan.hasOwnChecks = false) (s : Scene (σ × List Predicate)) :
    w.runLogged vcs host plan r stamp s = (.error (.nothingToVerify plan.name), s) := by
  rw [runLogged, Chain.verifyStep_of_no_checks h]

/-- By the time a verification is refused no predicate was evaluated, the host was at most asked
whether it is there, and the files are as they were. -/
theorem refused (stamp : Stamp) (t : FileTree) {x : σ} {e : Failure}
    (h : w.admission vcs (host.isAvailable x).1 step = .error e) :
    ∃ inner calls, (calls = [] ∨ calls = [.isAvailable]) ∧
      w.verify vcs host step stamp ⟨x, t⟩ = (.error e, ⟨inner, t⟩) ∧
      w.verifyLogged vcs host.watched step stamp ⟨((x, []), []), t⟩ =
        (.error e, ⟨((inner, calls), []), t⟩) := by
  unfold admission at h
  unfold verify verifyLogged
  cases hp : w.plan step with
  | error f => rw [hp] at h; cases h; exact ⟨x, [], .inl rfl, rfl, rfl⟩
  | ok plan =>
      cases hh : vcs.head with
      | error f => rw [hp, hh] at h; cases h; exact ⟨x, [], .inl rfl, rfl, rfl⟩
      | ok r =>
          have hb := hostReady_fst host plan x
          rw [hp, hh] at h
          dsimp only at h ⊢
          rw [hostReady_watched]
          generalize hostReady host plan x = ready at hb ⊢
          generalize (plan.needsHosted && !(host.isAvailable x).1) = lacking at h hb
          obtain ⟨b, inner⟩ := ready
          obtain rfl : b = !lacking := hb
          refine ⟨inner, if plan.needsHosted then [.isAvailable] else [], by split <;> simp, ?_⟩
          cases lacking with
          | true => cases h; exact ⟨rfl, rfl⟩
          | false =>
              rw [if_neg Bool.false_ne_true] at h
              split at h
              · rename_i hc
                cases h
                have hc : plan.hasOwnChecks = false := by simpa using hc
                simp only [Bool.not_false]
                rw [run_of_no_checks hc, runLogged_of_no_checks hc, Rulebook.name_of_plan_ok hp]
                exact ⟨rfl, rfl⟩
              · cases h

/-- A verification is refused for one of four reasons, and each of them has one condition, given
that those before it do not hold: the rulebook has no such step; HEAD stands for no commit; a check
of the plan asks a host that is not there; the plan has no check besides its gate.  By then no
predicate was evaluated, the host was at most asked whether it is there, and every file is as it
was. -/
theorem refused_iff (w : Workspace) (graph : CommitGraph) (host : Host σ) (step : String)
    (stamp : Stamp) (x : σ) (t : FileTree) :
    let vcs := Vcs.ofTree t graph w.root
    let answer := (w.verify vcs host step stamp ⟨x, t⟩).1
    let known := step ∈ w.rulebook.names
    let placed := ∃ c, Vcs.PlacedAt t graph w.root c
    let lacking := w.AsksHost step ∧ (host.isAvailable x).1 = false
    (answer = .error (.unknownStep step) ↔ ¬ known) ∧
    (answer = .error .noRevision ∨ (∃ reason, answer = .error (.repository reason)) ↔
      known ∧ ¬ placed) ∧
    (answer = .error (.toolMissing hostTool) ↔ known ∧ placed ∧ lacking) ∧
    (answer = .error (.nothingToVerify step) ↔ known ∧ placed ∧ ¬ lacking ∧ w.OnlyGated step) ∧
    ∀ e, answer = .error e → (∀ i, e ≠ .io i) →
      (e = .unknownStep step ∨ e = .noRevision ∨ (∃ reason, e = .repository reason) ∨
        e = .toolMissing hostTool ∨ e = .nothingToVerify step) ∧
      ∃ inner calls, (calls = [] ∨ calls = [.isAvailable]) ∧
        w.verify vcs host step stamp ⟨x, t⟩ = (.error e, ⟨inner, t⟩) ∧
        w.verifyLogged vcs host.watched step stamp ⟨((x, []), []), t⟩ =
          (.error e, ⟨((inner, calls), []), t⟩) := by
  intro vcs answer known placed lacking
  have iff_tested : ∀ e, (∀ i, e ≠ .io i) → (answer = .error e ↔
      w.admission vcs (host.isAvailable x).1 step = .error e) :=
    fun e he => verify_error_iff stamp he
  have repository_iff : (∃ reason, answer = .error (.repository reason)) ↔
      ∃ reason, w.admission vcs (host.isAvailable x).1 step = .error (.repository reason) :=
    exists_congr fun reason => iff_tested (.repository reason) nofun
  have ht := w.tested t graph (host.isAvailable x).1 step
  refine ⟨(iff_tested (.unknownStep step) nofun).trans ht.unknown_iff,
    (or_congr (iff_tested .noRevision nofun) repository_iff).trans ht.unplaced_iff,
    (iff_tested (.toolMissing hostTool) nofun).trans ht.lacking_iff,
    (iff_tested (.nothingToVerify step) nofun).trans ht.bare_iff, fun e he hio => ?_⟩
  rw [iff_tested e hio] at he
  exact ⟨ht.reason he, refused stamp t he⟩

/-- Without a repository the second step is refused, and nothing has happened. -/
theorem refused_iff_small :
    ∃ e inner calls, (e = .noRevision ∨ ∃ reason, e = .repository reason) ∧
      Small.workspace.verifyLogged (.ofTree Small.start .empty "/") Small.host.watched "b"
          Small.stamp ⟨(((), []), []), Small.start⟩ =
        (.error e, ⟨((inner, calls), []), Small.start⟩) := by
  obtain ⟨-, hu, -, -, hr⟩ :=
    refused_iff Small.workspace .empty Small.host "b" Small.stamp () Small.start
  have hc : ¬ ∃ c, Vcs.PlacedAt Small.start .empty Small.workspace.root c := by
    have ho : (Repository.open? Small.start .empty Small.workspace.root).isNone = true := by
      decide +kernel
    rintro ⟨c, r, h, -⟩
    rw [h] at ho
    cases ho
  rcases hu.mpr ⟨by decide, hc⟩ with h | ⟨reason, h⟩
  · obtain ⟨-, inner, calls, -, -, hl⟩ := hr _ h nofun
    exact ⟨_, inner, calls, .inl rfl, hl⟩
  · obtain ⟨-, inner, calls, -, -, hl⟩ := hr _ h nofun
    exact ⟨_, inner, calls, .inr ⟨reason, rfl⟩, hl⟩

end Workspace

end Readiness

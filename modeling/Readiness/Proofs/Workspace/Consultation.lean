import Mathlib.Tactic.ByContra
import Readiness.Proofs.Host.Log
import Readiness.Proofs.Workspace.Evaluation

/-!
# Workspace — when the host is consulted

* `verify_unasked`: where every hosted check is blocked, or there is none, a verification comes to
  the same with every host that is ready, and all it does to it is to ask whether it is.
* `ShutOut`: the results of a step that stops at its gate.
* `host_consulted`: what is asked of the host, and what comes of it, without hosted checks and
  behind a gate that stays shut.
-/

namespace Readiness.Workspace

-- what the parts of a run come to is said by lemmas
attribute [local irreducible] evaluation Chain.settle Chain.verifyStep ProofStore.check

variable {w : Workspace} {vcs : Vcs} {step : String} {plan : StepPlan} {r : Revision}
  {gates own : List Check} {gate : Outcome} {answer : Predicate → Outcome} {t : FileTree}

/-! ### The outcomes -/

theorem mem_outcomes {o : CheckOutcome} (h : o ∈ outcomes plan gates own gate answer) :
    o.check ∈ gates ∧ o.outcome = gate ∨
      o.check ∈ own ∧ o.outcome =
        if Chain.isBlocked plan (!gate.isPass) o.check.predicate then .fail blockedByPrerequisite
        else answer o.check.predicate := by
  rcases List.mem_append.mp h with h | h
  · obtain ⟨c, hc, rfl⟩ := List.mem_map.mp h
    exact .inl ⟨hc, rfl⟩
  · obtain ⟨c, hc, rfl⟩ := List.mem_map.mp h
    exact .inr ⟨hc, rfl⟩

theorem map_check_outcomes :
    (outcomes plan gates own gate answer).map (·.check) = gates ++ own := by
  rw [outcomes, List.map_append, List.map_map, List.map_map]
  exact congrArg₂ (· ++ ·) (List.map_id' gates) (List.map_id' own)

/-! ### Runs that do not ask -/

/-- No check gets to ask the host: those that are hosted are blocked. -/
def Unasked (plan : StepPlan) (gate : Outcome) : Prop :=
  ∀ c ∈ plan.checks, Chain.isBlocked plan (!gate.isPass) c.predicate = false →
    c.predicate.isHosted = false

theorem unasked_of_not_needsHosted (h : plan.needsHosted = false) (gate : Outcome) :
    Unasked plan gate := by
  intro c hc _
  have := List.any_eq_false.mp h c hc
  simpa using this

theorem unasked_of_shortCircuit (h : plan.shortCircuit = true) (hg : gate.isPass = false) :
    Unasked plan gate := by
  intro c _ hb
  simpa [Chain.isBlocked, h, hg] using hb

/-- Where no check gets to ask the host, the hosted ones are blocked and the others are evaluated,
the gate on the files before it and the rest on those after it. -/
theorem outcome_of_unasked {p : Probe Unit} {q : Option String}
    (hparted : Rulebook.Parted q plan gates own) (hu : Unasked plan (p.gateAnswer q t).1)
    {o : CheckOutcome}
    (h : o ∈ outcomes plan gates own (p.gateAnswer q t).1 fun q' =>
      (p.evaluate q' ⟨⟨(), none⟩, (p.gateAnswer q t).2⟩).1) :
    (o.check.predicate.isHosted = true → o.outcome = .fail blockedByPrerequisite) ∧
    (o.check.predicate.isHosted = false → o.outcome = (p.evaluate o.check.predicate
      ⟨⟨(), none⟩, if o.check.predicate.isGate then t else (p.gateAnswer q t).2⟩).1) := by
  rcases mem_outcomes h with ⟨hc, ho⟩ | ⟨hc, ho⟩
  · obtain ⟨a, rfl, hp⟩ := hparted.gate hc
    rw [hp, ho]
    exact ⟨fun hh => absurd hh (by simp [Predicate.isHosted, Predicate.kind]), fun _ => rfl⟩
  · have hm : o.check ∈ plan.checks := hparted.checks ▸ List.mem_append_right gates hc
    rw [hparted.notGate _ hc, ho]
    refine ⟨fun hh => if_pos ?_, fun hh => if_neg ?_⟩
    · by_contra hb
      rw [hu _ hm (Bool.eq_false_iff.mpr hb)] at hh
      cases hh
    · simp [Chain.isBlocked, hh]

/-- Where no check gets to ask the host, a verification comes to the same with every host that is
ready, and leaves it as it was found. -/
theorem verify_unasked (hv : w.rulebook.validate = .ok ()) (hp : w.plan step = .ok plan)
    (hh : vcs.head = .ok r) (stamp : Stamp) (t : FileTree)
    (hu : Unasked plan (w.gated vcs r step (w.proofs.check step r t).2).1) :
    ∃ answer t', (∀ {σ : Type} (host : Host σ) (x inner : σ),
        hostReady host plan x = (true, inner) →
          w.verify vcs host step stamp ⟨x, t⟩ = (answer, ⟨inner, t'⟩)) ∧
      (plan.hasOwnChecks = false ∧ answer = .error (.nothingToVerify step) ∨
        plan.hasOwnChecks = true ∧
          ((∃ i, (w.proofs.check step r t).1 = .error (.io i) ∧ answer = .error (.io i)) ∨
            ∃ previous gates own, (w.proofs.check step r t).1 = .ok previous ∧
              Rulebook.Parted (w.rulebook.prerequisite? step) plan gates own ∧
              let g := w.gated vcs r step (w.proofs.check step r t).2
              let os := outcomes plan gates own g.1 fun q =>
                ((w.probe vcs Probe.muteHost r).evaluate q ⟨⟨(), none⟩, g.2⟩).1
              answer = (Chain.settle w.proofs step (.ofOutcomes step os) r stamp g.2).1.map
                fun proof => (plan, ⟨.ofOutcomes step os, proof, previous⟩))) := by
  cases hown : plan.hasOwnChecks with
  | false =>
      refine ⟨.error (.nothingToVerify step), t, fun host x inner hr => ?_, .inl ⟨rfl, rfl⟩⟩
      unfold verify
      rw [hp, hh]
      dsimp only
      rw [hr]
      dsimp only
      rw [run, Chain.verifyStep_of_no_checks hown, Rulebook.name_of_plan_ok hp]
      rfl
  | true =>
      have proceeds : ∀ {σ : Type} (host : Host σ) (x inner : σ),
          hostReady host plan x = (true, inner) → w.Proceeds vcs host step x plan r inner :=
        fun host x inner hr => ⟨hp, hh, hr, hown⟩
      cases hc : w.proofs.check step r t with
      | mk a t₁ =>
          rw [hc] at hu
          cases a with
          | error e =>
              obtain ⟨i, rfl⟩ := ProofStore.check_error hc
              exact ⟨_, _, fun host x inner hr =>
                verify_of_check_error (proceeds host x inner hr) hc,
                .inr ⟨rfl, .inl ⟨i, rfl, rfl⟩⟩⟩
          | ok previous =>
              obtain ⟨gates, own, hparted, -⟩ := Rulebook.parted_of_plan_ok hv hp
              -- every host leads to one evaluation, and that one is settled
              have he : ∀ {σ : Type} (host : Host σ) (inner : σ),
                  w.evaluation vcs host r plan inner t₁ = _ := fun host inner =>
                evaluation_unasked hparted fun c hc =>
                  hu c (by rw [hparted.checks]; exact List.mem_append_right _ hc)
              generalize ho : outcomes plan gates own _ _ = os at he
              cases hs : Chain.settle w.proofs step (.ofOutcomes step os) r stamp
                  (w.gated vcs r step t₁).2 with
              | mk settled t' =>
                  refine ⟨_, t', fun host x inner hr => ?_,
                    .inr ⟨rfl, .inr ⟨previous, gates, own, rfl, hparted, rfl⟩⟩⟩
                  dsimp only
                  rw [ho, hs]
                  have hs : Chain.settle w.proofs step (.ofOutcomes step
                      (w.evaluation vcs host r plan inner t₁).1) r stamp
                      (w.evaluation vcs host r plan inner t₁).2.files = (settled, t') := by
                    rw [he]; exact hs
                  rw [verify_of_check (proceeds host x inner hr) hc hs, he]

/-! ### Behind a gate that stays shut -/

theorem exists_gate (h : Rulebook.Parted (w.rulebook.prerequisite? step) plan gates own)
    (hg : (w.gated vcs r step t).1.isPass = false) : ∃ c, c ∈ gates := by
  cases hq : w.rulebook.prerequisite? step with
  | none =>
      rw [gated, hq] at hg
      cases hg
  | some a =>
      have hm := h.gates
      rw [hq] at hm
      obtain ⟨c, rfl, -⟩ := List.map_eq_singleton_iff.mp hm
      exact ⟨c, List.mem_cons_self⟩

/-- Where the gate stays shut the proof is to be deleted. -/
theorem settle_of_shut (h : Rulebook.Parted (w.rulebook.prerequisite? step) plan gates own)
    (hg : (w.gated vcs r step t).1.isPass = false) (stamp : Stamp) (t' : FileTree)
    (answer : Predicate → Outcome) : (Chain.settle w.proofs step
        (.ofOutcomes step (outcomes plan gates own (w.gated vcs r step t).1 answer)) r stamp t').1 =
      (w.proofs.remove step t').1.map fun _ => none := by
  rw [Chain.settle_eq, if_neg]
  intro ha
  obtain ⟨c, hc⟩ := exists_gate h hg
  have hpass := ha _ (List.mem_append_left _ (List.mem_map_of_mem hc))
  rw [hg] at hpass
  cases hpass

/-- The results of a step that stops at its gate, when the checks find the files that looking at the
former proof left: the hosted checks are blocked, and every other one comes to what it would come to
with any host, the gate on the files before it and the rest on those after it. -/
structure ShutOut (w : Workspace) (vcs : Vcs) (r : Revision) (step : String) (plan : StepPlan)
    (seen : FileTree) (results : List CheckOutcome) : Prop where
  checks : results.map (·.check) = plan.checks
  blocked : ∀ o ∈ results, o.check.predicate.isHosted = true →
    o.outcome = .fail blockedByPrerequisite
  evaluated : ∀ o ∈ results, o.check.predicate.isHosted = false →
    ∀ {σ : Type} (host : Host σ) (m : Probe.Memory σ),
      o.outcome = ((w.probe vcs host r).evaluate o.check.predicate
        ⟨m, if o.check.predicate.isGate then seen else (w.gated vcs r step seen).2⟩).1

theorem shutOut_outcomes (h : Rulebook.Parted (w.rulebook.prerequisite? step) plan gates own)
    (hsc : plan.shortCircuit = true) (hg : (w.gated vcs r step t).1.isPass = false) :
    ShutOut w vcs r step plan t (outcomes plan gates own (w.gated vcs r step t).1 fun q =>
      ((w.probe vcs Probe.muteHost r).evaluate q ⟨⟨(), none⟩, (w.gated vcs r step t).2⟩).1) := by
  have hu := unasked_of_shortCircuit hsc hg
  refine ⟨by rw [map_check_outcomes, h.checks], fun o ho => (outcome_of_unasked h hu ho).1,
    fun o ho hh σ host m => ((outcome_of_unasked h hu ho).2 hh).trans ?_⟩
  rw [Probe.evaluate_unhosted _ hh, Probe.evaluate_unhosted _ hh]
  rfl

/-! ### Consultation -/

theorem hostReady_of_not_needsHosted {σ : Type} (h : plan.needsHosted = false) (host : Host σ)
    (x : σ) : hostReady host plan x = (true, x) := by
  rw [hostReady, h]
  rfl

/-- All that is asked before a run is whether the host is there. -/
theorem hostReady_watched {σ : Type} (host : Host σ) (plan : StepPlan) (x : σ) :
    hostReady host.watched plan (x, []) =
      ((hostReady host plan x).1, (hostReady host plan x).2,
        if plan.needsHosted then [.isAvailable] else []) := by
  rw [hostReady, hostReady]
  cases plan.needsHosted <;> rfl

theorem verify_not_ready {σ : Type} {host : Host σ} {stamp : Stamp} {x inner : σ}
    (hp : w.plan step = .ok plan) (hh : vcs.head = .ok r)
    (hr : hostReady host plan x = (false, inner)) :
    w.verify vcs host step stamp ⟨x, t⟩ = (.error (.toolMissing hostTool), ⟨inner, t⟩) := by
  unfold verify
  rw [hp, hh]
  dsimp only
  rw [hr]

/-- The host is consulted only where it may matter.  Without hosted checks it is not called at all,
so a verification comes to the same, and leaves the same files, with any two hosts.  Where the gate
of a step that stops there does not pass, the host is at most asked whether it is there, and the
result is the same with any two hosts that are there.  Unless the file system keeps the run from
looking at the former proof, every hosted check is blocked and every other one is evaluated; and
unless it keeps the run from deleting that proof, these results are reported. -/
theorem host_consulted (w : Workspace) (hv : w.rulebook.validate = .ok ()) (vcs : Vcs)
    {step : String} {plan : StepPlan} (hp : w.plan step = .ok plan) (stamp : Stamp)
    (t : FileTree) :
    (plan.needsHosted = false → ∃ answer t', ∀ {σ : Type} (host : Host σ) (x : σ),
      w.verify vcs host.watched step stamp ⟨(x, []), t⟩ = (answer, ⟨(x, []), t'⟩) ∧
        w.verify vcs host step stamp ⟨x, t⟩ = (answer, ⟨x, t'⟩)) ∧
    ∀ r, vcs.head = .ok r → plan.shortCircuit = true →
      let former := w.proofs.check step r t
      let gate := w.gated vcs r step former.2
      gate.1.isPass = false →
        (∀ {σ : Type} (host : Host σ) (x : σ),
          ∀ call ∈ (w.verify vcs host.watched step stamp ⟨(x, []), t⟩).2.inner.2,
            call = .isAvailable) ∧
        ∃ answer t',
          (∀ {σ : Type} (host : Host σ) (x : σ), (host.isAvailable x).1 = true →
            (w.verify vcs host step stamp ⟨x, t⟩).1 = answer ∧
              (w.verify vcs host step stamp ⟨x, t⟩).2.files = t') ∧
          (plan.hasOwnChecks = false ∧ answer = .error (.nothingToVerify step) ∨
            plan.hasOwnChecks = true ∧
              ((∃ i, former.1 = .error (.io i) ∧ answer = .error (.io i)) ∨
                ∃ previous results, former.1 = .ok previous ∧
                  ShutOut w vcs r step plan former.2 results ∧
                  ((∃ i, (w.proofs.remove step gate.2).1 = .error (.io i) ∧
                      answer = .error (.io i)) ∨
                    ∃ removed run, (w.proofs.remove step gate.2).1 = .ok removed ∧
                      answer = .ok (plan, run) ∧ run.result.results = results))) := by
  refine ⟨fun hn => ?_, fun r hh hsc => ?_⟩
  · have ready := fun {σ : Type} (host : Host σ) (x : σ) => hostReady_of_not_needsHosted hn host x
    cases hh : vcs.head with
    | error e =>
        have refused : ∀ {σ : Type} (host : Host σ) (x : σ),
            w.verify vcs host step stamp ⟨x, t⟩ = (.error e, ⟨x, t⟩) := by
          intro σ host x
          unfold verify
          rw [hp, hh]
        exact ⟨.error e, t, fun host x => ⟨refused _ _, refused _ _⟩⟩
    | ok r =>
        obtain ⟨answer, t', he, -⟩ :=
          verify_unasked hv hp hh stamp t (unasked_of_not_needsHosted hn _)
        exact ⟨answer, t', fun host x => ⟨he _ _ _ (ready _ _), he _ _ _ (ready _ _)⟩⟩
  · intro former gate hg
    obtain ⟨answer, t', he, ha⟩ :=
      verify_unasked hv hp hh stamp t (unasked_of_shortCircuit hsc hg)
    refine ⟨fun host x call hcall => ?_, answer, t', fun host x hx => ?_, ?_⟩
    · have hr := hostReady_watched host plan x
      have hmem : call ∈ if plan.needsHosted then [HostCall.isAvailable] else [] := by
        cases hb : (hostReady host plan x).1 with
        | true => rw [hb] at hr; rwa [he _ _ _ hr] at hcall
        | false => rw [hb] at hr; rwa [verify_not_ready hp hh hr] at hcall
      split at hmem
      · exact List.mem_singleton.mp hmem
      · cases hmem
    · have ready : hostReady host plan x = (true, (hostReady host plan x).2) := by
        rw [hostReady]
        split
        · rw [← hx]
        · rfl
      rw [he host x _ ready]
      exact ⟨rfl, rfl⟩
    · refine ha.imp_right (And.imp_right (Or.imp_right ?_))
      rintro ⟨previous, gates, own, hc, hparted, hanswer⟩
      refine ⟨previous, _, hc, shutOut_outcomes hparted hsc hg, ?_⟩
      have hs := settle_of_shut hparted hg stamp gate.2
        fun q => ((w.probe vcs Probe.muteHost r).evaluate q ⟨⟨(), none⟩, gate.2⟩).1
      rw [hanswer, hs]
      cases hr : (w.proofs.remove step gate.2).1 with
      | error e =>
          obtain ⟨i, rfl⟩ := ProofStore.remove_error (Prod.ext hr rfl)
          exact .inl ⟨i, rfl, rfl⟩
      | ok removed =>
          exact .inr ⟨removed, _, rfl, rfl, StepResult.results_ofOutcomes _ _⟩

/-- What the checks of a step came to. -/
def reported (answer : Except Failure (StepPlan × StepRun)) : Option (List (Predicate × Outcome)) :=
  answer.toOption.map fun (_, run) =>
    run.result.results.map fun o => (o.check.predicate, o.outcome)

/-- The step without hosted checks, and the step behind a gate that does not pass: the hosted check
there is blocked, and the other one is evaluated. -/
theorem host_consulted_small :
    Small.workspace.rulebook.validate = .ok () ∧
      (∃ answer t', ∀ {σ : Type} (host : Host σ) (x : σ),
        Small.workspace.verify Small.vcs host.watched "a" Small.stamp ⟨(x, []), Small.start⟩ =
            (answer, ⟨(x, []), t'⟩) ∧
          Small.workspace.verify Small.vcs host "a" Small.stamp ⟨x, Small.start⟩ =
            (answer, ⟨x, t'⟩)) ∧
      (∀ {σ : Type} (host : Host σ) (x : σ), ∀ call ∈ (Small.workspace.verify Small.vcs
          host.watched "b" Small.stamp ⟨(x, []), Small.start⟩).2.inner.2, call = .isAvailable) ∧
      ∀ {σ : Type} (host : Host σ) (x : σ), (host.isAvailable x).1 = true →
        reported (Small.workspace.verify Small.vcs host "b" Small.stamp ⟨x, Small.start⟩).1 =
          some [(.proofExists "a",
              .fail "step 'a' has not been verified; run `shipcheck verify a`"),
            (.gitRemote "origin", .pass), (.ciGreen none, .fail blockedByPrerequisite)] := by
  refine ⟨Small.validate_rulebook, ?_, ?_⟩
  · exact (host_consulted Small.workspace Small.validate_rulebook Small.vcs (by rfl) Small.stamp
      Small.start).1 (by rfl)
  · have hg : (Small.workspace.gated Small.vcs Small.revision "b"
        (Small.workspace.proofs.check "b" Small.revision Small.start).2).1.isPass = false := by
      decide +kernel
    obtain ⟨hcalls, answer, t', hsame, -⟩ := (host_consulted Small.workspace
      Small.validate_rulebook Small.vcs (by rfl) Small.stamp Small.start).2 Small.revision rfl
      (by rfl) hg
    refine ⟨hcalls, fun host x hx => ?_⟩
    rw [(hsame host x hx).1, ← (hsame Small.host () rfl).1]
    decide +kernel

/-! ### Why the file system matters -/

/-- A directory where the proof of the step behind the gate should be. -/
def Small.barred : FileTree := ⟨[(["p"], .directory), (["p", "verify-b.proof"], .directory)]⟩

/-- It is not said without more that hosted checks are reported as blocked: a run that cannot look
at the former proof reports nothing. -/
theorem not_reported_blocked : ¬ ∀ (w : Workspace) (vcs : Vcs) (host : Host Unit) (step : String)
    (plan : StepPlan) (r : Revision) (stamp : Stamp) (t : FileTree),
    w.rulebook.validate = .ok () → w.plan step = .ok plan → vcs.head = .ok r →
      (host.isAvailable ()).1 = true → plan.hasOwnChecks = true → plan.shortCircuit = true →
      (w.gated vcs r step (w.proofs.check step r t).2).1.isPass = false →
      ∃ run, (w.verify vcs host step stamp ⟨(), t⟩).1 = .ok (plan, run) ∧
        ∀ o ∈ run.result.results, o.check.predicate.isHosted = true →
          o.outcome = .fail blockedByPrerequisite := by
  intro h
  have hg : (Small.workspace.gated Small.vcs Small.revision "b"
      (Small.workspace.proofs.check "b" Small.revision Small.barred).2).1.isPass = false := by
    decide +kernel
  have hnone : reported (Small.workspace.verify Small.vcs Small.host "b" Small.stamp
      ⟨(), Small.barred⟩).1 = none := by
    decide +kernel
  obtain ⟨run, hrun, -⟩ := h Small.workspace Small.vcs Small.host "b" _ Small.revision Small.stamp
    Small.barred Small.validate_rulebook rfl rfl rfl rfl rfl hg
  rw [hrun] at hnone
  cases hnone

end Readiness.Workspace

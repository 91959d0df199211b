import Readiness.Proofs.CommandLine.Verify
import Readiness.Proofs.Proof.Writing
import Readiness.Proofs.Rulebook.Reordering
import Readiness.Proofs.Workspace.Evaluation

/-!
# Workspace — the order of checks does not matter

Two verifications of a step from the same files, under rulebooks that differ in the order of checks.

* `CheckOutcome.told`: what is told of a check apart from its number, which is its position.
* `settle_told`: what is settled depends on what is told, in whatever order.
* `verify_reordered`: the two come to the same.
-/

namespace Readiness

/-- What is told of an evaluated check, apart from its number. -/
def CheckOutcome.told (o : CheckOutcome) : String × Predicate × Outcome :=
  (o.check.description, o.check.predicate, o.outcome)

namespace Chain

variable {cs cs' : List CheckOutcome}
  (h : (cs.map CheckOutcome.told).Perm (cs'.map CheckOutcome.told))

include h

theorem length_told : cs.length = cs'.length := by
  have hl := h.length_eq
  rwa [List.length_map, List.length_map] at hl

theorem isPass_told :
    (∀ c ∈ cs, c.outcome.isPass = true) ↔ ∀ c ∈ cs', c.outcome.isPass = true := by
  have ht : ∀ cs : List CheckOutcome,
      (∀ c ∈ cs, c.outcome.isPass = true) ↔ ∀ x ∈ cs.map CheckOutcome.told, x.2.2.isPass = true :=
    fun cs => by rw [List.forall_mem_map]; rfl
  rw [ht, ht]
  exact forall_congr' fun x => by rw [h.mem_iff]

theorem count_told (step : String) (v : Verdict) :
    (StepResult.ofOutcomes step cs).count v = (StepResult.ofOutcomes step cs').count v := by
  have ht : ∀ cs : List CheckOutcome, cs.map (·.outcome.verdict) =
      (cs.map CheckOutcome.told).map (·.2.2.verdict) := fun cs => by rw [List.map_map]; rfl
  rw [StepResult.count_ofOutcomes, StepResult.count_ofOutcomes, ht, ht]
  exact (h.map _).count_eq v

theorem allPassed_told (step : String) :
    (StepResult.ofOutcomes step cs).allPassed = (StepResult.ofOutcomes step cs').allPassed :=
  StepResult.allPassed_congr (count_told h step)

/-- What is settled depends on what is told, in whatever order: the same trouble and the same files,
or alike a proof or none, and the same files but for what the proof says. -/
theorem settle_told (store : ProofStore) {step : String} (hs : Rulebook.isName step = true)
    (hne : cs.length ≠ 0) (r : Revision) (stamp stamp' : Stamp) (t : FileTree) :
    (∃ e t', settle store step (.ofOutcomes step cs) r stamp t = (.error e, t') ∧
        settle store step (.ofOutcomes step cs') r stamp' t = (.error e, t')) ∨
      ∃ p t₁ p' t₂, settle store step (.ofOutcomes step cs) r stamp t = (.ok p, t₁) ∧
        settle store step (.ofOutcomes step cs') r stamp' t = (.ok p', t₂) ∧
        p.isSome = p'.isSome ∧ store.list t₁ = store.list t₂ ∧
        ∀ l, l ≠ store.place step → t₁.get? l = t₂.get? l := by
  rw [settle_eq, settle_eq, ← length_told h]
  by_cases ha : ∀ c ∈ cs, c.outcome.isPass = true
  · rw [if_pos ha, if_pos ((isPass_told h).mp ha)]
    rcases ProofStore.write_uniform (s := store) (t := t) hs hne r with
      ⟨i, hw⟩ | ⟨t₁, -, ho, hd, hw⟩
    · rw [hw, hw]
      exact .inl ⟨.io i, _, rfl, rfl⟩
    · rw [hw, hw]
      refine .inr ⟨_, _, _, _, rfl, rfl, rfl, ProofStore.list_put ho hd _ _, fun l hl => ?_⟩
      rw [FileTree.get?_put, FileTree.get?_put, if_neg fun h => hl h.1, if_neg fun h => hl h.1]
  · rw [if_neg ha, if_neg fun ha' => ha ((isPass_told h).mpr ha')]
    cases store.remove step t with
    | mk a t' =>
        cases a with
        | error e => exact .inl ⟨e, t', rfl, rfl⟩
        | ok b => exact .inr ⟨none, t', none, t', rfl, rfl, rfl, rfl, fun _ _ => rfl⟩

end Chain

namespace Workspace

open CommandLine (verifyCode)

variable {σ : Type} {w : Workspace} {r' : Rulebook} {plan plan' : StepPlan}
  {gates own gates' own' : List Check} {gate : Outcome} {answer : Predicate → Outcome}

theorem map_told_outcomes : (outcomes plan gates own gate answer).map CheckOutcome.told =
    (gates.map Check.subject).map (fun x => (x.1, x.2, gate)) ++
      (own.map Check.subject).map fun x => (x.1, x.2,
        if Chain.isBlocked plan (!gate.isPass) x.2 then .fail blockedByPrerequisite
        else answer x.2) := by
  rw [outcomes, List.map_append, List.map_map, List.map_map, List.map_map, List.map_map]
  rfl

theorem told_outcomes (hsc : plan'.shortCircuit = plan.shortCircuit)
    (hg : gates.map Check.subject = gates'.map Check.subject)
    (ho : (own.map Check.subject).Perm (own'.map Check.subject)) :
    ((outcomes plan gates own gate answer).map CheckOutcome.told).Perm
      ((outcomes plan' gates' own' gate answer).map CheckOutcome.told) := by
  have hb : Chain.isBlocked plan' = Chain.isBlocked plan := by
    funext failed p
    rw [Chain.isBlocked, Chain.isBlocked, hsc]
  rw [map_told_outcomes, map_told_outcomes, hg, hb]
  exact (ho.map _).append_left _

/-- The tests before a run find the same. -/
theorem admission_reordered (hv : w.rulebook.validate = .ok ()) (hr : w.rulebook.Reordered r')
    (vcs : Vcs) (available : Bool) (step : String) :
    (∃ e, w.admission vcs available step = .error e ∧
        { w with rulebook := r' }.admission vcs available step = .error e) ∨
      ∃ plan plan' r, w.admission vcs available step = .ok (plan, r) ∧
        { w with rulebook := r' }.admission vcs available step = .ok (plan', r) := by
  by_cases hm : step ∈ w.rulebook.names
  · obtain ⟨plan, hp⟩ := Rulebook.plan_of_mem hm w.stack
    obtain ⟨plan', hp'⟩ := Rulebook.plan_of_mem (hr.names ▸ hm) w.stack
    have hn : plan'.needsHosted = plan.needsHosted := hr.any_checks hv hp hp' Predicate.isHosted
    have ho : plan'.hasOwnChecks = plan.hasOwnChecks :=
      hr.any_checks hv hp hp' fun p => !p.isGate
    rw [admission, admission, Workspace.plan, Workspace.plan, hp, hp']
    dsimp only
    rw [hn, ho]
    cases vcs.head with
    | error e => exact .inl ⟨e, rfl, rfl⟩
    | ok r =>
        dsimp only
        split
        · exact .inl ⟨_, rfl, rfl⟩
        · split
          · exact .inl ⟨_, rfl, rfl⟩
          · exact .inr ⟨_, _, _, rfl, rfl⟩
  · have hm' : step ∉ r'.names := fun h => hm (hr.names ▸ h)
    refine .inl ⟨.unknownStep step, ?_, ?_⟩
    · rw [admission, Workspace.plan, Rulebook.plan_of_not_mem hm]
    · rw [admission, Workspace.plan, Rulebook.plan_of_not_mem hm']

theorem probe_reordered (hr : w.rulebook.Reordered r') (vcs : Vcs) (host : Host σ)
    (r : Revision) : { w with rulebook := r' }.probe vcs host r = w.probe vcs host r := by
  rw [probe, probe, hr.settings]

/-- With a steady host the same is told of the checks, in whatever order. -/
theorem told_evaluation (hv : w.rulebook.validate = .ok ()) (hr : w.rulebook.Reordered r')
    {vcs : Vcs} {host : Host σ} (hs : host.Steady) {step : String} (hp : w.plan step = .ok plan)
    (hp' : { w with rulebook := r' }.plan step = .ok plan') (r : Revision) (inner inner' : σ)
    (t : FileTree) :
    let one := w.evaluation vcs host r plan inner t
    let other := { w with rulebook := r' }.evaluation vcs host r plan' inner' t
    (one.1.map CheckOutcome.told).Perm (other.1.map CheckOutcome.told) ∧
      one.2.files = other.2.files := by
  obtain ⟨hsc, gates, own, gates', own', hparted, hparted', ho⟩ := hr.plan hv hp hp'
  have hgated : { w with rulebook := r' }.gated vcs r step t = w.gated vcs r step t := by
    rw [gated, gated, probe_reordered hr, hr.prerequisite?]
  have hgates : gates.map Check.subject = gates'.map Check.subject := by
    rw [hparted.gates, hparted'.gates, hr.prerequisite?]
  have hsteady : (w.probe vcs host r).host.Steady := hs
  have hanswer := fun q => Probe.evaluate_steady hsteady q inner inner' none
  obtain ⟨h₁, hf⟩ := evaluation_steady vcs hs hparted r inner t
  obtain ⟨h₁', hf'⟩ := evaluation_steady (w := { w with rulebook := r' }) vcs hs hparted' r inner' t
  rw [hgated, probe_reordered hr] at h₁'
  rw [hgated] at hf'
  dsimp only
  rw [h₁, h₁', hf, hf']
  simp only [hanswer]
  exact ⟨told_outcomes hsc hgates ho, trivial⟩

/-- The order of a step's checks does not matter.  Verified from the same files under two rulebooks
that differ in the order of checks within steps, with a host whose answers depend on the query
alone, a step comes to the same: the same trouble, or the same told of its checks, the same counts
and the same decision to write a proof; and the files left differ in what the step's proof says at
most. -/
theorem verify_reordered (w : Workspace) (hv : w.rulebook.validate = .ok ()) {r' : Rulebook}
    (hr : w.rulebook.Reordered r') (vcs : Vcs) {host : Host σ} (hs : host.Steady) (step : String)
    (stamp stamp' : Stamp) (s : Scene σ) :
    let one := w.verify vcs host step stamp s
    let other := { w with rulebook := r' }.verify vcs host step stamp' s
    r'.validate = .ok () ∧ verifyCode one.1 = verifyCode other.1 ∧
      w.proofs.list one.2.files = w.proofs.list other.2.files ∧
      (∀ l, l ≠ w.proofs.place step → one.2.files.get? l = other.2.files.get? l) ∧
      ((∃ e, one.1 = .error e ∧ other.1 = .error e ∧ one.2.files = other.2.files) ∨
        ∃ plan run plan' run', one.1 = .ok (plan, run) ∧ other.1 = .ok (plan', run') ∧
          (run.result.results.map CheckOutcome.told).Perm
            (run'.result.results.map CheckOutcome.told) ∧
          run.result.passed = run'.result.passed ∧ run.result.failed = run'.result.failed ∧
          run.result.pending = run'.result.pending ∧
          run.proof.isSome = run'.proof.isSome ∧ run.previous = run'.previous) := by
  refine ⟨hr.validate.trans hv, ?_⟩
  rcases admission_reordered hv hr vcs (host.isAvailable s.inner).1 step with
    ⟨e, he, he'⟩ | ⟨plan, plan', r, ha, ha'⟩
  · obtain ⟨inner, h₁⟩ := verify_of_admission_error he stamp
    obtain ⟨inner', h₂⟩ := verify_of_admission_error he' stamp'
    rw [h₁, h₂]
    exact ⟨rfl, rfl, fun _ _ => rfl, .inl ⟨e, rfl, rfl, rfl⟩⟩
  · have hp := proceeds_of_admission_ok ha
    have hp' := proceeds_of_admission_ok ha'
    cases hc : w.proofs.check step r s.files with
    | mk a t =>
        cases a with
        | error e =>
            rw [verify_of_check_error hp hc, verify_of_check_error hp' hc]
            exact ⟨rfl, rfl, fun _ _ => rfl, .inl ⟨e, rfl, rfl, rfl⟩⟩
        | ok previous =>
            obtain ⟨htold, hf⟩ := told_evaluation hv hr hs hp.planned hp'.planned r
              (hostReady host plan s.inner).2 (hostReady host plan' s.inner).2 t
            have hcount := Chain.count_told htold step
            rcases Chain.settle_told htold w.proofs (isName_of_proceeds hv hp)
              (length_evaluation hp.checks t) r stamp stamp' _ with
              ⟨e, t', h₁, h₂⟩ | ⟨p, t₁, p', t₂, h₁, h₂, hproof, hlist, hget⟩
            · rw [verify_of_check hp hc h₁, verify_of_check hp' hc (hf ▸ h₂)]
              exact ⟨rfl, rfl, fun _ _ => rfl, .inl ⟨e, rfl, rfl, rfl⟩⟩
            · rw [verify_of_check hp hc h₁, verify_of_check hp' hc (hf ▸ h₂)]
              refine ⟨?_, hlist, hget, .inr ⟨_, _, _, _, rfl, rfl, ?_, hcount .pass, hcount .fail,
                hcount .pending, hproof, rfl⟩⟩
              · exact congrArg (fun b => if b then 0 else 1) (Chain.allPassed_told htold step)
              · rw [StepResult.results_ofOutcomes, StepResult.results_ofOutcomes]
                exact htold

/-- The small rulebook, with the checks of its second step exchanged. -/
def Small.exchanged : Rulebook :=
  ⟨.standard, [⟨"a", none, none, false, [Small.remoteCheck]⟩,
    ⟨"b", none, none, true, [Small.runCheck, Small.remoteCheck]⟩]⟩

theorem Small.reordered_exchanged : Small.workspace.rulebook.Reordered Small.exchanged where
  settings := rfl
  steps := .cons ⟨rfl, rfl, rfl, rfl, .refl _⟩ (.cons ⟨rfl, rfl, rfl, rfl, .swap _ _ _⟩ .nil)

theorem verify_reordered_small :
    Small.workspace.rulebook.validate = .ok () ∧
      Small.workspace.rulebook.Reordered Small.exchanged ∧ Small.host.Steady ∧
      Small.exchanged.validate = .ok () ∧
      verifyCode (Small.workspace.verify Small.vcs Small.host "b" Small.stamp
          ⟨(), Small.start⟩).1 =
        verifyCode ({ Small.workspace with rulebook := Small.exchanged }.verify Small.vcs Small.host
          "b" Small.stamp ⟨(), Small.start⟩).1 :=
  have h := verify_reordered Small.workspace Small.validate_rulebook Small.reordered_exchanged
    Small.vcs Small.steady_host "b" Small.stamp Small.stamp ⟨(), Small.start⟩
  ⟨Small.validate_rulebook, Small.reordered_exchanged, Small.steady_host, h.1, h.2.1⟩

end Workspace

end Readiness

import Mathlib.Logic.Basic
import Readiness.Probe.Hosted
import Readiness.Proofs.Outcome
import Readiness.Proofs.Text.Searching

/-!
# Probe — the verdict on a job of the latest run

A job of a workflow can be a whole matrix of jobs, and each of them counts.

* `Job.verdict_eq_pass`, `Job.verdict_eq_fail`: what the verdict on one job says of it.
* `Probe.verdict_worst_eq_pass`, `Probe.verdict_worst_eq_fail`: the verdict on several outcomes.
* `Probe.CountsFor`, `Probe.isJobOf_iff`: the jobs that are asked about, by their names.
* `Probe.Judges`, `Probe.ciJob_judges`: a failure decides, then a job that is not completed.  The
  order of the jobs has a say in the reason alone, and jobs that do not count have none.
-/

namespace Readiness

/-! ### One job -/

namespace Job

/-- The job is completed, with success. -/
def Succeeded (j : Job) : Prop := j.status = "completed" ∧ j.conclusion = "success"

/-- The job is completed, with another conclusion or with none. -/
def Failed (j : Job) : Prop := j.status = "completed" ∧ j.conclusion ≠ "success"

variable {j : Job}

theorem verdict_outcome : j.outcome.verdict =
    if j.status = "completed" then if j.conclusion = "success" then .pass else .fail
    else .pending := by
  unfold outcome classify
  split
  · split
    · rfl
    · split <;> rfl
  · split <;> rfl

theorem verdict_eq_pass : j.outcome.verdict = .pass ↔ j.Succeeded := by
  rw [verdict_outcome, Succeeded]
  grind

theorem verdict_eq_fail : j.outcome.verdict = .fail ↔ j.Failed := by
  rw [verdict_outcome, Failed]
  grind

theorem verdict_eq_pending : j.outcome.verdict = .pending ↔ j.status ≠ "completed" := by
  rw [verdict_outcome]
  grind

end Job

namespace Probe

/-! ### Several outcomes -/

section

variable {os pre post : List Outcome} {o : Outcome}

/-- The first failure decides. -/
theorem worst_of_fail (ho : o.verdict = .fail) (hpre : ∀ p ∈ pre, p.verdict ≠ .fail) :
    worst (pre ++ o :: post) = o := by
  have hf : (pre ++ o :: post).find? (fun o => o.verdict == .fail) = some o :=
    List.find?_eq_some_iff_append.mpr ⟨by simp [ho], pre, post, rfl, by simpa using hpre⟩
  rw [worst, hf]

/-- Without a failure the first outcome that is pending decides. -/
theorem worst_of_pending (ho : o.verdict = .pending) (hpre : ∀ p ∈ pre, p.verdict ≠ .pending)
    (hn : ∀ p ∈ pre ++ o :: post, p.verdict ≠ .fail) : worst (pre ++ o :: post) = o := by
  have hf : (pre ++ o :: post).find? (fun o => o.verdict == .fail) = none :=
    List.find?_eq_none.mpr (by simpa using hn)
  have hp : (pre ++ o :: post).find? (fun o => o.verdict == .pending) = some o :=
    List.find?_eq_some_iff_append.mpr ⟨by simp [ho], pre, post, rfl, by simpa using hpre⟩
  rw [worst, hf, hp]
  rfl

theorem verdict_worst_eq_fail : (worst os).verdict = .fail ↔ ∃ o ∈ os, o.verdict = .fail := by
  rw [worst]
  cases hf : os.find? fun o => o.verdict == .fail with
  | some o =>
      have ho : o.verdict = .fail := by simpa using List.find?_some hf
      exact iff_of_true ho ⟨o, List.mem_of_find?_eq_some hf, ho⟩
  | none =>
      have hn : ¬ ∃ o ∈ os, o.verdict = .fail := by simpa using hf
      refine iff_of_false (fun h => ?_) hn
      cases hp : os.find? fun o => o.verdict == .pending with
      | none => rw [hp] at h; cases h
      | some o =>
          rw [hp] at h
          exact hn ⟨o, List.mem_of_find?_eq_some hp, h⟩

theorem verdict_worst_eq_pass : (worst os).verdict = .pass ↔ ∀ o ∈ os, o.verdict = .pass := by
  rw [worst]
  cases hf : os.find? fun o => o.verdict == .fail with
  | some o =>
      have ho : o.verdict = .fail := by simpa using List.find?_some hf
      refine iff_of_false (by rw [ho]; nofun) fun h => ?_
      cases ho.symm.trans (h o (List.mem_of_find?_eq_some hf))
  | none =>
      cases hp : os.find? fun o => o.verdict == .pending with
      | some o =>
          have ho : o.verdict = .pending := by simpa using List.find?_some hp
          refine iff_of_false (by rw [Option.getD_some, ho]; nofun) fun h => ?_
          cases ho.symm.trans (h o (List.mem_of_find?_eq_some hp))
      | none =>
          refine iff_of_true rfl fun o ho => ?_
          have hf := List.find?_eq_none.mp hf o ho
          have hp := List.find?_eq_none.mp hp o ho
          cases hv : o.verdict <;> simp_all

theorem verdict_worst_eq_pending : (worst os).verdict = .pending ↔
    (∃ o ∈ os, o.verdict = .pending) ∧ ∀ o ∈ os, o.verdict ≠ .fail := by
  have hf : (¬ ∃ o ∈ os, o.verdict = .fail) ↔ ∀ o ∈ os, o.verdict ≠ .fail := by simp
  rw [Verdict.eq_pending_iff, ne_eq, ne_eq, verdict_worst_eq_pass, verdict_worst_eq_fail, hf]
  refine and_congr_left fun hn => ?_
  simp only [not_forall, exists_prop]
  refine exists_congr fun o => and_congr_right fun ho => ?_
  rw [Verdict.eq_pending_iff]
  exact (and_iff_left (hn o ho)).symm

end

/-! ### The jobs that count -/

/-- The job is called `name`, or is an entry of its matrix. -/
def CountsFor (name : String) (j : Job) : Prop :=
  j.name = name ∨ ∃ rest, j.name = name ++ " (" ++ rest

theorem isJobOf_iff {name : String} {j : Job} : isJobOf name j = true ↔ CountsFor name j := by
  rw [isJobOf, Bool.or_eq_true, beq_iff_eq, Text.hasStart_iff]
  rfl

instance (name : String) : DecidablePred (CountsFor name) :=
  fun j => decidable_of_iff (isJobOf name j = true) isJobOf_iff

theorem filter_isJobOf (name : String) (jobs : List Job) :
    jobs.filter (isJobOf name) = jobs.filter fun j => CountsFor name j :=
  List.filter_congr fun j _ => by rw [Bool.eq_iff_iff, isJobOf_iff, decide_eq_true_iff]

/-! ### The verdict -/

section

variable {run : WorkflowRun} {jobs own own' : List Job} {name : String} {o o' : Outcome}

/-- The outcome is what a run comes to whose jobs that count are `own`.  The reason is that of the
first of them that failed, or of the first that is not completed where none failed. -/
structure Judges (run : WorkflowRun) (own : List Job) (o : Outcome) : Prop where
  pass : o.verdict = .pass ↔ own ≠ [] ∧ ∀ j ∈ own, j.Succeeded
  fail : o.verdict = .fail ↔ (∃ j ∈ own, j.Failed) ∨ own = [] ∧ run.status = "completed"
  pending : o.verdict = .pending ↔
    ((∃ j ∈ own, j.status ≠ "completed") ∧ ∀ j ∈ own, ¬ j.Failed) ∨
      own = [] ∧ run.status ≠ "completed"
  failed : ∀ {pre j post}, own = pre ++ j :: post → j.Failed → (∀ i ∈ pre, ¬ i.Failed) →
    o = j.outcome
  unfinished : ∀ {pre j post}, own = pre ++ j :: post → j.status ≠ "completed" →
    (∀ i ∈ pre, i.status = "completed") → (∀ i ∈ own, ¬ i.Failed) → o = j.outcome

/-- Where no job counts, the run alone decides. -/
theorem judges_nil (ho : o.verdict = if run.status = "completed" then .fail else .pending) :
    Judges run [] o where
  pass := by rw [ho]; grind
  fail := by rw [ho]; grind
  pending := by rw [ho]; grind
  failed h := by simp at h
  unfinished h := by simp at h

theorem judges_worst (hn : own ≠ []) : Judges run own (worst (own.map Job.outcome)) where
  pass := by simp [verdict_worst_eq_pass, Job.verdict_eq_pass, hn]
  fail := by simp [verdict_worst_eq_fail, Job.verdict_eq_fail, hn]
  pending := by
    simp [verdict_worst_eq_pending, Job.verdict_eq_pending, Job.verdict_eq_fail, hn]
  failed h hj hpre := by
    rw [h, List.map_append, List.map_cons]
    refine worst_of_fail (Job.verdict_eq_fail.mpr hj) ?_
    simpa [Job.verdict_eq_fail] using hpre
  unfinished h hj hpre hnf := by
    rw [h, List.map_append, List.map_cons]
    refine worst_of_pending (Job.verdict_eq_pending.mpr hj) ?_ ?_
    · simpa [Job.verdict_eq_pending] using hpre
    · rw [← List.map_cons, ← List.map_append, ← h]
      simpa [Job.verdict_eq_fail] using hnf

theorem judges_jobVerdict (run : WorkflowRun) (jobs : List Job) (name : String) :
    Judges run (jobs.filter fun j => CountsFor name j) (jobVerdict run jobs name) := by
  rw [jobVerdict, filter_isJobOf]
  by_cases hn : jobs.filter (fun j => CountsFor name j) = []
  · rw [hn]
    refine judges_nil ?_
    rw [if_pos List.isEmpty_nil]
    split <;> rfl
  · rw [if_neg (by simpa using hn)]
    exact judges_worst hn

/-- The order of the jobs that count makes no difference to the verdict. -/
theorem Judges.verdict_eq (h : Judges run own o) (h' : Judges run own' o') (hp : own.Perm own') :
    o.verdict = o'.verdict := by
  have hm : ∀ j, j ∈ own ↔ j ∈ own' := fun _ => hp.mem_iff
  have hn : own = [] ↔ own' = [] := by
    rw [← List.length_eq_zero_iff, hp.length_eq, List.length_eq_zero_iff]
  refine Verdict.eq_of_iff ?_ ?_
  · simp only [h.pass, h'.pass, ne_eq, hn, hm]
  · simp only [h.fail, h'.fail, hn, hm]

end

/-! ### The probe -/

section

variable {σ : Type} {h : Host σ} {branch : String} {workflow : Option String}
  {run : WorkflowRun} {jobs : List Job} {s s₁ s₂ : σ} (name : String)

theorem ciJob_eq (hr : h.ask (.latestRun branch workflow) s = (.ok (some run), s₁))
    (hj : h.ask (.runJobs run.id) s₁ = (.ok jobs, s₂)) :
    ciJob h branch name workflow s = (jobVerdict run jobs name, s₂) := by
  simp only [ciJob, latestRun, hr, hj]

/-- The latest run and its jobs decide on a job.  Those that count are the jobs called so and the
entries of its matrix: all of them have to succeed, one that failed is enough for a failure, and a
run in which none counts fails once it is completed.  The reason is that of the first that failed,
else of the first that is not completed.  Another host, with the jobs in another order and with
other jobs beside them, gets the same label. -/
theorem ciJob_judges (hr : h.ask (.latestRun branch workflow) s = (.ok (some run), s₁))
    (hj : h.ask (.runJobs run.id) s₁ = (.ok jobs, s₂)) :
    Judges run (jobs.filter fun j => CountsFor name j) (ciJob h branch name workflow s).1 ∧
      ∀ {τ : Type} (h' : Host τ) (t t₁ t₂ : τ) (jobs' : List Job),
        h'.ask (.latestRun branch workflow) t = (.ok (some run), t₁) →
        h'.ask (.runJobs run.id) t₁ = (.ok jobs', t₂) →
        (jobs'.filter fun j => CountsFor name j).Perm (jobs.filter fun j => CountsFor name j) →
        (ciJob h' branch name workflow t).1.label = (ciJob h branch name workflow s).1.label := by
  rw [ciJob_eq name hr hj]
  refine ⟨judges_jobVerdict run jobs name, fun h' t t₁ t₂ jobs' hr' hj' hp => ?_⟩
  rw [ciJob_eq name hr' hj', Outcome.label, Outcome.label,
    (judges_jobVerdict run jobs' name).verdict_eq (judges_jobVerdict run jobs name) hp]

/-- A host with one run, which is in progress and whose jobs are its state. -/
def running : Host (List Job) where
  isAvailable jobs := (true, jobs)
  ask q jobs :=
    match q with
    | .latestRun .. => (.ok (some ⟨7, "CI", "ci.yml", "in_progress", "", "main"⟩), jobs)
    | .runJobs _ => (.ok jobs, jobs)
    | .defaultBranch | .branchProtection _ | .pullRequestChecks | .findIssue _ => (.ok none, jobs)
    | .setRequiredApprovals .. | .merge .. => (.ok (), jobs)

/-- A matrix with an entry that failed, beside a job that is not asked about. -/
def matrix : List Job :=
  [⟨"lint", "completed", "failure"⟩, ⟨"test (3.11)", "in_progress", ""⟩,
    ⟨"test (3.12)", "completed", "failure"⟩, ⟨"test (3.13)", "completed", ""⟩]

/-- The first entry that failed decides, and the list turned around comes to the same label. -/
theorem ciJob_judges_matrix :
    (ciJob running "main" "test" none matrix).1 = .fail "job 'test (3.12)' concluded 'failure'" ∧
      (ciJob running "main" "test" none (⟨"tests", "queued", ""⟩ :: matrix.reverse)).1.label =
        "FAIL" := by
  obtain ⟨hj, hl⟩ := ciJob_judges "test" (h := running) (s := matrix)
    (rfl : running.ask (.latestRun "main" none) _ = (_, _)) rfl
  have hm : (matrix.filter fun j => CountsFor "test" j) =
      [⟨"test (3.11)", "in_progress", ""⟩] ++ ⟨"test (3.12)", "completed", "failure"⟩ ::
        [⟨"test (3.13)", "completed", ""⟩] := by decide +kernel
  have ho : (ciJob running "main" "test" none matrix).1 =
      .fail "job 'test (3.12)' concluded 'failure'" :=
    hj.failed hm ⟨rfl, by decide⟩ (by simp [Job.Failed])
  refine ⟨ho, ?_⟩
  rw [hl running (⟨"tests", "queued", ""⟩ :: matrix.reverse) _ _ _ rfl rfl (by decide +kernel), ho]
  rfl

end

end Probe

end Readiness

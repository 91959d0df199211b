import Mathlib.Logic.Basic
import Readiness.Probe.Hosted
import Readiness.Proofs.Outcome

/-!
# Probe — the verdict on the checks of a pull request

The host sorts checks into buckets, and it may come up with new ones.  A bucket nobody has heard of
is not settled, so its checks are waited for.

* `PrCheck.Failing`, `PrCheck.Settled`: the buckets that decide.
* `Probe.Weighs`, `Probe.weighs_prChecksVerdict`: what a list of checks comes to.
* `Probe.severity_prChecksVerdict_append`: two lists together come to the worse of the two.
* `Probe.prChecksGreen_weighs`: so for the probe, with whatever host.
-/

namespace Readiness

/-! ### Buckets -/

namespace PrCheck

def Failing (c : PrCheck) : Prop := c.bucket = "fail" ∨ c.bucket = "cancel"

/-- There is nothing to wait for. -/
def Settled (c : PrCheck) : Prop := c.bucket = "pass" ∨ c.bucket = "skipping"

instance : DecidablePred Failing := fun _ => inferInstanceAs (Decidable (_ ∨ _))

instance : DecidablePred Settled := fun _ => inferInstanceAs (Decidable (_ ∨ _))

theorem Failing.not_settled {c : PrCheck} (h : c.Failing) : ¬ c.Settled := by
  rintro (hs | hs) <;> rcases h with h | h <;> simp [h] at hs

end PrCheck

namespace Probe

theorem isFailing_iff {c : PrCheck} : isFailing c = true ↔ c.Failing := by
  simp [isFailing, PrCheck.Failing]

theorem isUnsettled_iff {c : PrCheck} : isUnsettled c = true ↔ ¬ c.Settled := by
  simp [isUnsettled, PrCheck.Settled]

/-! ### Lists of checks -/

/-- The names of the checks that fail, as they stand in the list. -/
def failingNames (cs : List PrCheck) : List String := (cs.filter fun c => c.Failing).map (·.name)

/-- The names of the checks that are not settled, as they stand in the list. -/
def unsettledNames (cs : List PrCheck) : List String :=
  (cs.filter fun c => ¬ c.Settled).map (·.name)

variable {cs cs' : List PrCheck}

theorem filter_isFailing (cs : List PrCheck) :
    cs.filter isFailing = cs.filter fun c => c.Failing :=
  List.filter_congr fun c _ => by rw [Bool.eq_iff_iff, isFailing_iff, decide_eq_true_iff]

theorem filter_isUnsettled (cs : List PrCheck) :
    cs.filter isUnsettled = cs.filter fun c => ¬ c.Settled :=
  List.filter_congr fun c _ => by rw [Bool.eq_iff_iff, isUnsettled_iff, decide_eq_true_iff]

theorem any_isFailing : cs.any isFailing = true ↔ ∃ c ∈ cs, c.Failing := by
  simp only [List.any_eq_true, isFailing_iff]

theorem any_isUnsettled : cs.any isUnsettled = true ↔ ∃ c ∈ cs, ¬ c.Settled := by
  simp only [List.any_eq_true, isUnsettled_iff]

theorem prChecksVerdict_of_failing (h : ∃ c ∈ cs, c.Failing) : prChecksVerdict cs =
    .fail ("failing checks: " ++ Text.join ", " (failingNames cs)) := by
  have hn : cs ≠ [] := List.ne_nil_of_mem h.choose_spec.1
  rw [prChecksVerdict, if_neg (by simpa using hn), if_pos (any_isFailing.mpr h),
    filter_isFailing]
  rfl

theorem prChecksVerdict_of_unsettled (hf : ¬ ∃ c ∈ cs, c.Failing) (h : ∃ c ∈ cs, ¬ c.Settled) :
    prChecksVerdict cs =
      .pending ("checks still running: " ++ Text.join ", " (unsettledNames cs)) := by
  have hn : cs ≠ [] := List.ne_nil_of_mem h.choose_spec.1
  rw [prChecksVerdict, if_neg (by simpa using hn), if_neg (mt any_isFailing.mp hf),
    if_pos (any_isUnsettled.mpr h), filter_isUnsettled]
  rfl

theorem prChecksVerdict_of_settled (hn : cs ≠ []) (h : ¬ ∃ c ∈ cs, ¬ c.Settled) :
    prChecksVerdict cs = .pass := by
  have hf : ¬ ∃ c ∈ cs, c.Failing := fun ⟨c, hc, hcf⟩ => h ⟨c, hc, hcf.not_settled⟩
  rw [prChecksVerdict, if_neg (by simpa using hn), if_neg (mt any_isFailing.mp hf),
    if_neg (mt any_isUnsettled.mp h)]

/-- The outcome is what the checks come to.  A failure names the checks that fail, and waiting those
that are not settled, each as often as it is listed. -/
structure Weighs (cs : List PrCheck) (o : Outcome) : Prop where
  fail : o.verdict = .fail ↔ ∃ c ∈ cs, c.Failing
  pass : o.verdict = .pass ↔ cs ≠ [] ∧ ∀ c ∈ cs, c.Settled
  pending : o.verdict = .pending ↔ cs = [] ∨ (∀ c ∈ cs, ¬ c.Failing) ∧ ∃ c ∈ cs, ¬ c.Settled
  failing : o.verdict = .fail →
    o = .fail ("failing checks: " ++ Text.join ", " (failingNames cs))
  unsettled : cs ≠ [] → o.verdict = .pending →
    o = .pending ("checks still running: " ++ Text.join ", " (unsettledNames cs))

theorem weighs_prChecksVerdict (cs : List PrCheck) : Weighs cs (prChecksVerdict cs) := by
  have hs : (∀ c ∈ cs, c.Settled) ↔ ¬ ∃ c ∈ cs, ¬ c.Settled := by simp
  have hnf : (∀ c ∈ cs, ¬ c.Failing) ↔ ¬ ∃ c ∈ cs, c.Failing := by simp
  by_cases hf : ∃ c ∈ cs, c.Failing
  · have hn : cs ≠ [] := List.ne_nil_of_mem hf.choose_spec.1
    have hu : ∃ c ∈ cs, ¬ c.Settled := hf.imp fun c h => ⟨h.1, h.2.not_settled⟩
    rw [prChecksVerdict_of_failing hf]
    exact ⟨iff_of_true rfl hf, iff_of_false nofun fun h => hs.mp h.2 hu,
      iff_of_false nofun fun h => h.elim hn fun h => hnf.mp h.1 hf, fun _ => rfl, fun _ => nofun⟩
  by_cases hu : ∃ c ∈ cs, ¬ c.Settled
  · rw [prChecksVerdict_of_unsettled hf hu]
    exact ⟨iff_of_false nofun hf, iff_of_false nofun fun h => hs.mp h.2 hu,
      iff_of_true rfl (.inr ⟨hnf.mpr hf, hu⟩), nofun, fun _ _ => rfl⟩
  by_cases hn : cs = []
  · subst hn
    exact ⟨iff_of_false nofun hf, iff_of_false nofun fun h => h.1 rfl,
      iff_of_true rfl (.inl rfl), nofun, fun h => absurd rfl h⟩
  · rw [prChecksVerdict_of_settled hn hu]
    exact ⟨iff_of_false nofun hf, iff_of_true rfl ⟨hn, hs.mpr hu⟩,
      iff_of_false nofun fun h => h.elim hn fun h => hu h.2, nofun, fun _ => nofun⟩

/-- The order of the checks makes no difference to the verdict. -/
theorem verdict_prChecksVerdict_perm (hp : cs.Perm cs') :
    (prChecksVerdict cs).verdict = (prChecksVerdict cs').verdict := by
  have hm : ∀ c, c ∈ cs ↔ c ∈ cs' := fun _ => hp.mem_iff
  have hn : cs = [] ↔ cs' = [] := by
    rw [← List.length_eq_zero_iff, hp.length_eq, List.length_eq_zero_iff]
  refine Verdict.eq_of_iff ?_ ?_
  · simp only [(weighs_prChecksVerdict _).pass, ne_eq, hn, hm]
  · simp only [(weighs_prChecksVerdict _).fail, hm]

/-- Two lists together come to the worse of what each comes to. -/
theorem severity_prChecksVerdict_append (hn : cs ≠ []) (hn' : cs' ≠ []) :
    (prChecksVerdict (cs ++ cs')).verdict.severity =
      max (prChecksVerdict cs).verdict.severity (prChecksVerdict cs').verdict.severity := by
  refine Verdict.severity_eq_max ?_ ?_
  · simp only [(weighs_prChecksVerdict _).fail, List.mem_append, or_and_right, exists_or]
  · simp only [(weighs_prChecksVerdict _).pass, List.forall_mem_append, ne_eq,
      List.append_eq_nil_iff, hn, hn', false_and, not_false_iff, true_and]

/-! ### The probe -/

section

variable {σ : Type} {h : Host σ} {s s₁ : σ}

theorem prChecksGreen_eq (ha : h.ask .pullRequestChecks s = (.ok (some cs), s₁)) :
    prChecksGreen h s = (prChecksVerdict cs, s₁) := by
  simp only [prChecksGreen, ha]

/-- The checks a host reports decide.  One that fails is enough for a failure, a pass takes a list
in which all are settled, and everything else is waited for; the reason names the checks that made
it so.  A host that reports them in another order gets the same verdict, and one that reports two
lists in one gets the worse of their two verdicts. -/
theorem prChecksGreen_weighs (ha : h.ask .pullRequestChecks s = (.ok (some cs), s₁)) :
    Weighs cs (prChecksGreen h s).1 ∧
      ∀ {τ : Type} (h' : Host τ) (t t₁ : τ) (cs' : List PrCheck),
        h'.ask .pullRequestChecks t = (.ok (some cs'), t₁) →
        (cs.Perm cs' → (prChecksGreen h' t).1.verdict = (prChecksGreen h s).1.verdict) ∧
        (cs ≠ [] → cs' ≠ [] → ∀ {υ : Type} (h₂ : Host υ) (u u₁ : υ),
          h₂.ask .pullRequestChecks u = (.ok (some (cs ++ cs')), u₁) →
          (prChecksGreen h₂ u).1.verdict.severity =
            max (prChecksGreen h s).1.verdict.severity
              (prChecksGreen h' t).1.verdict.severity) := by
  rw [prChecksGreen_eq ha]
  refine ⟨weighs_prChecksVerdict cs, fun h' t t₁ cs' ha' => ?_⟩
  rw [prChecksGreen_eq ha']
  refine ⟨fun hp => (verdict_prChecksVerdict_perm hp).symm, fun hn hn' υ h₂ u u₁ ha₂ => ?_⟩
  rw [prChecksGreen_eq ha₂]
  exact severity_prChecksVerdict_append hn hn'

/-- A host whose state is the checks it reports. -/
def reporting : Host (List PrCheck) where
  isAvailable cs := (true, cs)
  ask q cs :=
    match q with
    | .pullRequestChecks => (.ok (some cs), cs)
    | .defaultBranch | .branchProtection _ | .latestRun .. | .findIssue _ => (.ok none, cs)
    | .runJobs _ => (.ok [], cs)
    | .setRequiredApprovals .. | .merge .. => (.ok (), cs)

/-- A check in a bucket that has no meaning yet is waited for, and with another list in which one
fails it is not. -/
theorem prChecksGreen_weighs_deploy :
    let waiting : List PrCheck := [⟨"ci", "SUCCESS", "pass"⟩, ⟨"deploy", "NEUTRAL", "neutral"⟩]
    let failing : List PrCheck := [⟨"lint", "ERROR", "fail"⟩, ⟨"docs", "SKIPPED", "skipping"⟩]
    (prChecksGreen reporting waiting).1 = .pending "checks still running: deploy" ∧
      (prChecksGreen reporting (waiting ++ failing)).1.verdict = .fail := by
  intro waiting failing
  obtain ⟨hw, ho⟩ := prChecksGreen_weighs (h := reporting) (s := waiting) rfl
  refine ⟨hw.unsettled (by simp [waiting]) (hw.pending.mpr (.inr (by decide +kernel))), ?_⟩
  have hf : (prChecksGreen reporting failing).1.verdict = .fail :=
    (prChecksGreen_weighs (h := reporting) (s := failing) rfl).1.fail.mpr (by decide +kernel)
  have hm := (ho reporting failing failing failing rfl).2 (by simp [waiting]) (by simp [failing])
    reporting (waiting ++ failing) (waiting ++ failing) rfl
  rw [← Verdict.severity_inj, hm, hf]
  exact Nat.max_eq_right (by cases (prChecksGreen reporting waiting).1.verdict <;> decide)

end

end Probe

end Readiness

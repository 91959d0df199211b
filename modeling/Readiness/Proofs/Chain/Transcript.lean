import Mathlib.Data.List.Count
import Readiness.Proofs.Chain

/-!
# Chain — what the evaluator is asked

The flag that a run carries along stands for a property of the outcomes so far: some gate among them
did not pass.  So which checks are skipped can be read off the results.

* `Chain.verifyStep_map`: a run does not see what its evaluator keeps for itself.
* `Chain.transcribed`: an evaluator that keeps what it is asked and what it answers.
* `Chain.Blocked`, `Chain.unblocked`: the checks that are skipped, and the others.
* `Chain.transcript_evaluateEach`: the evaluator is asked the others, and each once.
* `Chain.verifyStep_answered`: so in a run, whose counts are those of the results.
-/

namespace Readiness

/-! ### Counts -/

namespace StepResult

/-- The counts are those of the results. -/
structure Counted (r : StepResult) : Prop where
  passed : r.passed = (r.results.map (·.outcome.label)).count "PASS"
  failed : r.failed = (r.results.map (·.outcome.label)).count "FAIL"
  pending : r.pending = (r.results.map (·.outcome.label)).count "PENDING"
  sum : r.passed + r.failed + r.pending = r.results.length
  allPassed : r.allPassed = true ↔ ∀ x ∈ r.results, x.outcome = .pass

/-- The word for a verdict. -/
def word : Verdict → String
  | .pass    => "PASS"
  | .fail    => "FAIL"
  | .pending => "PENDING"

theorem word_injective : Function.Injective word := by
  intro v v' h
  cases v <;> cases v' <;> first | rfl | exact absurd h (by decide)

theorem count_ofOutcomes_label (step : String) (cs : List CheckOutcome) (v : Verdict) :
    (ofOutcomes step cs).count v = (cs.map (·.outcome.label)).count (word v) := by
  have hl : cs.map (·.outcome.label) = (cs.map (·.outcome.verdict)).map word := by
    rw [List.map_map]
    refine List.map_congr_left fun c _ => ?_
    rw [Outcome.label, Function.comp_apply]
    cases c.outcome.verdict <;> rfl
  rw [hl, List.count_map_of_injective _ _ word_injective, count_ofOutcomes]

theorem counted_ofOutcomes (step : String) (cs : List CheckOutcome) :
    (ofOutcomes step cs).Counted where
  passed := by rw [results_ofOutcomes]; exact count_ofOutcomes_label step cs .pass
  failed := by rw [results_ofOutcomes]; exact count_ofOutcomes_label step cs .fail
  pending := by rw [results_ofOutcomes]; exact count_ofOutcomes_label step cs .pending
  sum := by rw [results_ofOutcomes]; exact total_ofOutcomes step cs
  allPassed := by
    rw [results_ofOutcomes, allPassed_iff]
    refine forall₂_congr fun c _ => ?_
    cases c.outcome <;> simp [Outcome.isPass, Outcome.verdict]

end StepResult

/-- The scene with another state. -/
def Scene.map {τ τ' : Type} (f : τ' → τ) (s : Scene τ') : Scene τ := ⟨f s.inner, s.files⟩

namespace Chain

/-! ### Evaluators that keep something -/

section Map

variable {τ τ' : Type} {f : τ' → τ} {evaluate : Evaluator τ} {evaluate' : Evaluator τ'}

theorem evaluateEach_map (h : ∀ q s, evaluate q (s.map f) =
      ((evaluate' q s).1, (evaluate' q s).2.map f)) (plan : StepPlan) (failed : Bool)
    (cs : List Check) (s : Scene τ') :
    evaluateEach plan evaluate failed cs (s.map f) =
      ((evaluateEach plan evaluate' failed cs s).1,
        (evaluateEach plan evaluate' failed cs s).2.map f) := by
  induction cs generalizing failed s with
  | nil => rfl
  | cons c cs ih =>
      rw [evaluateEach, evaluateEach]
      split
      · rw [ih failed s]
      · dsimp only
        rw [h]
        dsimp only
        rw [ih]

/-- A run comes to the same with an evaluator that keeps something besides. -/
theorem verifyStep_map (h : ∀ q s, evaluate q (s.map f) =
      ((evaluate' q s).1, (evaluate' q s).2.map f)) (plan : StepPlan) (store : ProofStore)
    (r : Revision) (stamp : Stamp) (s : Scene τ') :
    verifyStep plan evaluate store r stamp (s.map f) =
      ((verifyStep plan evaluate' store r stamp s).1,
        (verifyStep plan evaluate' store r stamp s).2.map f) := by
  cases hh : plan.hasOwnChecks with
  | false => rw [verifyStep_of_no_checks hh, verifyStep_of_no_checks hh]
  | true =>
      cases hc : store.check plan.name r s.files with
      | mk a files =>
          have hc' : store.check plan.name r (s.map f).files = (a, files) := hc
          cases a with
          | error e => rw [verifyStep_of_check_error hh hc, verifyStep_of_check_error hh hc']; rfl
          | ok previous =>
              have he := evaluateEach_map h plan false plan.checks ⟨s.inner, files⟩
              rw [verifyStep_of_check hh hc, verifyStep_of_check hh hc']
              dsimp only [Scene.map] at he ⊢
              rw [he]
              generalize evaluateEach plan evaluate' false plan.checks _ = e
              dsimp only
              cases settle store plan.name (.ofOutcomes plan.name e.1) r stamp e.2.files with
              | mk settled files' => cases settled <;> rfl

end Map

variable {τ : Type}

/-- The evaluator, keeping what it was asked and what it answered, in order. -/
def transcribed (evaluate : Evaluator τ) : Evaluator (τ × List (Predicate × Outcome)) := fun q s =>
  let (o, s') := evaluate q ⟨s.inner.1, s.files⟩
  (o, ⟨(s'.inner, s.inner.2 ++ [(q, o)]), s'.files⟩)

theorem transcribed_map (evaluate : Evaluator τ) (q : Predicate)
    (s : Scene (τ × List (Predicate × Outcome))) :
    evaluate q (s.map Prod.fst) =
      ((transcribed evaluate q s).1, (transcribed evaluate q s).2.map Prod.fst) := rfl

/-! ### Blocked checks -/

/-- Some gate did not pass. -/
def GateFailed (before : List CheckOutcome) : Prop :=
  ∃ x ∈ before, x.check.predicate.isGate = true ∧ x.outcome ≠ .pass

instance (before : List CheckOutcome) : Decidable (GateFailed before) :=
  inferInstanceAs (Decidable (∃ x ∈ before, _ ∧ _))

/-- After these outcomes the check is skipped: it is hosted, and a gate before it did not pass. -/
structure Blocked (plan : StepPlan) (before : List CheckOutcome) (c : Check) : Prop where
  shortCircuit : plan.shortCircuit = true
  hosted : c.predicate.isHosted = true
  gate : GateFailed before

theorem isBlocked_iff {plan : StepPlan} {failed : Bool} {before : List CheckOutcome}
    (hf : failed = true ↔ GateFailed before) (c : Check) :
    isBlocked plan failed c.predicate = true ↔ Blocked plan before c := by
  rw [isBlocked, Bool.and_eq_true, Bool.and_eq_true, hf]
  constructor
  · rintro ⟨⟨hs, hg⟩, hh⟩
    exact ⟨hs, hh, hg⟩
  · rintro ⟨hs, hh, hg⟩
    exact ⟨⟨hs, hg⟩, hh⟩

instance (plan : StepPlan) (before : List CheckOutcome) (c : Check) :
    Decidable (Blocked plan before c) :=
  decidable_of_iff (isBlocked plan (decide (GateFailed before)) c.predicate = true)
    (isBlocked_iff decide_eq_true_iff c)

/-- The results that are not those of skipped checks, given the results before them. -/
def unblocked (plan : StepPlan) (before : List CheckOutcome) : List CheckOutcome → List CheckOutcome
  | [] => []
  | x :: xs =>
    if Blocked plan before x.check then unblocked plan (before ++ [x]) xs
    else x :: unblocked plan (before ++ [x]) xs

theorem gateFailed_append {before : List CheckOutcome} {x : CheckOutcome} :
    GateFailed (before ++ [x]) ↔
      GateFailed before ∨ x.check.predicate.isGate = true ∧ x.outcome ≠ .pass := by
  simp [GateFailed, or_and_right, exists_or]

/-! ### What is asked -/

/-- What was asked for a result, and what the answer was. -/
def entry (x : CheckOutcome) : Predicate × Outcome := (x.check.predicate, x.outcome)

/-- The results of checks, with what was asked for them, after the results `before`: the evaluator
was asked every check that is not skipped, once and in order, and the others have failed. -/
structure Answered (plan : StepPlan) (before results : List CheckOutcome)
    (asked : List (Predicate × Outcome)) : Prop where
  asked : asked = (unblocked plan before results).map entry
  blocked : ∀ pre x post, results = pre ++ x :: post → Blocked plan (before ++ pre) x.check →
    x.outcome = .fail blockedByPrerequisite

variable {plan : StepPlan} {before rest : List CheckOutcome} {asked : List (Predicate × Outcome)}
  {x : CheckOutcome}

/-- What holds at every cut of a list holds at its front and at every cut of the rest. -/
theorem forall_cut_cons {α : Type} {P : List α → α → Prop} {a : α} {as : List α} :
    (∀ pre b post, a :: as = pre ++ b :: post → P pre b) ↔
      P [] a ∧ ∀ pre b post, as = pre ++ b :: post → P (a :: pre) b := by
  constructor
  · intro h
    exact ⟨h [] a as rfl, fun pre b post he => h (a :: pre) b post (congrArg (a :: ·) he)⟩
  · rintro ⟨hf, hr⟩ pre b post he
    cases pre with
    | nil => obtain ⟨rfl, -⟩ := List.cons.inj he; exact hf
    | cons c pre => obtain ⟨rfl, ht⟩ := List.cons.inj he; exact hr pre b post ht

theorem Answered.nil (plan : StepPlan) (before : List CheckOutcome) :
    Answered plan before [] [] where
  asked := rfl
  blocked pre x post h := by simp at h

theorem Answered.blocked_cons (hx : Blocked plan before x.check →
      x.outcome = .fail blockedByPrerequisite) (h : Answered plan (before ++ [x]) rest asked) :
    ∀ pre y post, x :: rest = pre ++ y :: post → Blocked plan (before ++ pre) y.check →
      y.outcome = .fail blockedByPrerequisite := by
  refine forall_cut_cons.mpr ⟨by rwa [List.append_nil], fun pre y post he hy => ?_⟩
  exact h.blocked pre y post he (by rwa [List.append_assoc])

theorem Answered.skip (hb : Blocked plan before x.check)
    (hx : x.outcome = .fail blockedByPrerequisite)
    (h : Answered plan (before ++ [x]) rest asked) : Answered plan before (x :: rest) asked where
  asked := by rw [unblocked, if_pos hb, h.asked]
  blocked := h.blocked_cons fun _ => hx

theorem Answered.ask (hb : ¬ Blocked plan before x.check)
    (h : Answered plan (before ++ [x]) rest asked) :
    Answered plan before (x :: rest) (entry x :: asked) where
  asked := by rw [unblocked, if_neg hb, List.map_cons, h.asked]
  blocked := h.blocked_cons fun h => absurd h hb

/-- The evaluator is asked the checks that are not skipped.  The flag stands for a gate among the
results before that did not pass. -/
theorem transcript_evaluateEach (evaluate : Evaluator τ) {failed : Bool}
    (hf : failed = true ↔ GateFailed before) (cs : List Check)
    (s : Scene (τ × List (Predicate × Outcome))) :
    ∃ asked, (evaluateEach plan (transcribed evaluate) failed cs s).2.inner.2 =
        s.inner.2 ++ asked ∧
      Answered plan before (evaluateEach plan (transcribed evaluate) failed cs s).1 asked := by
  induction cs generalizing before failed s with
  | nil => exact ⟨[], by simp [evaluateEach], .nil plan before⟩
  | cons c cs ih =>
      rw [evaluateEach]
      split
      · rename_i hb
        have hb : Blocked plan before c := (isBlocked_iff hf c).mp hb
        -- where a check is skipped a gate has failed already
        have hf' : failed = true ↔
            GateFailed (before ++ [⟨c, .fail blockedByPrerequisite⟩]) :=
          hf.trans ⟨fun h => gateFailed_append.mpr (.inl h), fun _ => hb.gate⟩
        obtain ⟨asked, ha, h⟩ := ih hf' s
        exact ⟨asked, ha, h.skip hb rfl⟩
      · rename_i hb
        have hb : ¬ Blocked plan before c := fun h => hb ((isBlocked_iff hf c).mpr h)
        dsimp only
        generalize ho : transcribed evaluate c.predicate s = e
        have hlog : e.2.inner.2 = s.inner.2 ++ [(c.predicate, e.1)] := by rw [← ho]; rfl
        have hf' : (failed || (c.predicate.isGate && !e.1.isPass)) = true ↔
            GateFailed (before ++ [⟨c, e.1⟩]) := by
          rw [gateFailed_append, ← hf]
          cases he : e.1 <;> simp [Outcome.isPass, Outcome.verdict]
        obtain ⟨asked, ha, h⟩ := ih hf' e.2
        refine ⟨(c.predicate, e.1) :: asked, ?_, h.ask hb⟩
        rw [ha, hlog, List.append_assoc]
        rfl

/-- From the first check on, what was kept is what the results tell. -/
theorem answered_evaluateEach (plan : StepPlan) (evaluate : Evaluator τ) (x : τ) (t : FileTree)
    {e : List CheckOutcome × Scene (τ × List (Predicate × Outcome))}
    (he : evaluateEach plan (transcribed evaluate) false plan.checks ⟨(x, []), t⟩ = e) :
    e.1.map (·.check) = plan.checks ∧ Answered plan [] e.1 e.2.inner.2 := by
  -- before the first check no gate has failed
  have hf : false = true ↔ GateFailed [] := by simp [GateFailed]
  obtain ⟨asked, ha, h⟩ := transcript_evaluateEach evaluate hf plan.checks ⟨(x, []), t⟩
  rw [he] at ha h
  obtain rfl : e.2.inner.2 = asked := ha
  exact ⟨by rw [← he, map_check_evaluateEach], h⟩

/-! ### A run -/

theorem hasOwnChecks_iff {plan : StepPlan} :
    plan.hasOwnChecks = true ↔ ∃ c ∈ plan.checks, c.predicate.isGate = false := by
  rw [StepPlan.hasOwnChecks, List.any_eq_true]
  simp only [Bool.not_eq_true']

/-- A run that got past the look at the former proof returns its results, unless the proof they call
for cannot be written, or the former one not be removed. -/
theorem verifyStep_settled {evaluate : Evaluator τ} {store : ProofStore} {r : Revision}
    (stamp : Stamp) (s : Scene τ) {previous : ProofState} {files : FileTree}
    {e : List CheckOutcome × Scene τ} (hh : plan.hasOwnChecks = true)
    (hc : store.check plan.name r s.files = (.ok previous, files))
    (he : evaluateEach plan evaluate false plan.checks { s with files } = e) :
    (verifyStep plan evaluate store r stamp s).2.inner = e.2.inner ∧
      ((∃ i, (settle store plan.name (.ofOutcomes plan.name e.1) r stamp e.2.files).1 =
            .error (.io i) ∧ (verifyStep plan evaluate store r stamp s).1 = .error (.io i)) ∨
        ∃ proof, (settle store plan.name (.ofOutcomes plan.name e.1) r stamp e.2.files).1 =
            .ok proof ∧
          (verifyStep plan evaluate store r stamp s).1 =
            .ok ⟨.ofOutcomes plan.name e.1, proof, previous⟩) := by
  have hlen : e.1.length ≠ 0 := by
    rw [← he, length_evaluateEach]
    exact checks_ne_nil hh
  rw [verifyStep_of_check hh hc, he]
  dsimp only
  cases hs : settle store plan.name (.ofOutcomes plan.name e.1) r stamp e.2.files with
  | mk settled files' =>
      cases settled with
      | error f =>
          obtain ⟨i, rfl⟩ := settle_error hlen hs
          exact ⟨rfl, .inl ⟨i, rfl, rfl⟩⟩
      | ok proof => exact ⟨rfl, .inr ⟨proof, rfl, rfl⟩⟩

/-- What a run asks and returns, for every plan, evaluator and store, the evaluator keeping what it
is asked.  A plan of gates alone is refused, and so is a run whose former proof cannot be looked at;
neither asks anything.  Every other run asks the checks that are not skipped, each once and in
order; the outcome of a check is the answer, and a skipped one has failed.  It returns these
outcomes and their counts, unless the file system keeps it from settling the proof. -/
theorem verifyStep_answered (plan : StepPlan) (evaluate : Evaluator τ) (store : ProofStore)
    (r : Revision) (stamp : Stamp) (s : Scene τ) :
    let run := verifyStep plan (transcribed evaluate) store r stamp ⟨(s.inner, []), s.files⟩
    verifyStep plan evaluate store r stamp s = (run.1, run.2.map Prod.fst) ∧
    ((∀ c ∈ plan.checks, c.predicate.isGate = true) →
      run = (.error (.nothingToVerify plan.name), ⟨(s.inner, []), s.files⟩)) ∧
    ((∃ c ∈ plan.checks, c.predicate.isGate = false) →
      (∃ i files, store.check plan.name r s.files = (.error (.io i), files) ∧
        run = (.error (.io i), ⟨(s.inner, []), files⟩)) ∨
      ∃ previous files results after,
        store.check plan.name r s.files = (.ok previous, files) ∧
        evaluateEach plan (transcribed evaluate) false plan.checks ⟨(s.inner, []), files⟩ =
          (results, after) ∧
        run.2.inner = after.inner ∧
        results.map (·.check) = plan.checks ∧
        Answered plan [] results after.inner.2 ∧
        ((∃ i, (settle store plan.name (.ofOutcomes plan.name results) r stamp after.files).1 =
            .error (.io i) ∧ run.1 = .error (.io i)) ∨
          ∃ ran, run.1 = .ok ran ∧ ran.result.results = results ∧ ran.result.Counted)) := by
  intro run
  refine ⟨verifyStep_map (transcribed_map evaluate) plan store r stamp ⟨(s.inner, []), s.files⟩,
    fun hg => ?_, fun hown => ?_⟩
  · refine verifyStep_of_no_checks (Bool.eq_false_iff.mpr fun hh => ?_) _
    obtain ⟨c, hc, hn⟩ := hasOwnChecks_iff.mp hh
    rw [hg c hc] at hn
    cases hn
  · have hh := hasOwnChecks_iff.mpr hown
    cases hc : store.check plan.name r s.files with
    | mk a files =>
        cases a with
        | error e =>
            obtain ⟨i, rfl⟩ := ProofStore.check_error hc
            exact .inl ⟨i, files, rfl, verifyStep_of_check_error hh hc⟩
        | ok previous =>
            cases he : evaluateEach plan (transcribed evaluate) false plan.checks
                ⟨(s.inner, []), files⟩ with
            | mk results after =>
                obtain ⟨hinner, hrun⟩ :=
                  verifyStep_settled stamp ⟨(s.inner, []), s.files⟩ hh hc he
                obtain ⟨hmap, hanswered⟩ := answered_evaluateEach plan evaluate s.inner files he
                refine .inr ⟨previous, files, results, after, rfl, he, hinner, hmap, hanswered, ?_⟩
                rcases hrun with h | ⟨proof, -, h⟩
                · exact .inl h
                · exact .inr ⟨_, h, StepResult.results_ofOutcomes _ _,
                    StepResult.counted_ofOutcomes _ _⟩

/-- Two gates, the first of them after a hosted check and before another one. -/
def gatedTwice : StepPlan where
  name := "a"
  title := "a"
  number := 1
  gate := none
  shortCircuit := true
  checks := [⟨1, "Pull request", .prChecksGreen⟩, ⟨2, "Setup", .proofExists "b"⟩,
    ⟨3, "A file", .fileExists "f"⟩, ⟨4, "An issue", .handshakeIssue "m"⟩,
    ⟨5, "Review", .proofExists "c"⟩]

/-- Every gate is shut, and all else passes. -/
def gatesShut : Evaluator Unit := fun q s => (if q.isGate then .fail "shut" else .pass, s)

/-- With both gates shut the issue is not asked about, and the pull request is. -/
theorem verifyStep_answered_gatedTwice :
    let run := verifyStep gatedTwice (transcribed gatesShut) ⟨"/p"⟩ ⟨"c0", "c0"⟩
      ⟨"", "", "0"⟩ ⟨((), []), .empty⟩
    (∃ c ∈ gatedTwice.checks, c.predicate.isGate = false) ∧
      run.2.inner.2 = [(.prChecksGreen, .pass), (.proofExists "b", .fail "shut"),
        (.fileExists "f", .pass), (.proofExists "c", .fail "shut")] := by
  intro run
  have hown : ∃ c ∈ gatedTwice.checks, c.predicate.isGate = false := by decide
  obtain ⟨-, -, h⟩ := verifyStep_answered gatedTwice gatesShut ⟨"/p"⟩ ⟨"c0", "c0"⟩
    ⟨"", "", "0"⟩ ⟨(), .empty⟩
  refine ⟨hown, ?_⟩
  rcases h hown with ⟨i, files, hc, -⟩ | ⟨previous, files, results, after, -, he, hinner, -⟩
  · -- there is no file that could not be looked at
    have hn : (match (ProofStore.check ⟨"/p"⟩ gatedTwice.name ⟨"c0", "c0"⟩ .empty).1 with
      | .ok _ => true
      | .error _ => false) = true := by decide +kernel
    rw [hc] at hn
    cases hn
  · rw [hinner]
    exact (congrArg (·.2.inner.2) he).symm

/-- One check, of a file. -/
def ungated : StepPlan where
  name := "a"
  title := "a"
  number := 1
  gate := none
  shortCircuit := false
  checks := [⟨1, "A file", .fileExists "f"⟩]

/-- Not every run returns its results.  Where a regular file stands in the place of the proof
directory, a run all of whose checks passed ends in an error. -/
theorem not_returned_blocked : ¬ ∀ (plan : StepPlan) (evaluate : Evaluator Unit)
    (store : ProofStore) (r : Revision) (stamp : Stamp) (s : Scene Unit),
    (∃ c ∈ plan.checks, c.predicate.isGate = false) →
      ∃ run, (verifyStep plan evaluate store r stamp s).1 = .ok run ∧
        run.result.results.map (·.check) = plan.checks := by
  intro h
  obtain ⟨run, hrun, -⟩ := h ungated gatesShut ⟨"/p"⟩ ⟨"c0", "c0"⟩ ⟨"", "", "0"⟩
    ⟨(), ⟨[(["p"], .file ByteArray.empty)]⟩⟩ (by decide)
  have hn : (match (verifyStep ungated gatesShut ⟨"/p"⟩ ⟨"c0", "c0"⟩ ⟨"", "", "0"⟩
      ⟨(), ⟨[(["p"], .file ByteArray.empty)]⟩⟩).1 with
    | .ok _ => true
    | .error _ => false) = false := by decide +kernel
  rw [hrun] at hn
  cases hn

end Chain

end Readiness

import Readiness.Chain
import Readiness.Proofs.Proof.Directory

/-!
# Chain — what a run of one step comes to

* `StepResult.allPassed_iff`: a result counts no failure just when every outcome is a pass.
* `StepResult.count_ofOutcomes`: the counts depend on the verdicts alone.
* `Chain.map_check_evaluateEach`: every check is answered, in order, blocked ones too.
* `Chain.evaluateEach_replies`: where no outcome depends on those before it, each is what its own
  predicate is answered with.
* `Chain.settle_cases`: a proof is written just when every check passed, and else nothing is left.
* `Chain.verifyStep_error`: a run fails for want of checks or because of the file system.
-/

namespace Readiness

/-! ### Results -/

def CheckOutcome.passed (c : CheckOutcome) : Bool := c.outcome.isPass

namespace StepResult

theorem foldl_record (cs : List CheckOutcome) (r : StepResult) :
    (cs.foldl record r).step = r.step ∧ (cs.foldl record r).results = r.results ++ cs ∧
      (cs.foldl record r).passed = r.passed + cs.countP (·.passed) ∧
      (cs.foldl record r).total = r.total + cs.length := by
  induction cs generalizing r with
  | nil => simp
  | cons c cs ih =>
      obtain ⟨h₁, h₂, h₃, h₄⟩ := ih (r.record c)
      rw [List.foldl_cons, h₁, h₂, h₃, h₄]
      cases hv : c.outcome.verdict <;>
        simp [record, hv, total, CheckOutcome.passed, Outcome.isPass] <;> omega

section Outcomes

variable (step : String) (cs : List CheckOutcome)

theorem results_ofOutcomes : (ofOutcomes step cs).results = cs :=
  (foldl_record cs (empty step)).2.1

theorem passed_ofOutcomes : (ofOutcomes step cs).passed = cs.countP (·.passed) := by
  rw [ofOutcomes, (foldl_record cs (empty step)).2.2.1]
  exact Nat.zero_add _

theorem total_ofOutcomes : (ofOutcomes step cs).total = cs.length := by
  rw [ofOutcomes, (foldl_record cs (empty step)).2.2.2]
  exact Nat.zero_add _

/-- No failure is counted just when everything that is counted is a pass. -/
theorem allPassed_iff_passed (r : StepResult) : r.allPassed = true ↔ r.passed = r.total := by
  rw [allPassed, total, Bool.and_eq_true, beq_iff_eq, beq_iff_eq]
  omega

theorem allPassed_iff :
    (ofOutcomes step cs).allPassed = true ↔ ∀ c ∈ cs, c.outcome.isPass = true := by
  rw [allPassed_iff_passed, passed_ofOutcomes, total_ofOutcomes, List.countP_eq_length]
  rfl

end Outcomes

/-- How many checks had the verdict. -/
def count (r : StepResult) : Verdict → Nat
  | .pass    => r.passed
  | .fail    => r.failed
  | .pending => r.pending

theorem count_foldl_record (cs : List CheckOutcome) (r : StepResult) (v : Verdict) :
    (cs.foldl record r).count v = r.count v + (cs.map (·.outcome.verdict)).count v := by
  induction cs generalizing r with
  | nil => rfl
  | cons c cs ih =>
      rw [List.foldl_cons, ih, List.map_cons, List.count_cons]
      cases v <;> cases hc : c.outcome.verdict <;> simp [record, count, hc] <;> omega

/-- The counts depend on the verdicts alone. -/
theorem count_ofOutcomes (step : String) (cs : List CheckOutcome) (v : Verdict) :
    (ofOutcomes step cs).count v = (cs.map (·.outcome.verdict)).count v := by
  rw [ofOutcomes, count_foldl_record]
  cases v <;> exact Nat.zero_add _

/-- Results with the same counts say alike whether everything passed. -/
theorem allPassed_congr {r r' : StepResult} (h : ∀ v, r.count v = r'.count v) :
    r.allPassed = r'.allPassed := by
  rw [allPassed, allPassed, show r.failed = r'.failed from h .fail,
    show r.pending = r'.pending from h .pending]

end StepResult

namespace Chain

variable {τ : Type} {plan : StepPlan} {evaluate : Evaluator τ} {store : ProofStore}
  {r : Revision} {stamp : Stamp}

/-! ### Evaluation -/

/-- Every check is answered, in order. -/
theorem map_check_evaluateEach (failed : Bool) (cs : List Check) (s : Scene τ) :
    (evaluateEach plan evaluate failed cs s).1.map (·.check) = cs := by
  induction cs generalizing failed s with
  | nil => rfl
  | cons c cs ih =>
      rw [evaluateEach]
      split
      · exact congrArg (c :: ·) (ih failed s)
      · exact congrArg (c :: ·) (ih _ _)

theorem length_evaluateEach (failed : Bool) (cs : List Check) (s : Scene τ) :
    (evaluateEach plan evaluate failed cs s).1.length = cs.length := by
  rw [← List.length_map (f := (·.check)), map_check_evaluateEach]

/-- Checks that leave the files alone leave them alone one after the other. -/
theorem files_evaluateEach {cs : List Check}
    (h : ∀ c ∈ cs, ∀ s, (evaluate c.predicate s).2.files = s.files) (failed : Bool)
    (s : Scene τ) : (evaluateEach plan evaluate failed cs s).2.files = s.files := by
  induction cs generalizing failed s with
  | nil => rfl
  | cons c cs ih =>
      have ih := ih fun c hc => h c (List.mem_cons_of_mem _ hc)
      rw [evaluateEach]
      split
      · exact ih failed s
      · exact (ih _ _).trans (h c List.mem_cons_self s)

/-- A gate that has failed, or has not. -/
def gateFails (evaluate : Evaluator τ) (c : Check) (s : Scene τ) : Bool :=
  c.predicate.isGate && !(evaluate c.predicate s).1.isPass

/-- The first check is evaluated when it is not hosted, and the others see what it left. -/
theorem evaluateEach_cons {c : Check} (hc : c.predicate.isHosted = false) (cs : List Check)
    (s : Scene τ) :
    evaluateEach plan evaluate false (c :: cs) s =
      (⟨c, (evaluate c.predicate s).1⟩ ::
          (evaluateEach plan evaluate (gateFails evaluate c s) cs (evaluate c.predicate s).2).1,
        (evaluateEach plan evaluate (gateFails evaluate c s) cs (evaluate c.predicate s).2).2) := by
  rw [evaluateEach, if_neg (by simp [isBlocked, hc])]
  rfl

/-- A check that is blocked is not evaluated. -/
theorem evaluateEach_blocked {gateFailed : Bool} {c : Check}
    (hb : isBlocked plan gateFailed c.predicate = true) (cs : List Check) (s : Scene τ) :
    evaluateEach plan evaluate gateFailed (c :: cs) s =
      (⟨c, .fail blockedByPrerequisite⟩ :: (evaluateEach plan evaluate gateFailed cs s).1,
        (evaluateEach plan evaluate gateFailed cs s).2) := by
  rw [evaluateEach, if_pos hb]

/-- A check that is no gate leaves it open whether a gate has failed. -/
theorem evaluateEach_own {gateFailed : Bool} {c : Check} (hg : c.predicate.isGate = false)
    (hb : isBlocked plan gateFailed c.predicate = false) (cs : List Check) (s : Scene τ) :
    evaluateEach plan evaluate gateFailed (c :: cs) s =
      (⟨c, (evaluate c.predicate s).1⟩ ::
          (evaluateEach plan evaluate gateFailed cs (evaluate c.predicate s).2).1,
        (evaluateEach plan evaluate gateFailed cs (evaluate c.predicate s).2).2) := by
  have hf : (gateFailed || (c.predicate.isGate && !(evaluate c.predicate s).1.isPass)) =
      gateFailed := by simp [hg]
  rw [evaluateEach, if_neg (by simp [hb])]
  dsimp only
  rw [hf]

/-- What comes of a check that is no gate when `answer` answers predicates. -/
def reply (plan : StepPlan) (gateFailed : Bool) (answer : Predicate → Outcome) (c : Check) :
    CheckOutcome :=
  ⟨c, if isBlocked plan gateFailed c.predicate then .fail blockedByPrerequisite
    else answer c.predicate⟩

/-- As long as the scene stays one in which the evaluator answers as `answer` does, every check
comes to what its own predicate is answered with. -/
theorem evaluateEach_replies (Stays : Scene τ → Prop) (answer : Predicate → Outcome)
    {gateFailed : Bool} {cs : List Check} (hg : ∀ c ∈ cs, c.predicate.isGate = false)
    (h : ∀ c ∈ cs, isBlocked plan gateFailed c.predicate = false → ∀ s, Stays s →
      (evaluate c.predicate s).1 = answer c.predicate ∧ Stays (evaluate c.predicate s).2)
    {s : Scene τ} (hs : Stays s) :
    (evaluateEach plan evaluate gateFailed cs s).1 = cs.map (reply plan gateFailed answer) ∧
      Stays (evaluateEach plan evaluate gateFailed cs s).2 := by
  induction cs generalizing s with
  | nil => exact ⟨rfl, hs⟩
  | cons c cs ih =>
      have ih := @ih (fun c hc => hg c (List.mem_cons_of_mem _ hc))
        fun c hc => h c (List.mem_cons_of_mem _ hc)
      cases hb : isBlocked plan gateFailed c.predicate with
      | true =>
          obtain ⟨he, hs'⟩ := ih hs
          rw [evaluateEach_blocked hb, List.map_cons, reply, if_pos hb, he]
          exact ⟨rfl, hs'⟩
      | false =>
          obtain ⟨ha, hs₁⟩ := h c List.mem_cons_self hb s hs
          obtain ⟨he, hs'⟩ := ih hs₁
          rw [evaluateEach_own (hg c List.mem_cons_self) hb, List.map_cons, reply,
            if_neg (by simp [hb]), he, ha]
          exact ⟨rfl, hs'⟩

/-- Every check besides gates that is evaluated passes. -/
def OwnPass (plan : StepPlan) (evaluate : Evaluator τ) : Bool → List Check → Scene τ → Prop
  | _, [], _ => True
  | gateFailed, c :: cs, s =>
    if isBlocked plan gateFailed c.predicate then OwnPass plan evaluate gateFailed cs s
    else
      (c.predicate.isGate = false → (evaluate c.predicate s).1.isPass = true) ∧
        OwnPass plan evaluate (gateFailed || gateFails evaluate c s) cs (evaluate c.predicate s).2

theorem ownPass_of_isPass {cs : List Check}
    (h : ∀ c ∈ cs, c.predicate.isGate = false → ∀ s, (evaluate c.predicate s).1.isPass = true)
    (gateFailed : Bool) (s : Scene τ) : OwnPass plan evaluate gateFailed cs s := by
  induction cs generalizing gateFailed s with
  | nil => trivial
  | cons c cs ih =>
      have ih := ih fun c hc => h c (List.mem_cons_of_mem _ hc)
      rw [OwnPass]
      split
      · exact ih gateFailed s
      · exact ⟨fun hg => h c List.mem_cons_self hg s, ih _ _⟩

/-- As long as no gate has failed, checks that pass when evaluated all pass. -/
theorem isPass_of_ownPass {cs : List Check} (hg : ∀ c ∈ cs, c.predicate.isGate = false)
    {s : Scene τ} (h : OwnPass plan evaluate false cs s) :
    ∀ o ∈ (evaluateEach plan evaluate false cs s).1, o.outcome.isPass = true := by
  induction cs generalizing s with
  | nil => intro o ho; cases ho
  | cons c cs ih =>
      have hb : isBlocked plan false c.predicate = false := by simp [isBlocked]
      have hf : (false || gateFails evaluate c s) = false := by
        simp [gateFails, hg c List.mem_cons_self]
      rw [OwnPass, hb, hf] at h
      rw [evaluateEach, hb]
      intro o ho
      rcases List.mem_cons.mp ho with rfl | ho
      · exact h.1 (hg c List.mem_cons_self)
      · refine ih (fun c hc => hg c (List.mem_cons_of_mem _ hc)) h.2 o ?_
        simpa [gateFails, hg c List.mem_cons_self] using ho

/-! ### The proof after a run -/

/-- A proof is written when every check passed, and else deleted. -/
theorem settle_eq (step : String) (cs : List CheckOutcome) (files : FileTree) :
    settle store step (.ofOutcomes step cs) r stamp files =
      if ∀ c ∈ cs, c.outcome.isPass = true then
        ((store.write step cs.length cs.length r stamp files).1.map some,
          (store.write step cs.length cs.length r stamp files).2)
      else
        ((store.remove step files).1.map fun _ => none, (store.remove step files).2) := by
  rw [settle]
  by_cases ha : (StepResult.ofOutcomes step cs).allPassed = true
  · rw [if_pos ha, if_pos ((StepResult.allPassed_iff step cs).mp ha),
      (StepResult.allPassed_iff_passed _).mp ha, StepResult.total_ofOutcomes]
    cases store.write step cs.length cs.length r stamp files with
    | mk a t => cases a <;> rfl
  · rw [if_neg ha, if_neg fun h => ha ((StepResult.allPassed_iff step cs).mpr h)]
    cases store.remove step files with
    | mk a t => cases a <;> rfl

/-- A settled run has a proof of all checks, or none and no reason to have one, unless the file
system is at fault. -/
theorem settle_cases {step : String} {cs : List CheckOutcome} (hne : cs.length ≠ 0)
    {files files' : FileTree} {answer : Except Failure (Option ProofToken)}
    (h : settle store step (.ofOutcomes step cs) r stamp files = (answer, files')) :
    (∃ i, answer = .error (.io i)) ∨
      ((∀ c ∈ cs, c.outcome.isPass = true) ∧ ∃ p, answer = .ok (some p) ∧
        store.write step cs.length cs.length r stamp files = (.ok p, files')) ∨
      ¬ (∀ c ∈ cs, c.outcome.isPass = true) ∧ answer = .ok none ∧
        ∃ b, store.remove step files = (.ok b, files') := by
  rw [settle_eq] at h
  split at h
  · rename_i ha
    cases hw : store.write step cs.length cs.length r stamp files with
    | mk a t =>
        rw [hw] at h
        cases a with
        | error e =>
            obtain ⟨i, rfl⟩ := ProofStore.write_error hne hw
            cases h
            exact .inl ⟨i, rfl⟩
        | ok p => cases h; exact .inr (.inl ⟨ha, p, rfl, rfl⟩)
  · rename_i ha
    cases hr : store.remove step files with
    | mk a t =>
        rw [hr] at h
        cases a with
        | error e =>
            obtain ⟨i, rfl⟩ := ProofStore.remove_error hr
            cases h
            exact .inl ⟨i, rfl⟩
        | ok b => cases h; exact .inr (.inr ⟨ha, rfl, b, rfl⟩)

theorem settle_error {step : String} {cs : List CheckOutcome} (hne : cs.length ≠ 0)
    {files files' : FileTree} {e : Failure}
    (h : settle store step (.ofOutcomes step cs) r stamp files = (.error e, files')) :
    ∃ i, e = .io i := by
  rcases settle_cases hne h with ⟨i, he⟩ | ⟨-, p, he, -⟩ | ⟨-, he, -⟩
  · cases he; exact ⟨i, rfl⟩
  · cases he
  · cases he

/-- A proof that is there after a settled run was there before, or the run passed. -/
theorem stored_settle {step : String} (hs : Rulebook.isName step = true)
    {cs : List CheckOutcome} (hne : cs.length ≠ 0) {files files' : FileTree}
    {answer : Except Failure (Option ProofToken)}
    (h : settle store step (.ofOutcomes step cs) r stamp files = (answer, files'))
    {a : String} {p : ProofToken} (hp : store.Stored files' a p) :
    store.Stored files a p ∨
      (a = step ∧ p.commit = r.id ∧ (∀ c ∈ cs, c.outcome.isPass = true) ∧
        ∃ q, answer = .ok (some q)) := by
  rw [settle_eq] at h
  split at h
  · rename_i ha
    rcases ProofStore.write_cases (s := store) (t := files) hs hne r stamp with
      ⟨i, hw⟩ | ⟨t₁, q, he, rfl, -, -, hw⟩
    · rw [hw] at h
      cases h
      exact .inl (ProofStore.stored_ensureDir.mp hp)
    · rw [hw] at h
      cases h
      -- the proof in question is the new one, or one that was there before
      by_cases hb : a = step
      · subst hb
        obtain rfl := hp.unique (ProofStore.stored_put t₁ _)
        exact .inr ⟨rfl, rfl, ha, _, rfl⟩
      · refine .inl (ProofStore.stored_ensureDir.mp ?_)
        rw [he]
        refine (ProofStore.Stored.congr ?_).mp hp
        rw [FileTree.get?_put, if_neg fun e => hb (ProofStore.place_injective e.1)]
  · have hl := ProofStore.remove_loses store step files
    cases hr : store.remove step files with
    | mk b t =>
        rw [hr] at h hl
        cases b <;> cases h <;> exact .inl (hp.of_loses hl)

/-- In an orderly directory, what settling a run does to every proof: nothing when the file system
is at fault, and else the step has a proof just when every check passed. -/
theorem settle_exact (r : Revision) (stamp : Stamp) {step : String}
    (hs : Rulebook.isName step = true) {cs : List CheckOutcome} (hne : cs.length ≠ 0)
    {files : FileTree} (ho : store.Orderly files) :
    ∃ answer files', settle store step (.ofOutcomes step cs) r stamp files = (answer, files') ∧
      store.Orderly files' ∧
      ((∃ i, answer = .error (.io i)) ∧
          (∀ a commit, store.Has files' a commit ↔ store.Has files a commit) ∨
        (∀ c ∈ cs, c.outcome.isPass = true) ∧ (∃ p, answer = .ok (some p)) ∧
          (∀ a commit, store.Has files' a commit ↔
            if a = step then commit = r.id else store.Has files a commit) ∨
        ¬ (∀ c ∈ cs, c.outcome.isPass = true) ∧ answer = .ok none ∧
          ∀ a commit, store.Has files' a commit ↔ store.Has files a commit ∧ a ≠ step) := by
  rw [settle_eq]
  split
  · rename_i ha
    obtain ⟨answer, files', hw, ho', he⟩ := ProofStore.write_exact ho hs hne r stamp
    rw [hw]
    rcases he with ⟨⟨i, rfl⟩, hh⟩ | ⟨⟨p, rfl⟩, hh⟩
    · exact ⟨_, _, rfl, ho', .inl ⟨⟨i, rfl⟩, hh⟩⟩
    · exact ⟨_, _, rfl, ho', .inr (.inl ⟨ha, ⟨p, rfl⟩, hh⟩)⟩
  · rename_i ha
    obtain ⟨answer, files', hr, ho', hh, ⟨b, rfl⟩ | ⟨-, rfl, i, rfl⟩⟩ :=
      ProofStore.remove_exact ho hs
    · rw [hr]
      exact ⟨_, _, rfl, ho', .inr (.inr ⟨ha, rfl, hh⟩)⟩
    · rw [hr]
      exact ⟨_, _, rfl, ho', .inl ⟨⟨i, rfl⟩, fun _ _ => Iff.rfl⟩⟩

theorem settle_free (r : Revision) (stamp : Stamp) {step : String}
    (hs : Rulebook.isName step = true) {cs : List CheckOutcome} (hne : cs.length ≠ 0)
    {files : FileTree} (hf : store.Free files) :
    store.Free (settle store step (.ofOutcomes step cs) r stamp files).2 := by
  rw [settle_eq]
  split
  · exact hf.write hs hne r stamp
  · exact hf.of_loses (ProofStore.remove_loses store step files)

/-! ### A run -/

theorem checks_ne_nil (h : plan.hasOwnChecks = true) : plan.checks.length ≠ 0 := by
  intro h0
  rw [StepPlan.hasOwnChecks, List.eq_nil_of_length_eq_zero h0] at h
  cases h

/-- A run after the former proof was looked at. -/
theorem verifyStep_of_check (h : plan.hasOwnChecks = true) {s : Scene τ} {previous : ProofState}
    {files : FileTree} (hc : store.check plan.name r s.files = (.ok previous, files)) :
    verifyStep plan evaluate store r stamp s =
      let e := evaluateEach plan evaluate false plan.checks { s with files }
      let result := StepResult.ofOutcomes plan.name e.1
      match settle store plan.name result r stamp e.2.files with
      | (.error e', files) => (.error e', { e.2 with files })
      | (.ok proof, files) => (.ok ⟨result, proof, previous⟩, { e.2 with files }) := by
  rw [verifyStep, h, hc]
  rfl

theorem verifyStep_of_check_error (h : plan.hasOwnChecks = true) {s : Scene τ} {e : Failure}
    {files : FileTree} (hc : store.check plan.name r s.files = (.error e, files)) :
    verifyStep plan evaluate store r stamp s = (.error e, { s with files }) := by
  rw [verifyStep, h, hc]
  rfl

theorem verifyStep_of_no_checks (h : plan.hasOwnChecks = false) (s : Scene τ) :
    verifyStep plan evaluate store r stamp s = (.error (.nothingToVerify plan.name), s) := by
  rw [verifyStep, h]
  rfl

/-- A run fails for want of checks, or because of the file system.  A proof is never asked for a
run that did not fully pass. -/
theorem verifyStep_error {s s' : Scene τ} {e : Failure}
    (h : verifyStep plan evaluate store r stamp s = (.error e, s')) :
    (plan.hasOwnChecks = false ∧ e = .nothingToVerify plan.name ∧ s' = s) ∨
      (plan.hasOwnChecks = true ∧ ∃ i, e = .io i) := by
  cases hh : plan.hasOwnChecks with
  | false =>
      rw [verifyStep_of_no_checks hh] at h
      cases h
      exact .inl ⟨rfl, rfl, rfl⟩
  | true =>
      refine .inr ⟨rfl, ?_⟩
      cases hc : store.check plan.name r s.files with
      | mk a files =>
          cases a with
          | error f =>
              rw [verifyStep_of_check_error hh hc] at h
              cases h
              exact ProofStore.check_error hc
          | ok previous =>
              rw [verifyStep_of_check hh hc] at h
              dsimp only at h
              split at h
              · rename_i hs
                cases h
                refine settle_error ?_ hs
                rw [length_evaluateEach]
                exact checks_ne_nil hh
              · cases h

end Chain

end Readiness

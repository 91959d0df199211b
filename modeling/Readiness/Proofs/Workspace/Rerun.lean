import Mathlib.Data.List.Forall2
import Readiness.Proofs.CommandLine.Verify
import Readiness.Proofs.Probe.Growth
import Readiness.Proofs.Proof.Writing
import Readiness.Proofs.Workspace.Evaluation

/-!
# Workspace — verifying a step again

Two verifications of a step, one on the files that the other left.  Between them only proofs come
and go, apart from the proof directory and its rule, which may be new: checks that do not look at
proofs come to the same, since those that pass pass in a larger tree as well.

* `Blind`: no check of a step but its gate depends on proof files.
* `CheckOutcome.Again`, `SameAnswer`: what is told of a check, and answered, a second time.
* `evaluation_again`, `evaluation_passes_again`: the second evaluation, where the first left the
  gate's proof or deleted it, and where it passed.
* `verify_again`: a second verification changes what the proof says at most.
-/

namespace Readiness

/-- What is told of a check a second time: the same, unless a gate deleted a proof from
elsewhere. -/
structure CheckOutcome.Again (r : Revision) (c c' : CheckOutcome) : Prop where
  check : c'.check = c.check
  label : c'.outcome.label = c.outcome.label
  outcome : c'.outcome = c.outcome ∨ ∃ a stored, c.check.predicate = .proofExists a ∧
    c.outcome = .fail (Probe.elsewhere a stored r) ∧ c'.outcome = .fail (Probe.unverified a)

namespace CheckOutcome.Again

variable {r : Revision} {c c' : CheckOutcome} {cs cs' : List CheckOutcome}

theorem refl (r : Revision) (c : CheckOutcome) : Again r c c := ⟨rfl, rfl, .inl rfl⟩

theorem verdict (h : Again r c c') : c'.outcome.verdict = c.outcome.verdict := by
  rcases h.outcome with e | ⟨a, stored, -, e, e'⟩
  · rw [e]
  · rw [e, e']
    rfl

theorem map_verdict (h : List.Forall₂ (Again r) cs cs') :
    cs'.map (·.outcome.verdict) = cs.map (·.outcome.verdict) := by
  induction h with
  | nil => rfl
  | cons h _ ih => rw [List.map_cons, List.map_cons, h.verdict, ih]

/-- The counts are the same. -/
theorem count_ofOutcomes (h : List.Forall₂ (Again r) cs cs') (step : String) (v : Verdict) :
    (StepResult.ofOutcomes step cs').count v = (StepResult.ofOutcomes step cs).count v := by
  rw [StepResult.count_ofOutcomes, StepResult.count_ofOutcomes, map_verdict h]

theorem allPassed_ofOutcomes (h : List.Forall₂ (Again r) cs cs') (step : String) :
    (StepResult.ofOutcomes step cs').allPassed = (StepResult.ofOutcomes step cs).allPassed :=
  StepResult.allPassed_congr (count_ofOutcomes h step)

/-- The same checks, all passed, are told the same. -/
theorem of_passed (h : cs.map (·.check) = cs'.map (·.check))
    (hp : ∀ c ∈ cs, c.outcome.isPass = true) (hp' : ∀ c ∈ cs', c.outcome.isPass = true) :
    List.Forall₂ (Again r) cs cs' := by
  rw [← List.forall₂_eq_eq_eq, List.forall₂_map_left_iff, List.forall₂_map_right_iff] at h
  induction h with
  | nil => exact .nil
  | @cons c c' cs cs' he _ ih =>
      have hc := Outcome.isPass_iff.mp (hp c List.mem_cons_self)
      have hc' := Outcome.isPass_iff.mp (hp' c' List.mem_cons_self)
      exact .cons ⟨he.symm, by rw [hc, hc'], .inl (by rw [hc, hc'])⟩
        (ih (fun x hx => hp x (List.mem_cons_of_mem c hx))
          fun x hx => hp' x (List.mem_cons_of_mem c' hx))

end CheckOutcome.Again

namespace Workspace

-- what the parts of a run come to is said by lemmas
attribute [local irreducible] evaluation Chain.settle Chain.verifyStep ProofStore.check

open CommandLine (verifyCode)
open FileTree (Extends)

variable {σ : Type} {w : Workspace} {vcs : Vcs} {host : Host σ} {step q : String}
  {plan : StepPlan} {r : Revision} {stamp : Stamp} {inner inner' : σ} {gates own : List Check}
  {gate gate' : Outcome} {answer answer' : Predicate → Outcome} {t t' u : FileTree}

/-- No check of the step but its gate depends on proof files: what each comes to in a run at HEAD is
the same in every tree that differs from this one in proof files alone. -/
def Blind (w : Workspace) (vcs : Vcs) (host : Host σ) (step : String) (t : FileTree) : Prop :=
  ∀ plan r, w.plan step = .ok plan → vcs.head = .ok r →
    ∀ c ∈ plan.checks, c.predicate.isGate = false → ∀ t', w.proofs.SameBesides t t' → ∀ m,
      ((w.probe vcs host r).evaluate c.predicate ⟨m, t'⟩).1 =
        ((w.probe vcs host r).evaluate c.predicate ⟨m, t⟩).1

/-! ### The gate -/

theorem gated_eq (hq : w.rulebook.prerequisite? step = some q) (t : FileTree) :
    w.gated vcs r step t =
      (Probe.gateOutcome q r (w.proofs.check q r t).1, (w.proofs.check q r t).2) := by
  rw [gated, hq]
  exact Probe.gate_eq _ q t

theorem gated_open (hq : w.rulebook.prerequisite? step = none) (t : FileTree) :
    w.gated vcs r step t = (.pass, t) := by
  rw [gated, hq]
  rfl

/-- The gate finds what it left when it looked before. -/
def GateFinds (w : Workspace) (r : Revision) (step : String) (t t' : FileTree) : Prop :=
  ∀ q, w.rulebook.prerequisite? step = some q →
    w.proofs.check q r t' = ((w.proofs.check q r t).1.map ProofState.next, t')

/-- What a gate says a second time: the same, unless it deleted a proof from elsewhere. -/
def GateAgain (prerequisite : Option String) (r : Revision) (gate gate' : Outcome) : Prop :=
  gate' = gate ∨ ∃ q stored, prerequisite = some q ∧
    gate = .fail (Probe.elsewhere q stored r) ∧ gate' = .fail (Probe.unverified q)

theorem gated_again (vcs : Vcs) (h : w.GateFinds r step t t') :
    GateAgain (w.rulebook.prerequisite? step) r (w.gated vcs r step t).1
        (w.gated vcs r step t').1 ∧ (w.gated vcs r step t').2 = t' := by
  cases hq : w.rulebook.prerequisite? step with
  | none =>
      rw [gated_open hq, gated_open hq]
      exact ⟨.inl rfl, rfl⟩
  | some q =>
      rw [gated_eq hq, gated_eq hq, h q hq]
      refine ⟨?_, rfl⟩
      rcases (w.proofs.check q r t).1 with e | _ | stored | p
      · exact .inl rfl
      · exact .inl rfl
      · exact .inr ⟨q, stored, rfl, rfl, rfl⟩
      · exact .inl rfl

theorem GateAgain.isPass {prerequisite : Option String}
    (h : GateAgain prerequisite r gate gate') : gate'.isPass = gate.isPass := by
  rcases h with rfl | ⟨q, stored, -, rfl, rfl⟩ <;> rfl

/-- A gate on a current proof is open, and leaves the files alone. -/
theorem gated_current (vcs : Vcs) (h : ∀ q, w.rulebook.prerequisite? step = some q →
    ∃ p, w.proofs.check q r t = (.ok (.current p), t)) : w.gated vcs r step t = (.pass, t) := by
  cases hq : w.rulebook.prerequisite? step with
  | none => exact gated_open hq t
  | some q =>
      obtain ⟨p, hc⟩ := h q hq
      rw [gated_eq hq, hc]
      rfl

/-- A gate leaves all but proof files alone. -/
theorem sameBesides_gated (hv : w.rulebook.validate = .ok ()) (t : FileTree) :
    w.proofs.SameBesides t (w.gated vcs r step t).2 := by
  cases hq : w.rulebook.prerequisite? step with
  | none =>
      rw [gated_open hq]
      exact .refl _ t
  | some q =>
      rw [gated_eq hq]
      exact ProofStore.sameBesides_check
        (Rulebook.isName_of_mem hv (Rulebook.prerequisite?_mem hv hq).2) r t

/-- No step is its own prerequisite. -/
theorem prerequisite?_ne (hv : w.rulebook.validate = .ok ())
    (hq : w.rulebook.prerequisite? step = some q) : q ≠ step := by
  rintro rfl
  exact absurd (Rulebook.idxOf_prerequisite? hv hq) (Nat.lt_irrefl _)

/-! ### The evaluation -/

theorem again_outcomes (h : Rulebook.Parted (w.rulebook.prerequisite? step) plan gates own)
    (hg : GateAgain (w.rulebook.prerequisite? step) r gate gate')
    (ha : ∀ c ∈ own, answer' c.predicate = answer c.predicate) :
    List.Forall₂ (CheckOutcome.Again r) (outcomes plan gates own gate answer)
      (outcomes plan gates own gate' answer') := by
  have hp := hg.isPass
  refine List.rel_append ?_ ?_
  · rw [List.forall₂_map_left_iff, List.forall₂_map_right_iff, List.forall₂_same]
    intro c hc
    rcases hg with rfl | ⟨q, stored, hq, rfl, rfl⟩
    · exact .refl r _
    · obtain ⟨a, ha, hc⟩ := h.gate hc
      obtain rfl : q = a := Option.some.inj (hq.symm.trans ha)
      exact ⟨rfl, rfl, .inr ⟨q, stored, hc, rfl, rfl⟩⟩
  · rw [List.forall₂_map_left_iff, List.forall₂_map_right_iff, List.forall₂_same]
    intro c hc
    rw [Chain.reply, Chain.reply, hp, ha c hc]
    exact .refl r _

/-- Behind an open gate every check passes just when those of the plan's own do. -/
theorem isPass_outcomes :
    (∀ o ∈ outcomes plan gates own .pass answer, o.outcome.isPass = true) ↔
      ∀ c ∈ own, (answer c.predicate).isPass = true := by
  have hb : ∀ q, Chain.isBlocked plan (!Outcome.pass.isPass) q = false := fun q => by
    rw [Chain.isBlocked, show (!Outcome.pass.isPass) = false from rfl, Bool.and_false,
      Bool.false_and]
  rw [outcomes, List.forall_mem_append, List.forall_mem_map, List.forall_mem_map]
  constructor
  · intro h c hc
    have hc := h.2 c hc
    rwa [Chain.reply, hb, if_neg Bool.false_ne_true] at hc
  · refine fun h => ⟨fun c _ => rfl, fun c hc => ?_⟩
    rw [Chain.reply, hb, if_neg Bool.false_ne_true]
    exact h c hc

section Evaluation

variable {t₀ : FileTree} (hv : w.rulebook.validate = .ok ()) (hs : host.Steady)
  (hplan : w.plan step = .ok plan) (hhead : vcs.head = .ok r) (hb : w.Blind vcs host step t₀)

include hv hs hplan hhead hb

/-- On files that differ in proofs alone, and where the gate finds what it left, a second evaluation
comes to the same. -/
theorem evaluation_again (inner inner' : σ) (ht : w.proofs.SameBesides t₀ t)
    (ht' : w.proofs.SameBesides t₀ t') (hg : w.GateFinds r step t t') :
    List.Forall₂ (CheckOutcome.Again r) (w.evaluation vcs host r plan inner t).1
        (w.evaluation vcs host r plan inner' t').1 ∧
      (w.evaluation vcs host r plan inner' t').2.files = t' := by
  obtain ⟨gates, own, hparted, -⟩ := Rulebook.parted_of_plan_ok hv hplan
  obtain ⟨hgate, hf⟩ := gated_again vcs hg
  obtain ⟨h₁, -⟩ := evaluation_steady vcs hs hparted r inner t
  obtain ⟨h₂, hf₂⟩ := evaluation_steady vcs hs hparted r inner' t'
  rw [h₁, h₂, hf₂]
  refine ⟨again_outcomes hparted hgate fun c hc => ?_, hf⟩
  have hm : c ∈ plan.checks := hparted.checks ▸ List.mem_append_right _ hc
  have hblind := hb plan r hplan hhead c hm (hparted.notGate c hc)
  rw [hf, hblind _ ht', hblind _ (ht.trans (sameBesides_gated hv t))]
  exact Probe.evaluate_steady hs c.predicate inner' inner none t₀

/-- In a tree that has more besides proofs, and where the gate is still open, checks that passed
pass. -/
theorem evaluation_passes_again (inner inner' : σ) (ht : w.proofs.SameBesides t₀ t)
    (hu : w.proofs.SameBesides t₀ u) (hx : Extends u t') (hg : w.gated vcs r step t = (.pass, t))
    (hg' : w.gated vcs r step t' = (.pass, t'))
    (hp : ∀ o ∈ (w.evaluation vcs host r plan inner t).1, o.outcome.isPass = true) :
    (∀ o ∈ (w.evaluation vcs host r plan inner' t').1, o.outcome.isPass = true) ∧
      (w.evaluation vcs host r plan inner' t').2.files = t' := by
  obtain ⟨gates, own, hparted, -⟩ := Rulebook.parted_of_plan_ok hv hplan
  obtain ⟨h₁, -⟩ := evaluation_steady vcs hs hparted r inner t
  obtain ⟨h₂, hf⟩ := evaluation_steady vcs hs hparted r inner' t'
  rw [h₁, hg, isPass_outcomes] at hp
  rw [h₂, hf, hg', isPass_outcomes]
  refine ⟨fun c hc => ?_, rfl⟩
  have hm : c ∈ plan.checks := hparted.checks ▸ List.mem_append_right _ hc
  have hblind := hb plan r hplan hhead c hm (hparted.notGate c hc)
  have hc' := hp c hc
  dsimp only at hc'
  rw [hblind t ht, ← hblind u hu, Probe.evaluate_steady hs c.predicate inner inner' none u] at hc'
  exact Probe.isPass_evaluate_mono _ hx (hparted.notGate c hc) _ hc'

end Evaluation

/-! ### What a verification leaves for the next -/

theorem files_evaluation_gated (hv : w.rulebook.validate = .ok ()) (hp : w.plan step = .ok plan)
    (t : FileTree) :
    (w.evaluation vcs host r plan inner t).2.files = (w.gated vcs r step t).2 := by
  rw [files_evaluation hv hp, gated, Probe.files_gateAnswer]
  rfl

/-- The gate leaves the proof of the step itself alone. -/
theorem agrees_gated (hv : w.rulebook.validate = .ok ()) (t : FileTree) :
    w.proofs.Agrees step t (w.gated vcs r step t).2 := by
  cases hq : w.rulebook.prerequisite? step with
  | none =>
      rw [gated_open hq]
      exact .refl _ step t
  | some q =>
      rw [gated_eq hq]
      exact ProofStore.agrees_check
        (Rulebook.isName_of_mem hv (Rulebook.prerequisite?_mem hv hq).2)
        (prerequisite?_ne hv hq).symm r t

/-- Where the step's own proof is deleted after the gate, the gate finds what it left. -/
theorem gateFinds_remove (vcs : Vcs) (hv : w.rulebook.validate = .ok ())
    (hn : Rulebook.isName step = true) (r : Revision) (t : FileTree) :
    w.GateFinds r step t (w.proofs.remove step (w.gated vcs r step t).2).2 := by
  intro q hq
  have hqn := Rulebook.isName_of_mem hv (Rulebook.prerequisite?_mem hv hq).2
  rw [gated_eq hq]
  dsimp only
  have hagrees : w.proofs.Agrees q (w.proofs.check q r t).2
      (w.proofs.remove step (w.proofs.check q r t).2).2 :=
    ProofStore.agrees_remove hn (prerequisite?_ne hv hq) _
  refine ProofStore.check_of_next hqn ?_
  rw [hagrees.check_eq hqn, ProofStore.check_check hqn]

/-- Writing the step's own proof leaves a current proof of the prerequisite current. -/
theorem current_write (hv : w.rulebook.validate = .ok ())
    (hq : w.rulebook.prerequisite? step = some q) {p : ProofToken}
    (hc : w.proofs.check q r t = (.ok (.current p), t)) (hu : w.proofs.Agrees q t u)
    (hx : Extends u t') : w.proofs.check q r t' = (.ok (.current p), t') := by
  have hqn := Rulebook.isName_of_mem hv (Rulebook.prerequisite?_mem hv hq).2
  have hcu : (w.proofs.check q r u).1 = .ok (.current p) := by rw [hu.check_eq hqn, hc]
  exact ProofStore.check_current_mono hqn hx
    (ProofStore.check_of_next (a := .ok (.current p)) hqn hcu)

/-! ### Two verifications -/

/-- What is answered a second time, on files that the first left. -/
inductive SameAnswer (w : Workspace) (vcs : Vcs) (files : FileTree) :
    Except Failure (StepPlan × StepRun) → Except Failure (StepPlan × StepRun) → Prop
  | error (e : Failure) : SameAnswer w vcs files (.error e) (.error e)
  /-- The proof directory could not be made, for one reason or another. -/
  | unmade (i i' : IoError) : files.isDirectory w.proofs.dir = false →
      SameAnswer w vcs files (.error (.io i)) (.error (.io i'))
  | completed {plan : StepPlan} {r : Revision} {run run' : StepRun} : vcs.head = .ok r →
      List.Forall₂ (CheckOutcome.Again r) run.result.results run'.result.results →
      (∀ v, run'.result.count v = run.result.count v) →
      run'.previous = run.proof.elim .missing .current →
      SameAnswer w vcs files (.ok (plan, run)) (.ok (plan, run'))

theorem SameAnswer.code {answer answer' : Except Failure (StepPlan × StepRun)}
    (h : w.SameAnswer vcs t answer answer') : verifyCode answer' = verifyCode answer := by
  cases h with
  | error | unmade => rfl
  | completed _ _ hcount _ =>
      rw [verifyCode, verifyCode, StepResult.allPassed_congr hcount]

/-- The second of two verifications answers as the first did, and changes what the step's proof says
at most. -/
structure Repeats (w : Workspace) (vcs : Vcs) (step : String)
    (one other : Except Failure (StepPlan × StepRun) × Scene σ) : Prop where
  answer : w.SameAnswer vcs one.2.files one.1 other.1
  list : w.proofs.list other.2.files = w.proofs.list one.2.files
  reissued : w.proofs.Reissued step one.2.files other.2.files

theorem repeats_error (w : Workspace) (vcs : Vcs) (step : String) (e : Failure) (t : FileTree)
    (x x' : σ) : w.Repeats vcs step (.error e, ⟨x, t⟩) (.error e, ⟨x', t⟩) :=
  ⟨.error e, rfl, .refl _ step t⟩

theorem completed_evaluation {cs cs' : List CheckOutcome} (hh : vcs.head = .ok r)
    (h : List.Forall₂ (CheckOutcome.Again r) cs cs') {proof proof' : Option ProofToken}
    {previous previous' : ProofState} (hp : previous' = proof.elim .missing .current) :
    w.SameAnswer vcs t (.ok (plan, ⟨.ofOutcomes step cs, proof, previous⟩))
      (.ok (plan, ⟨.ofOutcomes step cs', proof', previous'⟩)) := by
  refine .completed hh ?_ (CheckOutcome.Again.count_ofOutcomes h step) hp
  dsimp only
  rw [StepResult.results_ofOutcomes, StepResult.results_ofOutcomes]
  exact h

section Verifications

variable {s : Scene σ} {previous : ProofState} (hv : w.rulebook.validate = .ok ())
  (hs : host.Steady) (hb : w.Blind vcs host step s.files)
  (hp : ∀ x, w.Proceeds vcs host step x plan r (hostReady host plan x).2)
  (hc : w.proofs.check step r s.files = (.ok previous, t))

include hv hs hb hp hc

/-- Where some check did not pass: the step's own proof is gone, and the second time there is
nothing left to delete. -/
theorem repeats_flunked
    (hflunk : ¬ ∀ o ∈ (w.evaluation vcs host r plan (hostReady host plan s.inner).2 t).1,
      o.outcome.isPass = true) (stamp stamp' : Stamp) :
    w.Repeats vcs step (w.verify vcs host step stamp s)
      (w.verify vcs host step stamp' (w.verify vcs host step stamp s).2) := by
  have hn := isName_of_proceeds hv (hp s.inner)
  have hplan := (hp s.inner).planned
  obtain ⟨ht, hstate⟩ := ProofStore.left_by_check hn hc
  obtain ⟨b, hr⟩ : ∃ b, (w.proofs.remove step (w.gated vcs r step t).2).1 = .ok b := by
    have hlook : (w.proofs.check step r (w.gated vcs r step t).2).1 = .ok previous.next := by
      rw [(agrees_gated hv t).check_eq hn, hstate]
    exact ProofStore.remove_of_check hn hlook
  have hfinds := gateFinds_remove vcs hv hn r t
  have hgated : w.proofs.SameBesides t (w.gated vcs r step t).2 := sameBesides_gated hv t
  have hbesides := ht.trans (hgated.trans (ProofStore.sameBesides_remove hn _))
  generalize hx : w.proofs.remove step (w.gated vcs r step t).2 = x at hr hfinds hbesides
  obtain ⟨_, t'⟩ := x
  obtain rfl := hr
  have hgone := ProofStore.remove_ok hn hx
  have hr : w.proofs.remove step
      (w.evaluation vcs host r plan (hostReady host plan s.inner).2 t).2.files = (.ok b, t') := by
    rw [files_evaluation_gated hv hplan, hx]
  rw [verify_flunked (hp s.inner) hc hflunk hr]
  -- the second time the host has moved on
  generalize (w.evaluation vcs host r plan (hostReady host plan s.inner).2 t).2.inner.host = y
  obtain ⟨hagain, hf⟩ := evaluation_again hv hs hplan (hp s.inner).head hb
    (hostReady host plan s.inner).2 (hostReady host plan y).2 ht hbesides hfinds
  have hflunk' : ¬ ∀ o ∈ (w.evaluation vcs host r plan (hostReady host plan y).2 t').1,
      o.outcome.isPass = true := by
    rwa [← StepResult.allPassed_iff step, CheckOutcome.Again.allPassed_ofOutcomes hagain,
      StepResult.allPassed_iff]
  have hr' : w.proofs.remove step
      (w.evaluation vcs host r plan (hostReady host plan y).2 t').2.files = (.ok false, t') := by
    rw [hf, ProofStore.remove_of_not_exists hgone]
  rw [verify_flunked (s := ⟨y, t'⟩) (hp y) (ProofStore.check_of_not_exists hgone r) hflunk' hr']
  exact ⟨completed_evaluation (hp s.inner).head hagain rfl, rfl, .refl _ step t'⟩

/-- Where every check passed: the gate and the other checks pass again on what the attempt to write
the proof left, and the attempt is made again. -/
theorem repeats_passed
    (hpass : ∀ o ∈ (w.evaluation vcs host r plan (hostReady host plan s.inner).2 t).1,
      o.outcome.isPass = true) (stamp stamp' : Stamp) :
    w.Repeats vcs step (w.verify vcs host step stamp s)
      (w.verify vcs host step stamp' (w.verify vcs host step stamp s).2) := by
  have hn := isName_of_proceeds hv (hp s.inner)
  have hplan := (hp s.inner).planned
  obtain ⟨ht, hstate⟩ := ProofStore.left_by_check hn hc
  have hzero : plan.checks.length ≠ 0 := Chain.checks_ne_nil (hp s.inner).checks
  have hcurrent := fun q hq => check_prerequisite_of_passed (q := q) hv hplan hq hpass
  have hopen : w.gated vcs r step t = (.pass, t) := gated_current vcs hcurrent
  cases hw : w.proofs.write step plan.checks.length plan.checks.length r stamp t with
  | mk written t' =>
      have hw₁ : w.proofs.write step plan.checks.length plan.checks.length r stamp
          (w.evaluation vcs host r plan (hostReady host plan s.inner).2 t).2.files =
            (written, t') := by rw [files_evaluation_gated hv hplan, hopen, hw]
      rw [verify_passed (hp s.inner) hc hpass hw₁]
      -- what the attempt left leaves the gate open, and the other checks passing
      obtain ⟨u, hu, hagrees, hx⟩ :=
        ProofStore.write_extends (s := w.proofs) hn hzero r stamp t
      rw [hw] at hx
      have hcurrent' : ∀ q, w.rulebook.prerequisite? step = some q → ∃ p,
          w.proofs.check q r t' = (.ok (.current p), t') := by
        intro q hq
        obtain ⟨p, hcq⟩ := hcurrent q hq
        exact ⟨p, current_write hv hq hcq (hagrees q (prerequisite?_ne hv hq)) hx⟩
      generalize (w.evaluation vcs host r plan (hostReady host plan s.inner).2 t).2.inner.host = y
      obtain ⟨hpass', hf⟩ := evaluation_passes_again hv hs hplan (hp s.inner).head hb
        (hostReady host plan s.inner).2 (hostReady host plan y).2 ht (ht.trans hu) hx hopen
        (gated_current vcs hcurrent') hpass
      cases written with
      | error e =>
          obtain ⟨i, rfl⟩ := ProofStore.write_error hzero hw
          rcases ProofStore.write_error_again hn hzero hstate hw with
            hc' | ⟨⟨state, hc'⟩, e', hw', he⟩
          · rw [verify_of_check_error (s := ⟨y, t'⟩) (hp y) hc']
            exact repeats_error w vcs step _ t' y _
          · rw [verify_passed (s := ⟨y, t'⟩) (hp y) hc' hpass' (by rw [hf, hw'])]
            rcases he with rfl | ⟨⟨i', rfl⟩, hd⟩
            · exact repeats_error w vcs step _ t' y _
            · exact ⟨.unmade i i' hd, rfl, .refl _ step t'⟩
      | ok p =>
          obtain ⟨hc', hwrites⟩ := ProofStore.write_ok_again hn hzero hw
          obtain ⟨p', t'', hw', hlist, hreissued⟩ := hwrites stamp'
          rw [verify_passed (s := ⟨y, t'⟩) (hp y) hc' hpass' (by rw [hf, hw'])]
          refine ⟨completed_evaluation (hp s.inner).head
            (CheckOutcome.Again.of_passed ?_ hpass hpass') rfl, hlist, hreissued⟩
          rw [map_check_evaluation, map_check_evaluation]

end Verifications

/-- Verifying a step again changes what its proof says at most.  In every workspace with a valid
rulebook, with a host whose answers depend on the query alone and a step whose checks do not depend
on proof files, the second of two verifications answers as the first did: the same trouble, or the
same told of every check but a gate that deleted a proof from elsewhere, and the same counts.  Where
the proof directory could not be made, it cannot be made, but the reason may be another one. -/
theorem verify_again (w : Workspace) (hv : w.rulebook.validate = .ok ()) (vcs : Vcs)
    {host : Host σ} (hs : host.Steady) (step : String) (stamp stamp' : Stamp) (s : Scene σ)
    (hb : w.Blind vcs host step s.files) :
    let one := w.verify vcs host step stamp s
    let other := w.verify vcs host step stamp' one.2
    w.SameAnswer vcs one.2.files one.1 other.1 ∧ verifyCode other.1 = verifyCode one.1 ∧
      w.proofs.list other.2.files = w.proofs.list one.2.files ∧
      w.proofs.Reissued step one.2.files other.2.files := by
  have h : w.Repeats vcs step (w.verify vcs host step stamp s)
      (w.verify vcs host step stamp' (w.verify vcs host step stamp s).2) := by
    cases ha : w.admission vcs (host.isAvailable s.inner).1 step with
    | error e =>
        have ha' : ∀ x, w.admission vcs (host.isAvailable x).1 step = .error e := fun x => by
          rw [hs.isAvailable x s.inner, ha]
        obtain ⟨x, h₁⟩ := verify_of_admission_error ha stamp
        obtain ⟨x', h₂⟩ := verify_of_admission_error (s := ⟨x, s.files⟩) (ha' x) stamp'
        rw [h₁, h₂]
        exact repeats_error w vcs step e s.files x x'
    | ok a =>
        obtain ⟨plan, r⟩ := a
        have hp : ∀ x, w.Proceeds vcs host step x plan r (hostReady host plan x).2 := fun x =>
          proceeds_of_admission_ok (s := ⟨x, s.files⟩) (by rw [hs.isAvailable x s.inner, ha])
        cases hc : w.proofs.check step r s.files with
        | mk a t =>
            cases a with
            | error e =>
                have hc' := ProofStore.check_check (s := w.proofs)
                  (isName_of_proceeds hv (hp s.inner)) r s.files
                rw [hc] at hc'
                rw [verify_of_check_error (hp s.inner) hc,
                  verify_of_check_error (s := ⟨_, t⟩) (hp _) hc']
                exact repeats_error w vcs step e t _ _
            | ok previous =>
                by_cases hpass : ∀ o ∈
                    (w.evaluation vcs host r plan (hostReady host plan s.inner).2 t).1,
                    o.outcome.isPass = true
                · exact repeats_passed hv hs hb hp hc hpass stamp stamp'
                · exact repeats_flunked hv hs hb hp hc hpass stamp stamp'
  exact ⟨h.answer, h.answer.code, h.list, h.reissued⟩

/-- A step whose checks look at remotes and runs alone does not depend on proof files. -/
theorem Small.blind {w : Workspace} {step : String} (qs : List Predicate)
    (hplan : (w.plan step).map (fun plan => plan.checks.map (·.predicate)) = .ok qs)
    (hq : ∀ q ∈ qs, q = remoteCheck.predicate ∨ q = runCheck.predicate ∨ q.isGate = true)
    (t : FileTree) : w.Blind vcs host step t := by
  intro plan r hp _ c hc hg t' _ m
  rw [hp] at hplan
  rcases hq c.predicate (Except.ok.inj hplan ▸ List.mem_map_of_mem hc) with h | h | h
  · rw [h]
    rfl
  · rw [h]
    rfl
  · rw [h] at hg
    cases hg

/-- The directory holds a proof of the prerequisite that is from elsewhere, so the gate of the
second step deletes it. -/
def Small.stale : FileTree :=
  Small.start.put ["p", "verify-a.proof"]
    (.file (ProofToken.issue "a" 1 1 ⟨"c1", "c1"⟩ Small.stamp).encode.toUTF8)

theorem verify_again_small :
    Small.workspace.rulebook.validate = .ok () ∧ Small.host.Steady ∧
      Small.workspace.Blind Small.vcs Small.host "b" Small.stale ∧
      let one := Small.workspace.verify Small.vcs Small.host "b" Small.stamp ⟨(), Small.stale⟩
      let other := Small.workspace.verify Small.vcs Small.host "b" Small.stamp one.2
      Small.workspace.SameAnswer Small.vcs one.2.files one.1 other.1 ∧
        verifyCode other.1 = verifyCode one.1 ∧
        Small.workspace.proofs.list other.2.files = Small.workspace.proofs.list one.2.files ∧
        Small.workspace.proofs.Reissued "b" one.2.files other.2.files :=
  have hb : Small.workspace.Blind Small.vcs Small.host "b" Small.stale :=
    Small.blind [.proofExists "a", .gitRemote "origin", .ciGreen none] rfl (by decide) _
  ⟨Small.validate_rulebook, Small.steady_host, hb,
    verify_again Small.workspace Small.validate_rulebook Small.vcs Small.steady_host "b"
      Small.stamp Small.stamp ⟨(), Small.stale⟩ hb⟩

/-- A workspace whose proof directory is reached by a detour, through a file. -/
def Small.detour : Workspace :=
  ⟨"/", ⟨.standard, [⟨"a", none, none, false, [Small.remoteCheck]⟩]⟩, ⟨"/a/../f/x"⟩, .unknown⟩

/-- The first attempt makes the directory of the detour, and then comes to the file from another
side. -/
theorem verify_again_other_error :
    Small.detour.rulebook.validate = .ok () ∧ Small.host.Steady ∧
      Small.detour.Blind Small.vcs Small.host "a" ⟨[(["f"], .file .empty)]⟩ ∧
      let one := Small.detour.verify Small.vcs Small.host "a" Small.stamp
        ⟨(), ⟨[(["f"], .file .empty)]⟩⟩
      one.1 = .error (.io .alreadyExists) ∧
        (Small.detour.verify Small.vcs Small.host "a" Small.stamp one.2).1 =
          .error (.io .notDirectory) :=
  ⟨rfl, Small.steady_host, Small.blind [.gitRemote "origin"] rfl (by decide) _, by
    decide +kernel, by decide +kernel⟩

end Workspace

end Readiness

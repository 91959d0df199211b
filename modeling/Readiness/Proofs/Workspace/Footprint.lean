import Readiness.Proofs.Proof.Footprint
import Readiness.Proofs.Workspace.Rerun
import Readiness.Proofs.Workspace.Status

/-!
# Workspace — the footprint of the commands

What the commands on proofs may do to the entry at each location, whatever the step is called and
whatever the proof files say.

* `proofStates_outdated`: showing what proofs are worth takes away those that are not current.
* `reset_own`: resetting a step takes away its proof, and nothing when there is no such step.
* `Change`, `verify_changes`: what a verification does to the proofs of the step and of its
  prerequisite, and what it makes when it comes to writing a proof.
-/

namespace Readiness.Workspace

-- what the parts of a run come to is said by lemmas
attribute [local irreducible] evaluation Chain.settle Chain.verifyStep ProofStore.check

open FileTree (LosesFiles)

variable {σ : Type} {w : Workspace} {vcs : Vcs} {host : Host σ} {step : String} {stamp : Stamp}
  {s : Scene σ} {plan : StepPlan} {r : Revision} {inner : σ} {store : ProofStore}
  {t t₁ t' : FileTree} {l : Location}

/-! ### Showing and resetting -/

/-- Looking at several proofs takes away the files of those that are not of the commit, at most. -/
theorem checkEach_outdated {steps : List String} (hs : ∀ a ∈ steps, Rulebook.isName a = true)
    (r : Revision) (t : FileTree) :
    LosesFiles (store.Outdated t r.id steps) t (checkEach store r steps t).2 := by
  induction steps generalizing t with
  | nil => exact .refl t
  | cons a steps ih =>
      have hs' := fun b hb => hs b (List.mem_cons_of_mem a hb)
      have ha := ProofStore.check_outdated (hs a List.mem_cons_self) r t (s := store)
      rw [checkEach_cons]
      revert ha
      generalize store.check a r t = x
      obtain ⟨_ | state, t₁⟩ := x
      · refine fun ha => ha.mono fun l ⟨b, hb, hl⟩ => ⟨b, ?_, hl⟩
        rw [List.mem_singleton.mp hb]
        exact List.mem_cons_self
      · exact fun ha => ProofStore.loses_append ha (ih hs' t₁)

/-- Showing what proofs are worth takes away those of steps of the rulebook that are not current. -/
theorem proofStates_outdated (hv : w.rulebook.validate = .ok ()) (vcs : Vcs) (t : FileTree) :
    LosesFiles (fun l => ∃ r, vcs.head = .ok r ∧ w.proofs.Outdated t r.id w.rulebook.names l) t
      (w.proofStates vcs t).2 := by
  unfold proofStates
  cases hh : vcs.head with
  | error e => exact .refl t
  | ok r =>
      exact (checkEach_outdated (fun a ha => Rulebook.isName_of_mem hv ha) r t).mono
        fun l hl => ⟨r, rfl, hl⟩

/-- Resetting a step takes away its proof at most, and nothing when there is no such step. -/
theorem reset_own (hv : w.rulebook.validate = .ok ()) (a : String) (t : FileTree) :
    LosesFiles (fun l => a ∈ w.rulebook.names ∧ l = w.proofs.place a) t
      (w.reset (some a) t).2 := by
  unfold reset
  dsimp only
  by_cases ha : a ∈ w.rulebook.names
  · rw [if_neg fun h => Rulebook.step?_isNone.mp h ha]
    have hl := ProofStore.remove_loses w.proofs a t
    rw [ProofStore.locate_pathFor (Rulebook.isName_of_mem hv ha)] at hl
    have hl : LosesFiles (fun l => a ∈ w.rulebook.names ∧ l = w.proofs.place a) t
        (w.proofs.remove a t).2 := hl.mono fun l hl => ⟨ha, hl⟩
    revert hl
    generalize w.proofs.remove a t = x
    obtain ⟨_ | b, t'⟩ := x <;> exact id
  · rw [if_pos (Rulebook.step?_isNone.mpr ha)]
    exact .refl t

/-! ### Verifying -/

/-- A verification came to writing a proof: it got past the tests and every check passed.  The proof
is there, or the file system was to blame. -/
def Proves (w : Workspace) (vcs : Vcs) (host : Host σ) (step : String) (stamp : Stamp)
    (s : Scene σ) : Prop :=
  ∃ plan r inner previous t, w.Proceeds vcs host step s.inner plan r inner ∧
    w.proofs.check step r s.files = (.ok previous, t) ∧
    (∀ o ∈ (w.evaluation vcs host r plan inner t).1, o.outcome.isPass = true) ∧
    ((∃ run p, (w.verify vcs host step stamp s).1 = .ok (plan, run) ∧ run.proof = some p ∧
        w.proofs.read step (w.verify vcs host step stamp s).2.files = .ok (some p)) ∨
      ∃ i, (w.verify vcs host step stamp s).1 = .error (.io i))

/-- What a verification of a step may do to the entry at a location. -/
inductive Change (w : Workspace) (vcs : Vcs) (host : Host σ) (step : String) (stamp : Stamp)
    (s : Scene σ) (l : Location) : Option Entry → Option Entry → Prop
  | same {e : Option Entry} : Change w vcs host step stamp s l e e
  /-- Its own proof file is made, overwritten or deleted. -/
  | own {e e' : Option Entry} : step ∈ w.rulebook.names → l = w.proofs.place step →
      e ≠ some .directory → e' ≠ some .directory → Change w vcs host step stamp s l e e'
  /-- The proof file of its prerequisite is deleted, which is not current. -/
  | gate {r : Revision} {bytes : ByteArray} : vcs.head = .ok r →
      w.proofs.Outdated s.files r.id (w.rulebook.prerequisite? step).toList l →
      Change w vcs host step stamp s l (some (.file bytes)) none
  /-- The proof directory is made, or its rule, where there was nothing. -/
  | made {e' : Option Entry} : w.Proves vcs host step stamp s → w.proofs.Furnishing l e' →
      Change w vcs host step stamp s l none e'

/-- The checks of a step take away the proof of its prerequisite at most. -/
theorem evaluation_outdated (hv : w.rulebook.validate = .ok ()) (hp : w.plan step = .ok plan)
    (t : FileTree) :
    LosesFiles (w.proofs.Outdated t r.id (w.rulebook.prerequisite? step).toList) t
      (w.evaluation vcs host r plan inner t).2.files := by
  rw [files_evaluation hv hp]
  cases hq : w.rulebook.prerequisite? step with
  | none => exact .refl t
  | some q =>
      exact ProofStore.check_outdated
        (Rulebook.isName_of_mem hv (Rulebook.prerequisite?_mem hv hq).2) r t

/-- When every check passes the evaluation leaves the files alone. -/
theorem files_evaluation_of_passed (hv : w.rulebook.validate = .ok ())
    (hp : w.plan step = .ok plan)
    (ha : ∀ o ∈ (w.evaluation vcs host r plan inner t).1, o.outcome.isPass = true) :
    (w.evaluation vcs host r plan inner t).2.files = t := by
  rw [files_evaluation_gated hv hp,
    gated_current vcs fun q hq => check_prerequisite_of_passed hv hp hq ha]

theorem change_of_loses (hm : step ∈ w.rulebook.names) (hh : vcs.head = .ok r)
    (hl : LosesFiles (fun l => l = w.proofs.place step ∨
      w.proofs.Outdated s.files r.id (w.rulebook.prerequisite? step).toList l) s.files t')
    (l : Location) :
    w.Change vcs host step stamp s l (s.files.get? l) (t'.get? l) := by
  rcases hl l with e | ⟨h, ⟨bytes, hb⟩, hgone⟩
  · rw [e]
    exact .same
  · rw [hb, hgone]
    rcases h with rfl | ho
    · exact .own hm rfl (by simp) (by simp)
    · exact .gate hh ho

/-- Looking at the step's own proof and evaluating its checks takes away these two at most. -/
theorem looked_at (hv : w.rulebook.validate = .ok ()) (hp : w.plan step = .ok plan) (vcs : Vcs)
    (host : Host σ) (r : Revision) (inner : σ) (t : FileTree) :
    LosesFiles (fun l => l = w.proofs.place step ∨
        w.proofs.Outdated t r.id (w.rulebook.prerequisite? step).toList l) t
      (w.evaluation vcs host r plan inner (w.proofs.check step r t).2).2.files := by
  have hn := Rulebook.isName_of_mem hv (Rulebook.mem_of_plan_ok hp)
  refine (ProofStore.loses_append (ProofStore.check_outdated hn r t)
    (evaluation_outdated hv hp _)).mono fun l ⟨a, ha, hl, hout⟩ => ?_
  rcases List.mem_append.mp ha with ha | ha
  · exact .inl (List.mem_singleton.mp ha ▸ hl)
  · exact .inr ⟨a, ha, hl, hout⟩

/-- A verification in which every check passed comes to writing a proof. -/
theorem proves_of_passed (hv : w.rulebook.validate = .ok ())
    (hp : w.Proceeds vcs host step s.inner plan r inner) {previous : ProofState}
    (hc : w.proofs.check step r s.files = (.ok previous, t₁))
    (ha : ∀ o ∈ (w.evaluation vcs host r plan inner t₁).1, o.outcome.isPass = true)
    (stamp : Stamp) :
    w.Proves vcs host step stamp s ∧ (w.verify vcs host step stamp s).2.files =
      (w.proofs.write step plan.checks.length plan.checks.length r stamp t₁).2 := by
  have hzero := Chain.checks_ne_nil hp.checks
  cases hw : w.proofs.write step plan.checks.length plan.checks.length r stamp t₁ with
  | mk written t₃ =>
      have hrun : w.verify vcs host step stamp s = _ :=
        verify_passed hp hc ha (by rw [files_evaluation_of_passed hv hp.planned ha, hw])
      refine ⟨⟨plan, r, inner, previous, t₁, hp, hc, ha, ?_⟩, by rw [hrun]⟩
      rw [hrun]
      cases written with
      | error e =>
          obtain ⟨i, rfl⟩ := ProofStore.write_error hzero hw
          exact .inr ⟨i, rfl⟩
      | ok p =>
          obtain ⟨-, hread, -⟩ := ProofStore.write_ok (isName_of_proceeds hv hp) hzero hw
          exact .inl ⟨_, p, rfl, rfl, hread⟩

section Settled

variable {previous : ProofState} (hv : w.rulebook.validate = .ok ())
  (hp : w.Proceeds vcs host step s.inner plan r inner)
  (hc : w.proofs.check step r s.files = (.ok previous, t₁))

include hv hp hc

/-- Where every check passed, what becomes of an entry is a matter of writing the proof. -/
theorem changes_passed
    (ha : ∀ o ∈ (w.evaluation vcs host r plan inner t₁).1, o.outcome.isPass = true)
    (stamp : Stamp) (l : Location) :
    w.Change vcs host step stamp s l (s.files.get? l)
      ((w.verify vcs host step stamp s).2.files.get? l) := by
  obtain ⟨hproves, hfiles⟩ := proves_of_passed hv hp hc ha stamp
  have hw : w.proofs.Written step l (s.files.get? l)
      ((w.proofs.write step plan.checks.length plan.checks.length r stamp
        (w.proofs.check step r s.files).2).2.get? l) :=
    ProofStore.written_of_check (isName_of_proceeds hv hp) (Chain.checks_ne_nil hp.checks) r stamp
      s.files l
  rw [hc] at hw
  rw [hfiles]
  rcases hw with e | ⟨hl, hd, hd'⟩ | ⟨hnone, hf⟩
  · rw [e]
    exact .same
  · exact .own (Rulebook.mem_of_plan_ok hp.planned) hl hd hd'
  · rw [hnone]
    exact .made hproves hf

/-- Where some check did not pass, the step's own proof goes too, if it is still there. -/
theorem changes_flunked
    (ha : ¬ ∀ o ∈ (w.evaluation vcs host r plan inner t₁).1, o.outcome.isPass = true)
    (stamp : Stamp) (l : Location) :
    w.Change vcs host step stamp s l (s.files.get? l)
      ((w.verify vcs host step stamp s).2.files.get? l) := by
  have hlooked := looked_at hv hp.planned vcs host r inner s.files
  have hrem := ProofStore.remove_loses w.proofs step
    (w.evaluation vcs host r plan inner t₁).2.files
  have hs : Chain.settle w.proofs step
      (.ofOutcomes step (w.evaluation vcs host r plan inner t₁).1) r stamp
      (w.evaluation vcs host r plan inner t₁).2.files = _ :=
    (Chain.settle_eq step _ _).trans (if_neg ha)
  rw [hc] at hlooked
  rw [ProofStore.locate_pathFor (isName_of_proceeds hv hp)] at hrem
  rw [verify_of_check hp hc hs]
  exact change_of_loses (Rulebook.mem_of_plan_ok hp.planned) hp.head
    (hlooked.trans (hrem.mono fun l hl => .inl hl)) l

end Settled

/-- Whatever the step is called, a verification does no more than this to any entry. -/
theorem verify_changes (hv : w.rulebook.validate = .ok ()) (vcs : Vcs) (host : Host σ)
    (step : String) (stamp : Stamp) (s : Scene σ) (l : Location) :
    w.Change vcs host step stamp s l (s.files.get? l)
      ((w.verify vcs host step stamp s).2.files.get? l) := by
  by_cases hp : ∃ plan r inner, w.Proceeds vcs host step s.inner plan r inner
  · obtain ⟨plan, r, inner, hp⟩ := hp
    cases hc : w.proofs.check step r s.files with
    | mk a t₁ =>
        cases a with
        | error e =>
            have hown := ProofStore.check_loses w.proofs step r s.files
            rw [hc, ProofStore.locate_pathFor (isName_of_proceeds hv hp)] at hown
            rw [verify_of_check_error hp hc]
            exact change_of_loses (Rulebook.mem_of_plan_ok hp.planned) hp.head
              (hown.mono fun l hl => .inl hl) l
        | ok previous =>
            by_cases ha : ∀ o ∈ (w.evaluation vcs host r plan inner t₁).1, o.outcome.isPass = true
            · exact changes_passed hv hp hc ha stamp l
            · exact changes_flunked hv hp hc ha stamp l
  · obtain ⟨e, s', hr, hf, -⟩ := verify_refused stamp s hp
    rw [hr, hf]
    exact .same

end Readiness.Workspace

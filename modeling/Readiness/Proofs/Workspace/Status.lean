import Readiness.Proofs.Proof.Directory
import Readiness.Proofs.Rulebook.Plan

/-!
# Workspace — looking at proofs and resetting them

* `proofStates_loses`, `reset_loses`: both take files away at most.
* `checkEach_exact`, `reset_exact`: in an orderly directory, which proofs they take away.
-/

namespace Readiness.Workspace

variable {w : Workspace} {store : ProofStore} {t : FileTree}

section

-- a check of a proof is not looked into here
attribute [local irreducible] ProofStore.check

theorem checkEach_cons (store : ProofStore) (r : Revision) (step : String) (steps : List String)
    (t : FileTree) :
    checkEach store r (step :: steps) t = match store.check step r t with
      | (.error e, t) => (.error e, t)
      | (.ok state, t) =>
        ((checkEach store r steps t).1.map fun states => (step, state) :: states,
          (checkEach store r steps t).2) := rfl

end

theorem checkEach_loses (store : ProofStore) (r : Revision) (steps : List String)
    (t : FileTree) : FileTree.LosesFiles store.IsPath t (checkEach store r steps t).2 := by
  induction steps generalizing t with
  | nil => exact .refl t
  | cons a steps ih =>
      have h : FileTree.LosesFiles store.IsPath t (store.check a r t).2 :=
        (ProofStore.check_loses store a r t).mono fun l hl => ⟨a, hl⟩
      rw [checkEach_cons]
      revert h
      generalize store.check a r t = x
      obtain ⟨_ | state, t'⟩ := x
      · exact id
      · exact fun h => h.trans (ih t')

/-- Showing what proofs are worth takes files away at most. -/
theorem proofStates_loses (w : Workspace) (vcs : Vcs) (t : FileTree) :
    FileTree.LosesFiles w.proofs.IsPath t (w.proofStates vcs t).2 := by
  unfold proofStates
  split
  · exact .refl t
  · exact checkEach_loses _ _ _ t

theorem reset_loses (w : Workspace) (step : Option String) (t : FileTree) :
    FileTree.LosesFiles w.proofs.IsPath t (w.reset step t).2 := by
  cases step with
  | none => exact ProofStore.clear_loses w.proofs t
  | some a =>
      have h : FileTree.LosesFiles w.proofs.IsPath t (w.proofs.remove a t).2 :=
        (ProofStore.remove_loses w.proofs a t).mono fun l hl => ⟨a, hl⟩
      unfold reset
      dsimp only
      split
      · exact .refl t
      · revert h
        generalize w.proofs.remove a t = x
        obtain ⟨_ | b, t'⟩ := x <;> exact id

/-- In an orderly directory with nothing in the way every step gets its state, and the proofs of
these steps that are not current are deleted. -/
theorem checkEach_exact (ho : store.Orderly t) (hf : store.Free t) (r : Revision)
    {steps : List String} (hs : ∀ a ∈ steps, Rulebook.isName a = true) :
    ∃ states t', checkEach store r steps t = (.ok states, t') ∧ states.map (·.1) = steps ∧
      store.Orderly t' ∧
      (∀ x ∈ states, x.2.isCurrent = true ↔ store.Has t x.1 r.id) ∧
      ∀ a commit, store.Has t' a commit ↔
        store.Has t a commit ∧ (a ∈ steps → commit = r.id) := by
  induction steps generalizing t with
  | nil => exact ⟨[], t, rfl, rfl, ho, by simp, by simp⟩
  | cons b steps ih =>
      have hl := ProofStore.check_loses store b r t
      obtain ⟨answer, t₁, hc, ho₁, hh₁, hd⟩ :=
        ProofStore.check_exact ho (hs b List.mem_cons_self) r
      obtain ⟨state, rfl, hcur⟩ := hd.resolve_right fun hd => hf.ne b hd.1
      rw [hc] at hl
      obtain ⟨states, t₂, he, hm, ho₂, hst, hh₂⟩ :=
        ih ho₁ (hf.of_loses hl) fun a ha => hs a (List.mem_cons_of_mem b ha)
      refine ⟨(b, state) :: states, t₂, ?_, congrArg (b :: ·) hm, ho₂, ?_, fun a commit => ?_⟩
      · rw [checkEach_cons, hc]
        dsimp only
        rw [he]
        rfl
      · intro x hx
        rcases List.mem_cons.mp hx with rfl | hx
        · exact hcur
        · rw [hst x hx, hh₁]
          simp
      · rw [hh₂, hh₁, List.mem_cons, or_imp, and_assoc]

/-- In an orderly directory with nothing in the way a reset deletes what it is asked to, of the
steps there are. -/
theorem reset_exact (hv : w.rulebook.validate = .ok ()) (ho : w.proofs.Orderly t)
    (hf : w.proofs.Free t) (step : Option String) :
    w.proofs.Orderly (w.reset step t).2 ∧ ∀ a ∈ w.rulebook.names, ∀ commit,
      (w.proofs.Has (w.reset step t).2 a commit ↔
        w.proofs.Has t a commit ∧ ¬ (step = none ∨ step = some a)) := by
  cases step with
  | none =>
      obtain ⟨ho', hn⟩ := ProofStore.clear_exact ho hf
      refine ⟨ho', fun a _ commit => ?_⟩
      exact iff_of_false (hn a commit) fun h => h.2 (.inl rfl)
  | some b =>
      by_cases hb : b ∈ w.rulebook.names
      · obtain ⟨answer, t', hr, ho', hh, hd⟩ :=
          ProofStore.remove_exact ho (Rulebook.isName_of_mem hv hb)
        obtain ⟨gone, rfl⟩ := hd.resolve_right fun hd => hf.ne b hd.1
        have he : w.reset (some b) t = (.ok (if gone then 1 else 0), t') := by
          unfold reset
          dsimp only
          rw [if_neg fun h => Rulebook.step?_isNone.mp h hb, hr]
        rw [he]
        refine ⟨ho', fun a _ commit => ?_⟩
        rw [hh]
        simp [eq_comm]
      · have he : w.reset (some b) t = (.error (.unknownStep b), t) := by
          unfold reset
          exact if_pos (Rulebook.step?_isNone.mpr hb)
        rw [he]
        refine ⟨ho, fun a ha commit => ?_⟩
        have hne : b ≠ a := fun h => hb (h ▸ ha)
        simp [hne]

end Readiness.Workspace

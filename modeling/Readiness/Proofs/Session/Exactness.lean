import Readiness.Proofs.Rulebook.Listing
import Readiness.Proofs.Rulebook.Validation
import Readiness.Proofs.Session.Basic

/-!
# Session — when a step is verified

* `Moment.Disturbs`: a command takes away a step's proof of a commit.
* `has_after`: a command leaves a proof if it makes it, or if it was there and is not disturbed.
* `has_iff`: a step has a proof just when a verification passed and nothing disturbed it since.
* `status_exact`: this is what the proofs are said to be worth, as long as the file system is not at
  fault.
-/

namespace Readiness

variable {σ : Type} {w : Workspace} {start t t' : FileTree} {ms : List (Moment σ)}
  {step commit : String}

/-- The command takes away the proof that a step may have of a commit: a verification of the step in
which some check did not pass; a verification that looks at the proof while HEAD is elsewhere, of
the step or of one that it gates; a look at all proofs while HEAD is elsewhere; a reset. -/
def Moment.Disturbs (w : Workspace) (m : Moment σ) (step commit : String) : Prop :=
  match m.act with
  | .verify o b =>
    (b = step ∧ (w.during o).Flunked o.vcs o.host b o.stamp ⟨o.inner, m.files⟩) ∨
      (b = step ∨ w.rulebook.prerequisite? b = some step) ∧ ∃ plan r inner,
        (w.during o).Proceeds o.vcs o.host b o.inner plan r inner ∧ r.id ≠ commit
  | .status vcs => ∃ r, vcs.head = .ok r ∧ r.id ≠ commit
  | .reset b => b = none ∨ b = some step

/-! ### Verifications -/

/-- What a verification that got past the tests does to every proof. -/
theorem Workspace.has_verify (stamp : Stamp) (hv : w.rulebook.validate = .ok ()) {vcs : Vcs}
    {host : Host σ} {s : Scene σ} (ho : w.proofs.Orderly s.files) (hf : w.proofs.Free s.files)
    {b : String} {plan : StepPlan} {r : Revision} {inner : σ}
    (hp : w.Proceeds vcs host b s.inner plan r inner) :
    w.proofs.Orderly (w.verify vcs host b stamp s).2.files ∧ ∀ a commit,
      (w.proofs.Has (w.verify vcs host b stamp s).2.files a commit ↔
        (b = a ∧ r.id = commit ∧ w.Passed vcs host b stamp s) ∨
          w.proofs.Has s.files a commit ∧ ¬ (b = a ∧ w.Flunked vcs host b stamp s) ∧
            ¬ ((b = a ∨ w.rulebook.prerequisite? b = some a) ∧ r.id ≠ commit)) := by
  obtain ⟨ho', he⟩ := Workspace.verify_exact stamp hv ho hp
  refine ⟨ho', fun a commit => ?_⟩
  have hsurv : w.Survives b r a commit ↔
      ¬ ((b = a ∨ w.rulebook.prerequisite? b = some a) ∧ r.id ≠ commit) := by
    rw [Workspace.Survives, not_and_not_right, eq_comm (a := a), eq_comm (a := commit)]
  rw [← hsurv]
  generalize hx : (w.verify vcs host b stamp s).1 = answer at he
  rcases he with ⟨hd, -⟩ | hh | ⟨ha, hres, hh⟩ | ⟨ha, hres, hh⟩
  · -- nothing is in the way of a proof
    exact absurd hd (hf.ne b)
  · obtain ⟨hpass, hflunk⟩ := Workspace.not_passed_of_error hx
    simp [hh, hpass, hflunk]
  · obtain ⟨hpass, hflunk⟩ := Workspace.passed_iff hv hx
    rw [hres] at hpass hflunk
    rw [hh, hpass.trans (iff_true_intro ha), hflunk.trans (iff_false_intro (not_not_intro ha))]
    by_cases hab : a = b
    · subst hab
      rw [if_pos rfl]
      constructor
      · exact fun h => .inl ⟨rfl, h.symm, trivial⟩
      · rintro (⟨-, h, -⟩ | ⟨-, -, h⟩)
        · exact h.symm
        · exact h (.inl rfl)
    · simp [hab, Ne.symm hab]
  · obtain ⟨hpass, hflunk⟩ := Workspace.passed_iff hv hx
    rw [hres] at hpass hflunk
    rw [hh, hpass.trans (iff_false_intro ha), hflunk.trans (iff_true_intro ha), eq_comm (a := b)]
    simp only [and_false, and_true, false_or]
    rw [and_assoc, and_comm (a := w.Survives b r a commit)]

/-! ### Every command -/

/-- A command leaves a proof of a commit if it makes it, or if the proof was there and the command
does not disturb it. -/
theorem Act.has_after (hv : w.rulebook.validate = .ok ()) (ho : w.proofs.Orderly t)
    (hf : w.proofs.Free t) (a : Act σ) :
    w.proofs.Orderly (a.after w t) ∧ ∀ step ∈ w.rulebook.names, ∀ commit,
      (w.proofs.Has (a.after w t) step commit ↔
        Moment.Passes w ⟨t, a⟩ step commit ∨
          w.proofs.Has t step commit ∧ ¬ Moment.Disturbs w ⟨t, a⟩ step commit) := by
  cases a with
  | verify o b =>
      simp only [Moment.passes_verify]
      by_cases hp : ∃ plan r inner, (w.during o).Proceeds o.vcs o.host b o.inner plan r inner
      · obtain ⟨plan, r, inner, hp⟩ := hp
        obtain ⟨ho', hh⟩ := Workspace.has_verify (w := w.during o) (s := ⟨o.inner, t⟩) o.stamp
          hv ho hf hp
        refine ⟨ho', fun step _ commit => ?_⟩
        have hr : (∃ r', o.vcs.head = .ok r' ∧ r'.id = commit) ↔ r.id = commit := by
          rw [hp.head]; simp
        have hl : (∃ plan r' inner, (w.during o).Proceeds o.vcs o.host b o.inner plan r' inner ∧
            r'.id ≠ commit) ↔ r.id ≠ commit := by
          constructor
          · rintro ⟨_, r', _, hp', hne⟩
            rwa [← Except.ok.inj (hp'.head.symm.trans hp.head)]
          · exact fun hne => ⟨plan, r, inner, hp, hne⟩
        rw [hr, Moment.Disturbs, not_or]
        dsimp only
        rw [hl]
        exact hh step commit
      · obtain ⟨e, s', he, hf, -⟩ := Workspace.verify_refused o.stamp ⟨o.inner, t⟩ hp
        have hs : Act.after w t (.verify o b) = t := (congrArg (·.2.files) he).trans hf
        obtain ⟨hpass, hflunk⟩ := Workspace.not_passed_of_error (congrArg (·.1) he)
        rw [hs]
        refine ⟨ho, fun step _ commit => ?_⟩
        have hd : ¬ Moment.Disturbs w ⟨t, .verify o b⟩ step commit := by
          rintro (⟨-, hf⟩ | ⟨-, plan, r, inner, hp', -⟩)
          · exact hflunk hf
          · exact hp ⟨plan, r, inner, hp'⟩
        simp [hpass, hd]
  | status vcs =>
      cases hh : vcs.head with
      | error e =>
          have hs : (Act.status vcs : Act σ).after w t = t := by
            rw [Act.after]; unfold Workspace.proofStates; rw [hh]
          rw [hs]
          refine ⟨ho, fun step _ commit => ?_⟩
          simp [Moment.Passes, Moment.Disturbs, hh]
      | ok r =>
          obtain ⟨states, t', he, -, ho', -, hh'⟩ :=
            Workspace.checkEach_exact ho hf r fun a ha => Rulebook.isName_of_mem hv ha
          have hs : (Act.status vcs : Act σ).after w t = t' := by
            rw [Act.after]; unfold Workspace.proofStates; rw [hh]; exact congrArg (·.2) he
          rw [hs]
          refine ⟨ho', fun step hm commit => ?_⟩
          rw [hh']
          simp [Moment.Passes, Moment.Disturbs, hh, hm, eq_comm]
  | reset b =>
      obtain ⟨ho', hh⟩ := Workspace.reset_exact hv ho hf b
      refine ⟨ho', fun step hs commit => ?_⟩
      rw [Act.after, hh step hs commit, Moment.Disturbs]
      simp [Moment.Passes]

theorem Act.free_after (hv : w.rulebook.validate = .ok ()) (hf : w.proofs.Free t) (a : Act σ) :
    w.proofs.Free (a.after w t) := by
  cases a with
  | verify o b => exact Workspace.verify_free (w := w.during o) (s := ⟨o.inner, t⟩) o.stamp hv hf
  | status vcs => exact hf.of_loses (w.proofStates_loses vcs t)
  | reset b => exact hf.of_loses (w.reset_loses b t)

/-! ### Whole sessions -/

namespace Session

/-- A command made the step's proof of the commit, and since the latest one nothing disturbed it.
`Makes` tells which commands do. -/
def Standing (Makes : Moment σ → Prop) (w : Workspace) (ms : List (Moment σ))
    (step commit : String) : Prop :=
  ∃ pre m post, ms = pre ++ m :: post ∧ Makes m ∧
    ∀ m' ∈ post, ¬ Makes m' ∧ ¬ m'.Disturbs w step commit

variable {Makes Makes' : Moment σ → Prop}

theorem not_standing_nil : ¬ Standing Makes w [] step commit := by
  rintro ⟨pre, m, post, h, -⟩
  simp at h

theorem standing_snoc (ms : List (Moment σ)) (m : Moment σ) :
    Standing Makes w (ms ++ [m]) step commit ↔
      Makes m ∨ Standing Makes w ms step commit ∧ ¬ m.Disturbs w step commit := by
  constructor
  · rintro ⟨pre, m', post, h, hp, hq⟩
    -- the command that stands is the last one, or it stood before
    rcases List.eq_nil_or_concat post with rfl | ⟨post, m'', rfl⟩
    · obtain ⟨-, h⟩ := List.append_inj' h rfl
      cases h
      exact .inl hp
    · have h' : ms ++ [m] = (pre ++ m' :: post) ++ [m''] := by simpa using h
      obtain ⟨rfl, h''⟩ := List.append_inj' h' rfl
      cases h''
      exact .inr ⟨⟨pre, m', post, rfl, hp, fun x hx => hq x (by simp [hx])⟩,
        (hq m (by simp)).2⟩
  · intro h
    by_cases hp : Makes m
    · exact ⟨ms, m, [], rfl, hp, by simp⟩
    · obtain ⟨⟨pre, m', post, rfl, hp', hq⟩, hd⟩ := h.resolve_left hp
      refine ⟨pre, m', post ++ [m], by simp, hp', fun x hx => ?_⟩
      rcases List.mem_append.mp hx with hx | hx
      · exact hq x hx
      · obtain rfl := List.mem_singleton.mp hx
        exact ⟨hp, hd⟩

theorem standing_congr (h : ∀ m, Makes m ↔ Makes' m) :
    Standing Makes w ms step commit ↔ Standing Makes' w ms step commit := by
  simp only [Standing, h]

/-- In every state of a session that begins without proofs the directory is in order with nothing in
the way, and a step has a proof of a commit just when one stands. -/
theorem has_iff (hv : w.rulebook.validate = .ok ())
    (hs : Session w w.proofs.LeavesAlone start ms t) (hr : w.proofs.Ready start)
    (hn : ∀ a, start.get? (w.proofs.place a) = none) :
    w.proofs.Orderly t ∧ w.proofs.Free t ∧ ∀ step ∈ w.rulebook.names, ∀ commit,
      (w.proofs.Has t step commit ↔
        Standing (·.Passes w step commit) w ms step commit) := by
  induction hs with
  | start =>
      refine ⟨.of_none hn, .of_none hr hn, fun step _ commit => ?_⟩
      exact iff_of_false (ProofStore.not_has_of_none (hn step) commit) not_standing_nil
  | edit _ he ih =>
      obtain ⟨ho, hf, hh⟩ := ih
      refine ⟨ho.of_leavesAlone he, hf.of_leavesAlone he, fun step hm commit => ?_⟩
      exact (ProofStore.Has.congr (he.spares step)).trans (hh step hm commit)
  | act a _ ih =>
      obtain ⟨ho, hf, hh⟩ := ih
      obtain ⟨ho', hh'⟩ := a.has_after hv ho hf
      refine ⟨ho', a.free_after hv hf, fun step hm commit => ?_⟩
      rw [hh' step hm, hh step hm, standing_snoc]

/-- What proofs are said to be worth is exact.  In every state of a session that begins without
proofs, and with HEAD at any commit, each step of the rulebook is said to be verified just when in
some verification of it at this commit every check passed and no fault of the file system ended the
run, and nothing disturbed its proof since the latest one.  A verification that ends without an
answer, other than by such a fault, changes nothing. -/
theorem status_exact (hv : w.rulebook.validate = .ok ())
    (hs : Session w w.proofs.LeavesAlone start ms t) (hr : w.proofs.Ready start)
    (hn : ∀ a, start.get? (w.proofs.place a) = none) {vcs : Vcs} {r : Revision}
    (hh : vcs.head = .ok r) :
    (∃ states t', w.proofStates vcs t = (.ok states, t') ∧
        states.map (·.1) = w.rulebook.names ∧
        ∀ x ∈ states, x.2.isCurrent = true ↔
          Standing (fun m => m.AllPass w x.1 r.id ∧ ¬ m.Broken w) w ms x.1 r.id) ∧
      ∀ (o : Occasion σ) (step : String) (e : Failure), (o.verify w step t).1 = .error e →
        (∀ i, e ≠ .io i) → (o.verify w step t).2.files = t := by
  obtain ⟨ho, hf, hstand⟩ := has_iff hv hs hr hn
  refine ⟨?_, fun o step e he hio => Workspace.files_of_error he hio⟩
  obtain ⟨states, t', he, hm, -, hcur, -⟩ :=
    Workspace.checkEach_exact ho hf r fun a ha => Rulebook.isName_of_mem hv ha
  refine ⟨states, t', ?_, hm, fun x hx => ?_⟩
  · unfold Workspace.proofStates
    rw [hh]
    exact he
  · rw [hcur x hx, ← standing_congr fun m => Moment.passes_iff]
    exact hstand x.1 (hm ▸ List.mem_map_of_mem hx) r.id

theorem Small.ready : Small.workspace.proofs.Ready Small.start :=
  ProofStore.ready_of_not_mem (by decide)

/-- In the small workspace `status` tells what the two verifications came to. -/
theorem status_exact_small :
    (∃ states t', Small.workspace.proofStates Small.vcs Small.done = (.ok states, t') ∧
        states.map (·.1) = ["a", "b"] ∧
        ∀ x ∈ states, x.2.isCurrent = true ↔
          Standing (fun m => m.AllPass Small.workspace x.1 "c0" ∧ ¬ m.Broken Small.workspace)
            Small.workspace Small.moments x.1 "c0") ∧
      ∀ (o : Occasion Unit) (step : String) (e : Failure),
        (o.verify Small.workspace step Small.done).1 = .error e → (∀ i, e ≠ .io i) →
          (o.verify Small.workspace step Small.done).2.files = Small.done :=
  status_exact (r := Small.revision) Small.validate_rulebook (Small.session _) Small.ready
    Small.start_none rfl

/-! ### Why the file system matters -/

/-- A workspace with one step. -/
def Small.single (a : String) : Workspace := ⟨"/", ⟨.standard, [stepDef a]⟩, ⟨"/p"⟩, .unknown⟩

theorem Small.validate_single {a : String} (ha : Rulebook.isName a = true) :
    (single a).rulebook.validate = .ok () := by
  refine Rulebook.validate_eq_ok.mpr ?_
  have hb : Rulebook.breachOf [] (stepDef a) = none := by
    rw [Rulebook.breachOf, show (stepDef a).name = a from rfl, ha]
    rfl
  show Rulebook.breachIn [] [stepDef a] = none
  rw [Rulebook.breachIn, hb, Rulebook.breachIn]

/-- Where its name makes that of its proof too long for a file, it never has a proof. -/
theorem Small.not_opens {a : String} (hl : 242 < a.utf8ByteSize) (t : FileTree) :
    ¬ (single a).proofs.Opens t a := by
  intro ho
  have hs := ho.short
  rw [ProofFile.name, String.utf8ByteSize_append, String.utf8ByteSize_append,
    String.utf8ByteSize_append, show ProofFile.start.utf8ByteSize = 7 by decide,
    show ("." : String).utf8ByteSize = 1 by decide,
    show ProofFile.extension.utf8ByteSize = 5 by decide, FileTree.nameMax] at hs
  omega

theorem Small.check_single {a : String} (ha : Rulebook.isName a = true)
    (hl : 242 < a.utf8ByteSize) (r : Revision) (t : FileTree) :
    (single a).proofs.check a r t = (.ok .missing, t) :=
  ProofStore.check_missing ha r fun ho => absurd ho (not_opens hl t)

theorem Small.allPass_single {a : String} (ha : Rulebook.isName a = true)
    (hl : 242 < a.utf8ByteSize) (t : FileTree) :
    Moment.AllPass (single a) ⟨t, .verify occasion a⟩ a "c0" := by
  have hp : (single a).rulebook.plan a .unknown = .ok _ :=
    Rulebook.plan_of_getElem? (validate_single ha) (i := 0) (s := stepDef a) rfl .unknown
  refine ⟨occasion, rfl, ⟨revision, rfl, rfl⟩, _, revision, (), ⟨hp, rfl, rfl, rfl⟩,
    ⟨.missing, congrArg Prod.fst (check_single ha hl revision t)⟩, fun c hc => ?_⟩
  obtain rfl := List.mem_singleton.mp hc
  rfl

theorem Small.standing_single {a : String} (ha : Rulebook.isName a = true)
    (hl : 242 < a.utf8ByteSize) (t : FileTree) :
    Standing (·.AllPass (single a) a "c0") (single a) [⟨t, .verify occasion a⟩] a "c0" :=
  ⟨[], _, [], rfl, allPass_single ha hl t, List.forall_mem_nil _⟩

theorem Small.proofStates_single {a : String} (ha : Rulebook.isName a = true)
    (hl : 242 < a.utf8ByteSize) (t : FileTree) :
    (single a).proofStates vcs t = (.ok [(a, .missing)], t) := by
  have hnames : (single a).rulebook.steps.map (·.name) = [a] := rfl
  unfold Workspace.proofStates
  rw [show vcs.head = .ok revision from rfl]
  dsimp only
  rw [hnames, Workspace.checkEach_cons, check_single ha hl]
  rfl

/-- A name of that many letters. -/
def Small.lengthy (n : Nat) : String := String.ofList (List.replicate n 'a')

theorem Small.isName_lengthy {n : Nat} (hn : n ≠ 0) : Rulebook.isName (lengthy n) = true := by
  have hne : lengthy n ≠ "" := fun h => by
    have hl := congrArg String.toList h
    rw [lengthy, String.toList_ofList] at hl
    exact hn (List.replicate_eq_nil_iff 'a' |>.mp hl)
  rw [Rulebook.isName, bne_iff_ne.mpr hne, lengthy, String.toList_ofList, List.all_replicate,
    if_neg hn]
  rfl

/-- That every check passed is not enough: where the name of the proof is too long for a file, the
run cannot be completed and the step is not verified. -/
theorem not_current_iff_allPass : ¬ ∀ (w : Workspace) (start t : FileTree)
    (ms : List (Moment Unit)) (vcs : Vcs) (r : Revision), w.rulebook.validate = .ok () →
      Session w w.proofs.LeavesAlone start ms t → w.proofs.Ready start →
      (∀ a, start.get? (w.proofs.place a) = none) → vcs.head = .ok r →
      ∀ states t', w.proofStates vcs t = (.ok states, t') → ∀ x ∈ states,
        (x.2.isCurrent = true ↔ Standing (·.AllPass w x.1 r.id) w ms x.1 r.id) := by
  intro h
  have hl : 242 < (Small.lengthy 243).utf8ByteSize := by decide +kernel
  have ha := Small.isName_lengthy (n := 243) (by decide)
  generalize Small.lengthy 243 = a at hl ha
  have hs : Session (Small.single a) (Small.single a).proofs.LeavesAlone Small.start
      [⟨Small.start, .verify Small.occasion a⟩] _ := .act (.verify Small.occasion a) .start
  have hiff := h (Small.single a) Small.start _ _ Small.vcs Small.revision
    (Small.validate_single ha) hs Small.ready Small.start_none rfl _ _
    (Small.proofStates_single ha hl _) (a, .missing) (List.mem_singleton.mpr rfl)
  cases hiff.mpr (Small.standing_single ha hl Small.start)

end Session

end Readiness

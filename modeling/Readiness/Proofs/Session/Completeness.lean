import Mathlib.Data.List.Basic
import Readiness.Proofs.Session.Exactness

/-!
# Session — which steps get verified

Sessions of verifications alone, at one commit, in which every check passes that is evaluated and is
no gate.  What is left to decide is the order.

* `Moment.Succeeds`: a command is such a verification.
* `has_iff_sublist`: a step has a proof just when its chain was gone through, in order.
* `current_iff_sublist`: so it is for current proofs, as long as the file system is not at fault.
-/

namespace Readiness

variable {σ : Type} {w : Workspace} {start t t' : FileTree} {ms : List (Moment σ)}
  {stack : Stack} {step commit : String}

namespace Moment

/-- The command is a verification of a step of the rulebook, for the stack, with HEAD at the commit
and the host at hand, in which every check of the step's own that is evaluated passes. -/
def Succeeds (w : Workspace) (stack : Stack) (commit : String) (m : Moment σ) : Prop :=
  ∃ o step, m.act = .verify o step ∧ step ∈ w.rulebook.names ∧ o.stack = stack ∧
    (∃ r, o.vcs.head = .ok r ∧ r.id = commit) ∧ (o.host.isAvailable o.inner).1 = true ∧
    (w.during o).OwnPass o.vcs o.host step ⟨o.inner, m.files⟩

/-- The step that the command was to verify. -/
def called? (m : Moment σ) : Option String :=
  match m.act with
  | .verify _ step => some step
  | _ => none

/-- The step that the command verified or failed to verify, unless the file system was at fault. -/
def settled? (w : Workspace) (m : Moment σ) : Option String :=
  match m.act with
  | .verify o step =>
    match (o.verify w step m.files).1 with
    | .error (.io _) => none
    | _ => some step
  | _ => none

end Moment

/-- The steps that were verified or failed to be, in order. -/
def Session.settled (w : Workspace) (ms : List (Moment σ)) : List String :=
  ms.filterMap (·.settled? w)

/-! ### Chains in a sequence of calls -/

theorem Rulebook.Chain.eq_append {r : Rulebook} {a : String} {l : List String}
    (h : r.Chain a l) : ∃ l', l = l' ++ [a] ∧
      (r.prerequisite? a = none ∧ l' = [] ∨ ∃ q, r.prerequisite? a = some q ∧ r.Chain q l') := by
  cases h with
  | first hn => exact ⟨[], rfl, .inl ⟨hn, rfl⟩⟩
  | next hp hc => exact ⟨_, rfl, .inr ⟨_, hp, hc⟩⟩

theorem append_singleton_sublist {α : Type} {l d : List α} {a b : α} :
    (l ++ [a]).Sublist (d ++ [b]) ↔ (l ++ [a]).Sublist d ∨ a = b ∧ l.Sublist d := by
  have h : (a :: l.reverse).Sublist (b :: d.reverse) ↔
      (a :: l.reverse).Sublist d.reverse ∨ a = b ∧ l.reverse.Sublist d.reverse :=
    List.cons_sublist_cons'
  rwa [← List.reverse_concat, ← List.reverse_concat, List.reverse_sublist, List.reverse_sublist,
    List.reverse_sublist] at h

/-! ### One verification -/

namespace Session

theorem proceeds_of_succeeds {o : Occasion σ} {r : Revision}
    (hc : ∀ step ∈ w.rulebook.names, ∀ plan, w.rulebook.plan step stack = .ok plan →
      plan.hasOwnChecks = true)
    (hm : step ∈ w.rulebook.names) (hst : o.stack = stack) (hr : o.vcs.head = .ok r)
    (hh : (o.host.isAvailable o.inner).1 = true) :
    ∃ plan inner, (w.during o).Proceeds o.vcs o.host step o.inner plan r inner := by
  obtain ⟨plan, hplan⟩ := Rulebook.plan_of_mem hm stack
  have hready : ∃ inner, Workspace.hostReady o.host plan o.inner = (true, inner) := by
    rw [Workspace.hostReady]
    split
    · exact ⟨_, Prod.ext hh rfl⟩
    · exact ⟨o.inner, rfl⟩
  obtain ⟨inner, hi⟩ := hready
  exact ⟨plan, inner, by rw [← hplan, ← hst]; rfl, hr, hi, hc step hm plan hplan⟩

/-- What a verification whose own checks pass adds: its step, if the prerequisite is there and the
file system is not at fault. -/
theorem has_verify_of_ownPass (hv : w.rulebook.validate = .ok ()) (ho : w.proofs.Orderly t)
    (hone : ∀ a c, w.proofs.Has t a c → c = commit) {o : Occasion σ} {r : Revision}
    (hr : r.id = commit) {plan : StepPlan} {inner : σ}
    (hp : (w.during o).Proceeds o.vcs o.host step o.inner plan r inner)
    (hown : (w.during o).OwnPass o.vcs o.host step ⟨o.inner, t⟩) :
    w.proofs.Orderly (o.verify w step t).2.files ∧
      (∀ a c, w.proofs.Has (o.verify w step t).2.files a c → c = commit) ∧
      (Moment.settled? w ⟨t, .verify o step⟩ = none ∧
          (∀ a, w.proofs.Has (o.verify w step t).2.files a commit ↔ w.proofs.Has t a commit) ∨
        Moment.settled? w ⟨t, .verify o step⟩ = some step ∧
          ∀ a, w.proofs.Has (o.verify w step t).2.files a commit ↔
            if a = step then
              ∀ q, w.rulebook.prerequisite? step = some q → w.proofs.Has t q commit
            else w.proofs.Has t a commit) := by
  subst hr
  obtain ⟨ho', he⟩ :=
    Workspace.verify_exact (w := w.during o) (s := ⟨o.inner, t⟩) o.stamp hv ho hp
  have hpass := Workspace.isPass_evaluation_iff (w := w.during o) (s := ⟨o.inner, t⟩) hv ho hp hown
  -- every proof is of the one commit, so no look at it deletes it
  have hstay : ∀ a c, w.proofs.Has t a c ∧ (w.during o).Survives step r a c ↔
      w.proofs.Has t a c := fun a c => and_iff_left_of_imp fun h _ => hone a c h
  refine ⟨ho', ?_⟩
  have hset : Moment.settled? w ⟨t, .verify o step⟩ = match (o.verify w step t).1 with
      | .error (.io _) => none
      | _ => some step := rfl
  rw [hset]
  change (∀ a c, w.proofs.Has (o.verify w step t).2.files a c → _) ∧ _
  generalize hx : ((w.during o).verify o.vcs o.host step o.stamp ⟨o.inner, t⟩).1 = answer at he
  rw [show (o.verify w step t).1 = answer from hx]
  rcases he with ⟨-, hfiles⟩ | hh | ⟨ha, -, hh⟩ | ⟨ha, -, hh⟩
  · have hfiles : (o.verify w step t).2.files = t := hfiles
    rw [hfiles]
    exact ⟨hone, .inl ⟨rfl, fun a => Iff.rfl⟩⟩
  · have hh : ∀ a c, w.proofs.Has (o.verify w step t).2.files a c ↔ w.proofs.Has t a c :=
      fun a c => (hh a c).trans (hstay a c)
    exact ⟨fun a c h => hone a c ((hh a c).mp h), .inl ⟨rfl, fun a => hh a r.id⟩⟩
  · have hh : ∀ a c, w.proofs.Has (o.verify w step t).2.files a c ↔
        if a = step then c = r.id else w.proofs.Has t a c := fun a c => by
      rw [← hstay a c]; exact hh a c
    refine ⟨fun a c h => ?_, .inr ⟨rfl, fun a => ?_⟩⟩
    · rw [hh] at h
      split at h
      · exact h
      · exact hone a c h
    · rw [hh]
      split
      · exact iff_of_true rfl (hpass.mp ha)
      · exact Iff.rfl
  · have hh : ∀ a c, w.proofs.Has (o.verify w step t).2.files a c ↔
        w.proofs.Has t a c ∧ a ≠ step := fun a c => by
      rw [← hstay a c]; exact hh a c
    refine ⟨fun a c h => hone a c ((hh a c).mp h).1, .inr ⟨rfl, fun a => ?_⟩⟩
    rw [hh]
    by_cases has : a = step
    · rw [if_pos has]
      exact iff_of_false (fun h => h.2 has) fun h => ha (hpass.mpr h)
    · rw [if_neg has]
      exact and_iff_left has

/-- In every state of a session of verifications whose own checks pass, a step has a proof just
when its chain was gone through, in order. -/
theorem has_iff_sublist (hv : w.rulebook.validate = .ok ())
    (hc : ∀ step ∈ w.rulebook.names, ∀ plan, w.rulebook.plan step stack = .ok plan →
      plan.hasOwnChecks = true)
    (hs : Session w w.proofs.LeavesAlone start ms t)
    (hn : ∀ a, start.get? (w.proofs.place a) = none)
    (hm : ∀ m ∈ ms, m.Succeeds w stack commit) :
    w.proofs.Orderly t ∧ (∀ a c, w.proofs.Has t a c → c = commit) ∧
      ∀ a l, w.rulebook.Chain a l → a ∈ w.rulebook.names →
        (w.proofs.Has t a commit ↔ l.Sublist (settled w ms)) := by
  induction hs with
  | start =>
      refine ⟨.of_none hn, fun a c h => absurd h (ProofStore.not_has_of_none (hn a) c),
        fun a l hl _ => ?_⟩
      obtain ⟨l', rfl, -⟩ := hl.eq_append
      exact iff_of_false (ProofStore.not_has_of_none (hn a) commit) (by simp [settled])
  | edit _ he ih =>
      obtain ⟨ho, hone, hh⟩ := ih hm
      refine ⟨ho.of_leavesAlone he, fun a c h => ?_,
        fun a l hl ha => ?_⟩
      · exact hone a c ((ProofStore.Has.congr (he.spares a)).mp h)
      · exact (ProofStore.Has.congr (he.spares a)).trans (hh a l hl ha)
  | @act ms t a _ ih =>
      obtain ⟨ho, hone, hh⟩ := ih fun m h => hm m (List.mem_append_left _ h)
      obtain ⟨o, step, hact, hstep, hst, ⟨r, hr, rfl⟩, hhost, hown⟩ :=
        hm ⟨t, a⟩ (by simp)
      obtain rfl : a = .verify o step := hact
      obtain ⟨plan, inner, hp⟩ := proceeds_of_succeeds hc hstep hst hr hhost
      obtain ⟨ho', hone', hset⟩ := has_verify_of_ownPass hv ho hone rfl hp hown
      refine ⟨ho', hone', fun a l hl ha => ?_⟩
      have hsnoc : settled w (ms ++ [⟨t, .verify o step⟩]) =
          settled w ms ++ (Moment.settled? w ⟨t, .verify o step⟩).toList := by
        rw [settled, List.filterMap_append]
        rfl
      rw [hsnoc]
      rcases hset with ⟨hnone, hsame⟩ | ⟨hsome, hnew⟩
      · rw [hnone, Option.toList_none, List.append_nil]
        exact (hsame a).trans (hh a l hl ha)
      · -- a step that was called has a proof just if its prerequisite has one by now
        rw [hsome, Option.toList_some, Act.after, hnew]
        obtain ⟨l', rfl, hl'⟩ := hl.eq_append
        rw [append_singleton_sublist]
        by_cases has : a = step
        · rw [if_pos has]
          subst has
          rcases hl' with ⟨hfirst, rfl⟩ | ⟨q, hq, hlq⟩
          · refine iff_of_true (fun q hq => ?_) (.inr ⟨rfl, List.nil_sublist _⟩)
            rw [hfirst] at hq; cases hq
          · have hhq := hh q l' hlq (Rulebook.prerequisite?_mem hv hq).2
            constructor
            · exact fun h => .inr ⟨rfl, hhq.mp (h q hq)⟩
            · intro h q' hq'
              obtain rfl : q = q' := Option.some.inj (hq.symm.trans hq')
              refine hhq.mpr (h.elim (fun h => ?_) (·.2))
              exact (List.sublist_append_left l' [a]).trans h
        · rw [if_neg has, hh a _ hl ha]
          exact (or_iff_left fun h => has h.1).symm

/-- The step's proof is current at the revision. -/
def Current (w : Workspace) (t : FileTree) (step : String) (r : Revision) : Prop :=
  ∃ p, w.proofs.read step t = .ok (some p) ∧ p.matchesRevision r = true

theorem current_iff (ho : w.proofs.Orderly t) (h : Rulebook.isName step = true) {r : Revision} :
    Current w t step r ↔ w.proofs.Has t step r.id := by
  constructor
  · rintro ⟨p, hp, hr⟩
    exact ⟨p, ((ProofStore.read_eq_some h).mp hp).2, ProofToken.matchesRevision_iff.mp hr⟩
  · rintro ⟨p, hp, hr⟩
    have hp' := hp
    obtain ⟨b, hb, -⟩ := hp'
    exact ⟨p, (ProofStore.read_eq_some h).mpr ⟨ho.opens hb, hp⟩,
      ProofToken.matchesRevision_iff.mpr hr⟩

/-- The order of calls decides.  In a session of verifications of steps that all have something to
check, at one revision, with the host at hand and without proofs at the start, let every check that
is evaluated and is no gate pass.  A step then has a current proof just when its chain was gone
through in order by calls at which the file system was not at fault.  So calls in the order of the
rulebook verify every step, and no order verifies a step before its prerequisite. -/
theorem current_iff_sublist (hv : w.rulebook.validate = .ok ())
    (hc : ∀ step ∈ w.rulebook.names, ∀ plan, w.rulebook.plan step stack = .ok plan →
      plan.hasOwnChecks = true)
    (hs : Session w w.proofs.LeavesAlone start ms t)
    (hn : ∀ a, start.get? (w.proofs.place a) = none) {r : Revision}
    (hm : ∀ m ∈ ms, m.Succeeds w stack r.id) :
    (∀ step ∈ w.rulebook.names, ∃ chain, w.rulebook.Chain step chain ∧
        (Current w t step r ↔ chain.Sublist (settled w ms))) ∧
      (w.rulebook.names.Sublist (settled w ms) → ∀ step ∈ w.rulebook.names, Current w t step r) ∧
      ∀ step q, w.rulebook.prerequisite? step = some q → Current w t step r → Current w t q r := by
  obtain ⟨ho, -, hh⟩ := has_iff_sublist hv hc hs hn hm
  have hcur : ∀ {a l}, w.rulebook.Chain a l → a ∈ w.rulebook.names →
      (Current w t a r ↔ l.Sublist (settled w ms)) := fun hl ha =>
    (current_iff ho (Rulebook.isName_of_mem hv ha)).trans (hh _ _ hl ha)
  refine ⟨fun step ha => ?_, fun hall step ha => ?_, fun step q hq hcs => ?_⟩
  · obtain ⟨l, hl⟩ := Rulebook.exists_chain hv step
    exact ⟨l, hl, hcur hl ha⟩
  · obtain ⟨l, hl⟩ := Rulebook.exists_chain hv step
    exact (hcur hl ha).mpr ((hl.sublist_names hv ha).trans hall)
  · obtain ⟨l, hl⟩ := Rulebook.exists_chain hv q
    obtain ⟨hmem, hqm⟩ := Rulebook.prerequisite?_mem hv hq
    have hstep := (hcur (.next hq hl) hmem).mp hcs
    exact (hcur hl hqm).mpr ((List.sublist_append_left l [step]).trans hstep)

/-- A check of a step in the small workspace is a gate, or about a remote that is there. -/
theorem Small.ownPass (step : String) (t : FileTree) :
    (Small.workspace.during Small.occasion).OwnPass Small.occasion.vcs Small.occasion.host step
      ⟨Small.occasion.inner, t⟩ := by
  intro plan r inner hp
  refine Chain.ownPass_of_isPass (fun c hc hg x => ?_) _ _
  obtain ⟨i, s, -, hs, -, rfl⟩ := Rulebook.plan_ok hp.planned
  have hchecks : s.checks = (Small.stepDef "a").checks := by
    rcases List.mem_cons.mp (List.mem_of_getElem? hs) with rfl | h
    · rfl
    · obtain rfl := List.mem_singleton.mp h
      rfl
  obtain ⟨d, hd, he⟩ := Rulebook.predicate_of_mem_numbered hc
  rcases List.mem_append.mp hd with hd | hd
  · obtain ⟨q, -, rfl⟩ := List.mem_map.mp hd
    rw [← he] at hg
    cases hg
  · obtain ⟨k, hk, rfl⟩ := List.mem_map.mp hd
    have hk := (List.mem_filter.mp hk).1
    rw [hchecks] at hk
    obtain rfl := List.mem_singleton.mp hk
    rw [← he]
    rfl

theorem Small.succeeds (step : String) (hs : step ∈ Small.workspace.rulebook.names)
    (t : FileTree) : Moment.Succeeds Small.workspace .unknown "c0"
      ⟨t, .verify Small.occasion step⟩ :=
  ⟨Small.occasion, step, rfl, hs, rfl, ⟨Small.revision, rfl, rfl⟩, rfl, Small.ownPass step t⟩

theorem Small.hasOwnChecks (step : String) (hs : step ∈ Small.workspace.rulebook.names)
    (plan : StepPlan) (hp : Small.workspace.rulebook.plan step .unknown = .ok plan) :
    plan.hasOwnChecks = true := by
  have hall : ∀ step ∈ Small.workspace.rulebook.names,
      (match Small.workspace.rulebook.plan step .unknown with
        | .ok plan => plan.hasOwnChecks
        | .error _ => true) = true := by decide
  have h := hall step hs
  rw [hp] at h
  exact h

/-- The small workspace is such a session. -/
theorem current_iff_sublist_small :
    (∀ step ∈ Small.workspace.rulebook.names, ∃ chain,
        Small.workspace.rulebook.Chain step chain ∧
          (Current Small.workspace Small.done step Small.revision ↔
            chain.Sublist (settled Small.workspace Small.moments))) ∧
      (Small.workspace.rulebook.names.Sublist (settled Small.workspace Small.moments) →
        ∀ step ∈ Small.workspace.rulebook.names,
          Current Small.workspace Small.done step Small.revision) ∧
      ∀ step q, Small.workspace.rulebook.prerequisite? step = some q →
        Current Small.workspace Small.done step Small.revision →
          Current Small.workspace Small.done q Small.revision :=
  current_iff_sublist Small.validate_rulebook Small.hasOwnChecks
    (Small.session _) Small.start_none (by
      intro m hm
      rcases List.mem_cons.mp hm with rfl | hm
      · exact Small.succeeds "a" (by decide) _
      · obtain rfl := List.mem_singleton.mp hm
        exact Small.succeeds "b" (by decide) _)

/-! ### Why the file system matters -/

/-- A regular file where the proof directory should be. -/
def Small.blocked : FileTree := ⟨[(["p"], .file ByteArray.empty)]⟩

theorem Small.blocked_none (a : String) :
    Small.blocked.get? (Small.workspace.proofs.place a) = none := by
  have hh : Small.workspace.proofs.home = ["p"] := by decide
  rw [ProofStore.place, hh]
  simp [FileTree.get?, Small.blocked]

theorem Small.blocked_unread : (match Small.workspace.proofs.read "a"
      ((Act.verify Small.occasion "a").after Small.workspace Small.blocked) with
    | .ok (some _) => true
    | _ => false) = false := by decide +kernel

/-- The order of calls alone does not decide: where the proof directory cannot be made, a step whose
checks all pass has no proof. -/
theorem not_current_iff_called : ¬ ∀ (w : Workspace) (stack : Stack) (start t : FileTree)
    (ms : List (Moment Unit)) (r : Revision), w.rulebook.validate = .ok () →
      (∀ step ∈ w.rulebook.names, ∀ plan, w.rulebook.plan step stack = .ok plan →
        plan.hasOwnChecks = true) →
      Session w w.proofs.LeavesAlone start ms t →
      (∀ a, start.get? (w.proofs.place a) = none) → (∀ m ∈ ms, m.Succeeds w stack r.id) →
      ∀ step ∈ w.rulebook.names, ∀ chain, w.rulebook.Chain step chain →
        (Current w t step r ↔ chain.Sublist (ms.filterMap Moment.called?)) := by
  intro h
  have hs : Session Small.workspace Small.workspace.proofs.LeavesAlone Small.blocked
      [⟨Small.blocked, .verify Small.occasion "a"⟩] _ := .act (.verify Small.occasion "a") .start
  obtain ⟨p, hp, -⟩ := (h Small.workspace .unknown Small.blocked _ _ Small.revision
    Small.validate_rulebook Small.hasOwnChecks hs Small.blocked_none (by
      intro m hm
      obtain rfl := List.mem_singleton.mp hm
      exact Small.succeeds "a" (by decide) _)
    "a" (by decide) ["a"] (.first rfl)).mpr (List.Sublist.refl _)
  have hr := Small.blocked_unread
  rw [hp] at hr
  cases hr

end Session

end Readiness

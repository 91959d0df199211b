import Readiness.Proofs.CommandLine.Status
import Readiness.Proofs.Report.Headings
import Readiness.Proofs.Rulebook.Listing

/-!
# CommandLine — the steps as they are listed

`steps` shows plans, and `status` numbers and titles the steps on its own.

* `CommandLine.headings_statusReport`, `CommandLine.shows_statusReport`: what a `status` shows of
  the steps.
* `CommandLine.run_steps`: a `steps` in a workspace never fails, and shows the plan of each step.
* `CommandLine.steps_listed`: what a plan says, and that both commands show the steps alike.
-/

namespace Readiness.CommandLine

variable {σ τ : Type} {r : Rulebook} {w : Workspace}

/-! ### `status` -/

theorem getElem?_statuses (n : Nat) (states : List (String × ProofState)) (i : Nat) :
    (statuses w n states)[i]? = states[i]?.map fun x =>
      ⟨n + i, x.1, ((w.rulebook.step? x.1).bind (·.title)).getD x.1, x.2⟩ := by
  induction states generalizing n i with
  | nil => rfl
  | cons x states ih =>
      cases i with
      | zero => rfl
      | succ i =>
          rw [statuses, List.getElem?_cons_succ, List.getElem?_cons_succ, ih, Nat.add_right_comm]
          rfl

theorem map_fst_states {e : Surroundings} {dir : String} {t t' : FileTree} {c : Revision}
    {states : List (String × ProofState)} (h : Shown e dir t t' w c states) :
    states.map (·.1) = w.rulebook.names := by
  have hm := congrArg (List.map (·.1)) (map_statuses w 1 states)
  rw [List.map_map] at hm
  exact hm.symm.trans (names_statusReport h).1

/-- A `status` shows every step with its position, its name and its title. -/
theorem headings_statusReport {e : Surroundings} {dir : String} {t t' : FileTree} {c : Revision}
    {states : List (String × ProofState)} (h : Shown e dir t t' w c states) :
    (statusReport w c states).steps.map (fun x => (x.number, x.name, x.title)) =
      w.rulebook.headings := by
  have hv := validate_of_openAt h.opened
  have hnames := map_fst_states h
  refine List.ext_getElem? fun i => ?_
  have hname : (states[i]?).map (·.1) = (w.rulebook.steps[i]?).map (·.name) := by
    rw [← List.getElem?_map, hnames, Rulebook.names, List.getElem?_map]
  rw [List.getElem?_map, statusReport, getElem?_statuses, Rulebook.headings, List.getElem?_mapIdx]
  cases hs : w.rulebook.steps[i]? with
  | none =>
      rw [hs, Option.map_none, Option.map_eq_none_iff] at hname
      rw [hname]
      rfl
  | some s =>
      rw [hs, Option.map_some] at hname
      obtain ⟨x, hx, hxs⟩ := Option.map_eq_some_iff.mp hname
      rw [hx]
      simp [hxs, Rulebook.step?_of_getElem? hv hs, StepDef.shownTitle, Nat.add_comm]

/-- What a `status` prints names every step so, with its state. -/
theorem shows_statusReport {e : Surroundings} {dir : String} {t t' : FileTree} {c : Revision}
    {states : List (String × ProofState)} (h : Shown e dir t t' w c states) (l : Layout) :
    l.Shows w.rulebook.headings
      (List.zipWith StatusReport.headingLine w.rulebook.headings (states.map (·.2)))
      ((statusReport w c states).render l) := by
  have hm := congrArg (List.map (·.2)) (map_statuses w 1 states)
  rw [List.map_map] at hm
  have hs := (statusReport w c states).shows_render l
  have hheading : (statusReport w c states).steps.map StepStatus.heading = w.rulebook.headings :=
    headings_statusReport h
  have hstate : (statusReport w c states).steps.map (·.state) = states.map (·.2) := hm
  rwa [hheading, hstate] at hs

/-! ### `steps` -/

/-- A `steps` in a workspace shows the plan of each step. -/
theorem run_steps {e : Surroundings} (host : Host σ) (json : Bool) {dir : String} {s : Scene σ}
    (ho : Workspace.openAt s.files e.cwd dir = .ok w) :
    ∃ plans, w.rulebook.plans w.stack = .ok plans ∧
      (run e host ⟨json, dir, .steps⟩ s).1 =
        ⟨0, StepList.render ⟨w.stack, plans⟩ (layout e json), ""⟩ ∧
      plans.map (fun p => (p.number, p.name, p.title)) = w.rulebook.headings := by
  obtain ⟨plans, hp, hm⟩ := Rulebook.plans_eq (validate_of_openAt ho) w.stack
  refine ⟨plans, hp, ?_, hm⟩
  have hc : carryOut e host ⟨json, dir, .steps⟩ s =
      (.ok (StepList.render ⟨w.stack, plans⟩ (layout e json), 0), s) := by
    have hw : w.plans = .ok plans := hp
    show (steps e (layout e json) dir s.files, s) = _
    rw [steps, ho]
    dsimp only
    rw [hw]
  rw [run, hc]

/-! ### Both -/

/-- Every step of a well-formed rulebook has a plan for every stack, laid out as it is declared, and
no other name has one.  In a workspace with the rulebook `steps` shows the plan of each step, and
every `status` that is carried out in such a workspace shows the steps with the numbers, names and
titles of these plans.  Either prints these of every step, in an entry or a line of its own. -/
theorem steps_listed (hv : r.validate = .ok ()) :
    (∀ (stack : Stack) (i : Nat) (s : StepDef), r.steps[i]? = some s →
      ∃ p, r.plan s.name stack = .ok p ∧ r.Laid i s stack p) ∧
    (∀ (stack : Stack) (a : String), (∀ s ∈ r.steps, s.name ≠ a) →
      r.plan a stack = .error (.unknownStep a)) ∧
    ∀ {σ τ : Type} (e e' : Surroundings) (host : Host σ) (host' : Host τ) (json json' : Bool)
      (dir dir' : String) (s : Scene σ) (s' : Scene τ) (w w' : Workspace),
      Workspace.openAt s.files e.cwd dir = .ok w → w.rulebook = r →
      Workspace.openAt s'.files e'.cwd dir' = .ok w' → w'.rulebook = r →
      ∃ plans, r.plans w'.stack = .ok plans ∧
        (run e' host' ⟨json', dir', .steps⟩ s').1 =
          ⟨0, StepList.render ⟨w'.stack, plans⟩ (layout e' json'), ""⟩ ∧
        plans.map (fun p => (p.number, p.name, p.title)) = r.headings ∧
        (layout e' json').Shows r.headings (r.headings.map StepList.headingLine)
          (run e' host' ⟨json', dir', .steps⟩ s').1.stdout ∧
        ((∃ t, (carryOut e host ⟨json, dir, .status⟩ s).1 = .error t) ∨
          ∃ c states,
            Shown e dir s.files (run e host ⟨json, dir, .status⟩ s).2.files w c states ∧
            (run e host ⟨json, dir, .status⟩ s).1 =
              ⟨0, (statusReport w c states).render (layout e json), ""⟩ ∧
            (statusReport w c states).steps.map (fun x => (x.number, x.name, x.title)) =
              plans.map (fun p => (p.number, p.name, p.title)) ∧
            states.map (·.1) = r.names ∧
            (layout e json).Shows r.headings
              (List.zipWith StatusReport.headingLine r.headings (states.map (·.2)))
              (run e host ⟨json, dir, .status⟩ s).1.stdout) := by
  refine ⟨fun stack i s hs => ?_, fun stack a ha => ?_, ?_⟩
  · exact ⟨_, Rulebook.plan_of_getElem? hv hs stack, Rulebook.laid_planAt hv hs stack⟩
  · refine Rulebook.plan_of_not_mem (fun hm => ?_) stack
    obtain ⟨s, hs, hn⟩ := List.mem_map.mp hm
    exact ha s hs hn
  · intro σ τ e e' host host' json json' dir dir' s s' w w' ho hw ho' hw'
    obtain ⟨plans, hp, hrun, hm⟩ := run_steps host' json' ho'
    rw [hw'] at hp hm
    have hshows := StepList.shows_render ⟨w'.stack, plans⟩ (layout e' json')
    rw [show plans.map StepPlan.heading = r.headings from hm] at hshows
    refine ⟨plans, hp, hrun, hm, ?_, ?_⟩
    · rwa [hrun]
    refine (run_status e host json dir s).imp_right ?_
    rintro ⟨v, c, states, hshown, hreply⟩
    obtain rfl : w = v := Except.ok.inj (ho.symm.trans hshown.opened)
    refine ⟨c, states, hshown, hreply, ?_, ?_, ?_⟩
    · rw [headings_statusReport hshown, hw, hm]
    · rw [map_fst_states hshown, hw]
    · rw [hreply, ← hw]
      exact shows_statusReport hshown (layout e json)

/-- Three steps: the second has checks for two stacks, and the third builds on the first. -/
def layered : Rulebook :=
  let check (path : String) (stack : Option Stack) : CheckDef := ⟨path, stack, .fileExists path⟩
  ⟨.standard,
    [⟨"setup", none, none, false, [check "README" none]⟩,
     ⟨"build", some "Build", none, false,
      [check "Cargo.lock" (some .rust), check "LICENSE" none, check "go.sum" (some .go)]⟩,
     ⟨"release", none, some "setup", true, [check "CHANGELOG" none]⟩]⟩

/-- For Go the second step has two of its checks, behind the gate on the first. -/
theorem steps_listed_layered :
    layered.validate = .ok () ∧
      (∃ p, layered.plan "build" .go = .ok p ∧ p.number = 2 ∧ p.title = "Build" ∧
        p.gate = some "setup" ∧ p.checks.map (·.id) = [1, 2, 3] ∧
        p.checks.map Check.subject = [Rulebook.gateCheck "setup",
          ("LICENSE", .fileExists "LICENSE"), ("go.sum", .fileExists "go.sum")]) ∧
      layered.plan "deploy" .go = .error (.unknownStep "deploy") := by
  have hv : layered.validate = .ok () := rfl
  obtain ⟨hlaid, hunknown, -⟩ := steps_listed hv
  refine ⟨hv, ?_, hunknown .go "deploy" (by decide)⟩
  obtain ⟨p, hp, h⟩ := hlaid .go 1 _ rfl
  have hgate : p.gate = some "setup" := h.gate_some 0 _ rfl rfl
  have hchecks : p.checks.map Check.subject = [Rulebook.gateCheck "setup",
      ("LICENSE", .fileExists "LICENSE"), ("go.sum", .fileExists "go.sum")] := by
    rw [h.checks, hgate]
    rfl
  have hids := h.ids
  rw [← List.length_map (f := Check.subject), hchecks] at hids
  exact ⟨p, hp, h.number, h.title, hgate, hids, hchecks⟩

end Readiness.CommandLine

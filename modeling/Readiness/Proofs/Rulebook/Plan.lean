import Readiness.Proofs.Rulebook.Rules
import Readiness.Rulebook.Plan
import Readiness.Workspace

/-!
# Rulebook — the plan of a step

* `Rulebook.gated_of_plan_ok`: the plan of a step is the gate on its prerequisite, where it has one,
  and checks of its own.
* `Rulebook.parted_of_plan_ok`: these checks are the gate's and the declared ones, each numbered.
* `Rulebook.plan_of_mem`, `Rulebook.plan_of_not_mem`: just the steps of the rulebook have plans.
* `Rulebook.validate_load`: the rulebook of a work tree is well formed.
-/

namespace Readiness

/-- What a check says, apart from its number. -/
def Check.subject (c : Check) : String × Predicate := (c.description, c.predicate)

namespace Rulebook

/-- The checks of a step: its own, after the gate on the prerequisite where there is one. -/
structure Gated (prerequisite : Option String) (checks own : List Check) : Prop where
  notGate : ∀ c ∈ own, c.predicate.isGate = false
  eq : match prerequisite with
    | none => checks = own
    | some p => ∃ c, c.predicate = .proofExists p ∧ checks = c :: own

theorem map_predicate_numbered (n : Nat) (cs : List (String × Predicate)) :
    (numbered n cs).map (·.predicate) = cs.map (·.2) := by
  induction cs generalizing n with
  | nil => rfl
  | cons c cs ih => exact congrArg (c.2 :: ·) (ih (n + 1))

theorem map_subject_numbered (n : Nat) (cs : List (String × Predicate)) :
    (numbered n cs).map Check.subject = cs := by
  induction cs generalizing n with
  | nil => rfl
  | cons c cs ih => exact congrArg (c :: ·) (ih (n + 1))

theorem numbered_append (n : Nat) (cs ds : List (String × Predicate)) :
    numbered n (cs ++ ds) = numbered n cs ++ numbered (n + cs.length) ds := by
  induction cs generalizing n with
  | nil => rfl
  | cons c cs ih =>
      rw [List.cons_append, numbered, ih, numbered, List.length_cons, Nat.add_assoc,
        Nat.add_comm 1, List.cons_append]

theorem predicate_of_mem_numbered {n : Nat} {cs : List (String × Predicate)} {c : Check}
    (hc : c ∈ numbered n cs) : ∃ d ∈ cs, d.2 = c.predicate := by
  have h := List.mem_map_of_mem (f := (·.predicate)) hc
  rw [map_predicate_numbered] at h
  exact List.mem_map.mp h

theorem isGate_declaredChecks {s : StepDef} (hs : ∀ c ∈ s.checks, c.predicate.isGate = false)
    {stack : Stack} {d : String × Predicate} (hd : d ∈ declaredChecks s stack) :
    d.2.isGate = false := by
  obtain ⟨c, hc, rfl⟩ := List.mem_map.mp hd
  exact hs c (List.mem_filter.mp hc).1

variable {r : Rulebook} {a : String} {stack : Stack}

theorem gated_planAt {i : Nat} {s : StepDef} (hs : ∀ c ∈ s.checks, c.predicate.isGate = false) :
    ∃ own, Gated (r.gateAt? i) (r.planAt i s stack).checks own := by
  rw [planAt]
  cases r.gateAt? i with
  | none =>
      refine ⟨numbered 1 (declaredChecks s stack), fun c hc => ?_, rfl⟩
      obtain ⟨d, hd, he⟩ := predicate_of_mem_numbered hc
      rw [← he]
      exact isGate_declaredChecks hs hd
  | some p =>
      refine ⟨numbered 2 (declaredChecks s stack), fun c hc => ?_, _, ?_, rfl⟩
      · obtain ⟨d, hd, he⟩ := predicate_of_mem_numbered hc
        rw [← he]
        exact isGate_declaredChecks hs hd
      · rfl

/-- The plan of a step is that of the step at its position. -/
theorem plan_ok {plan : StepPlan} (h : r.plan a stack = .ok plan) :
    ∃ i s, r.index? a = some i ∧ r.steps[i]? = some s ∧ s.name = a ∧
      plan = r.planAt i s stack := by
  rw [Rulebook.plan] at h
  split at h
  · rename_i p hp
    cases h
    obtain ⟨i, hi, hs⟩ := Option.bind_eq_some_iff.mp hp
    obtain ⟨s, -, -, hsi, hn⟩ := index?_eq_some hi
    rw [hsi] at hs
    exact ⟨i, s, hi, hsi, hn, (Option.some.inj hs).symm⟩
  · cases h

theorem mem_of_plan_ok {plan : StepPlan} (h : r.plan a stack = .ok plan) : a ∈ r.names := by
  obtain ⟨i, -, hi, -⟩ := plan_ok h
  exact index?_isSome.mp (Option.isSome_of_eq_some hi)

theorem name_of_plan_ok {plan : StepPlan} (h : r.plan a stack = .ok plan) : plan.name = a := by
  obtain ⟨i, s, -, -, rfl, rfl⟩ := plan_ok h
  rfl

/-- The plan of a step is the gate on its prerequisite, where it has one, and checks of its own. -/
theorem gated_of_plan_ok (hv : r.validate = .ok ()) {plan : StepPlan}
    (h : r.plan a stack = .ok plan) : ∃ own, Gated (r.prerequisite? a) plan.checks own := by
  obtain ⟨i, s, hi, hsi, rfl, rfl⟩ := plan_ok h
  obtain ⟨e, he⟩ := fits_of_mem hv (List.mem_of_getElem? hsi)
  rw [prerequisite?, hi, Option.bind_some]
  exact gated_planAt he.own

/-- The checks of a plan: the gate on the prerequisite, where there is one, and then its own. -/
structure Parted (prerequisite : Option String) (plan : StepPlan) (gates own : List Check) :
    Prop where
  checks : plan.checks = gates ++ own
  gates : gates.map Check.subject = prerequisite.toList.map gateCheck
  notGate : ∀ c ∈ own, c.predicate.isGate = false

theorem Parted.gate {prerequisite : Option String} {plan : StepPlan} {gates own : List Check}
    (h : Parted prerequisite plan gates own) {c : Check} (hc : c ∈ gates) :
    ∃ a, prerequisite = some a ∧ c.predicate = .proofExists a := by
  have hm : c.subject ∈ prerequisite.toList.map gateCheck :=
    h.gates ▸ List.mem_map_of_mem hc
  obtain ⟨a, ha, hs⟩ := List.mem_map.mp hm
  exact ⟨a, Option.mem_toList.mp ha, (congrArg Prod.snd hs).symm⟩

/-- The plan of a step is the gate on its prerequisite, and then its declared checks. -/
theorem parted_of_plan_ok (hv : r.validate = .ok ()) {plan : StepPlan}
    (h : r.plan a stack = .ok plan) :
    ∃ gates own, Parted (r.prerequisite? a) plan gates own ∧
      ∃ i s, r.index? a = some i ∧ r.steps[i]? = some s ∧
        plan.shortCircuit = s.shortCircuit ∧
        own.map Check.subject = declaredChecks s stack := by
  obtain ⟨i, s, hi, hsi, -, rfl⟩ := plan_ok h
  have hs := List.mem_of_getElem? hsi
  obtain ⟨e, he⟩ := fits_of_mem hv hs
  rw [prerequisite?, hi, Option.bind_some]
  refine ⟨_, _, ⟨numbered_append 1 _ _, map_subject_numbered _ _, fun c hc => ?_⟩, i, s, rfl, hsi,
    rfl, map_subject_numbered _ _⟩
  obtain ⟨d, hd, hp⟩ := predicate_of_mem_numbered hc
  rw [← hp]
  exact isGate_declaredChecks he.own hd

theorem plan_of_mem (ha : a ∈ r.names) (stack : Stack) : ∃ plan, r.plan a stack = .ok plan := by
  obtain ⟨i, hi⟩ := Option.isSome_iff_exists.mp (index?_isSome.mpr ha)
  obtain ⟨s, -, -, hsi, -⟩ := index?_eq_some hi
  exact ⟨r.planAt i s stack, by rw [Rulebook.plan, hi, Option.bind_some, hsi]; rfl⟩

theorem plan_of_not_mem (ha : a ∉ r.names) (stack : Stack) :
    r.plan a stack = .error (.unknownStep a) := by
  have hi : r.index? a = none := by
    rw [← index?_isSome, Bool.not_eq_true, Option.isSome_eq_false_iff] at ha
    exact Option.isNone_iff_eq_none.mp ha
  rw [Rulebook.plan, hi]
  rfl

theorem step?_isNone : (r.step? a).isNone = true ↔ a ∉ r.names := by
  rw [step?, Option.isNone_iff_eq_none, List.find?_eq_none, names, List.mem_map]
  simp

/-! ### Well-formed rulebooks -/

theorem validate_standard : standard.validate = .ok () := by rfl

theorem validate_of_parse {s : String} (h : parse s = .ok r) : r.validate = .ok () := by
  rw [parse] at h
  split at h
  · cases h
  · split at h
    · cases h
    · split at h
      · cases h
      · rename_i hv
        cases h
        exact hv

/-- The rulebook of a work tree is well formed. -/
theorem validate_load {t : FileTree} {root : String} (h : load t root = .ok r) :
    r.validate = .ok () := by
  rw [load] at h
  split at h
  · cases h; exact validate_standard
  · split at h
    · cases h
    · split at h
      · cases h
      · rename_i hp
        cases h
        exact validate_of_parse hp

end Rulebook

end Readiness

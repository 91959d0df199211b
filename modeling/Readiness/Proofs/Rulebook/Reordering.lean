import Mathlib.Data.List.Forall2
import Readiness.Proofs.Rulebook.Plan

/-!
# Rulebook — checks in another order

* `Rulebook.Reordered`: two rulebooks differ in the order of checks within steps at most.
* `Reordered.validate`, `Reordered.prerequisite?`: they break the same rule, and gate alike.
* `Reordered.plan`: the plans of a step have the same gate, and checks that say the same in another
  order.
-/

namespace Readiness

/-- The steps differ in the order of their checks at most. -/
structure StepDef.Reordered (s s' : StepDef) : Prop where
  name : s'.name = s.name
  title : s'.title = s.title
  requires : s'.requires = s.requires
  shortCircuit : s'.shortCircuit = s.shortCircuit
  checks : s.checks.Perm s'.checks

namespace Rulebook

/-- The rulebooks differ in the order of checks within steps at most. -/
structure Reordered (r r' : Rulebook) : Prop where
  settings : r'.settings = r.settings
  steps : List.Forall₂ StepDef.Reordered r.steps r'.steps

theorem breachOf_reordered {s s' : StepDef} (h : s.Reordered s') (earlier : List String) :
    breachOf earlier s' = breachOf earlier s := by
  rw [breachOf, breachOf, h.name, h.requires, h.checks.isEmpty_eq, h.checks.any_eq]

theorem breachIn_reordered {ss ss' : List StepDef} (h : List.Forall₂ StepDef.Reordered ss ss')
    (earlier : List String) : breachIn earlier ss' = breachIn earlier ss := by
  induction h generalizing earlier with
  | nil => rfl
  | cons hs _ ih => rw [breachIn, breachIn, breachOf_reordered hs, hs.name, ih]

namespace Reordered

variable {r r' : Rulebook} (h : r.Reordered r') {a : String} {stack : Stack}

include h

theorem validate : r'.validate = r.validate := by
  have he : r'.steps.isEmpty = r.steps.isEmpty := by
    rw [Bool.eq_iff_iff, List.isEmpty_iff_length_eq_zero, List.isEmpty_iff_length_eq_zero,
      h.steps.length_eq]
  rw [Rulebook.validate, Rulebook.validate, breach?, breach?, h.settings, he,
    breachIn_reordered h.steps]

/-- What does not look at the checks of the steps is the same for both. -/
theorem map_steps {α : Type} {f : StepDef → α}
    (hf : ∀ s s' : StepDef, s.Reordered s' → f s' = f s) :
    r'.steps.map f = r.steps.map f := by
  have hs := h.steps
  generalize r.steps = ss at hs ⊢
  generalize r'.steps = ss' at hs ⊢
  induction hs with
  | nil => rfl
  | cons hs _ ih => rw [List.map_cons, List.map_cons, hf _ _ hs, ih]

theorem names : r'.names = r.names := h.map_steps fun _ _ hs => hs.name

theorem index? (a : String) : r'.index? a = r.index? a := by
  have he : ∀ r : Rulebook, r.index? a = r.names.findIdx? (· == a) := fun r => by
    rw [Rulebook.names, List.findIdx?_map]
    rfl
  rw [he, he, h.names]

theorem previous? (i : Nat) : r'.previous? i = r.previous? i := by
  cases i with
  | zero => rfl
  | succ i =>
      have hn := congrArg (·[i]?) h.names
      simp only [Rulebook.names, List.getElem?_map] at hn
      exact hn

theorem gateAt? (i : Nat) : r'.gateAt? i = r.gateAt? i := by
  have hr := congrArg (·[i]?) (h.map_steps (f := (·.requires)) fun _ _ hs => hs.requires)
  have he : ∀ r : Rulebook, r.gateAt? i =
      ((r.steps.map (·.requires))[i]?).bind fun q => q.or (r.previous? i) := fun r => by
    rw [List.getElem?_map, Option.bind_map]
    rfl
  rw [he, he, h.previous?]
  exact congrArg (Option.bind · _) hr

theorem prerequisite? (a : String) : r'.prerequisite? a = r.prerequisite? a := by
  have hg : r'.gateAt? = r.gateAt? := funext h.gateAt?
  rw [Rulebook.prerequisite?, Rulebook.prerequisite?, h.index?, hg]

theorem getElem? {i : Nat} {s s' : StepDef} (hs : r.steps[i]? = some s)
    (hs' : r'.steps[i]? = some s') : s.Reordered s' := by
  obtain ⟨hi, rfl⟩ := List.getElem?_eq_some_iff.mp hs
  obtain ⟨hi', rfl⟩ := List.getElem?_eq_some_iff.mp hs'
  exact (List.forall₂_iff_get.mp h.steps).2 i hi hi'

/-- The plans of a step have the same gate, and checks that say the same in another order. -/
theorem plan (hv : r.validate = .ok ()) {plan plan' : StepPlan} (hp : r.plan a stack = .ok plan)
    (hp' : r'.plan a stack = .ok plan') :
    plan'.shortCircuit = plan.shortCircuit ∧ ∃ gates own gates' own',
      Parted (r.prerequisite? a) plan gates own ∧
        Parted (r'.prerequisite? a) plan' gates' own' ∧
        (own.map Check.subject).Perm (own'.map Check.subject) := by
  obtain ⟨gates, own, hparted, i, s, hi, hs, hsc, ho⟩ := parted_of_plan_ok hv hp
  obtain ⟨gates', own', hparted', i', s', hi', hs', hsc', ho'⟩ :=
    parted_of_plan_ok (h.validate.trans hv) hp'
  rw [h.index?, hi] at hi'
  cases hi'
  have hr := h.getElem? hs hs'
  refine ⟨by rw [hsc, hsc', hr.shortCircuit], gates, own, gates', own', hparted, hparted', ?_⟩
  rw [ho, ho']
  exact (hr.checks.filter _).map _

/-- What is asked of some check of a plan does not depend on their order. -/
theorem any_checks (hv : r.validate = .ok ()) {plan plan' : StepPlan}
    (hp : r.plan a stack = .ok plan) (hp' : r'.plan a stack = .ok plan') (f : Predicate → Bool) :
    (plan'.checks.any fun c => f c.predicate) = plan.checks.any fun c => f c.predicate := by
  obtain ⟨-, gates, own, gates', own', hparted, hparted', ho⟩ := h.plan hv hp hp'
  have he : ∀ plan : StepPlan, (plan.checks.any fun c => f c.predicate) =
      (plan.checks.map Check.subject).any fun x => f x.2 := fun plan => by
    rw [List.any_map]
    rfl
  rw [he, he, hparted.checks, hparted'.checks, List.map_append, List.map_append, hparted.gates,
    hparted'.gates, h.prerequisite?]
  exact (ho.append_left _).symm.any_eq

end Reordered

end Rulebook

end Readiness

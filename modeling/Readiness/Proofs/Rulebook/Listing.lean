import Mathlib.Data.List.Nodup
import Readiness.Proofs.Rulebook.Ancestry
import Readiness.Proofs.Rulebook.Plan

/-!
# Rulebook — the plans in chain order

* `Rulebook.plan_of_getElem?`: the plan of a step is the one at its position.
* `Rulebook.Laid`, `Rulebook.laid_planAt`: what that plan says, read off the declaration.
* `Rulebook.step?_of_getElem?`: a step is found by its name.
* `Rulebook.plans_eq`: there is a plan for each step, and they are in the order of the steps.
-/

namespace Readiness.Rulebook

variable {r : Rulebook} {i : Nat} {s : StepDef}

/-! ### Numbers -/

theorem map_id_numbered (n : Nat) (cs : List (String × Predicate)) :
    (numbered n cs).map (·.id) = List.range' n cs.length := by
  induction cs generalizing n with
  | nil => rfl
  | cons c cs ih => rw [numbered, List.map_cons, ih, List.length_cons, List.range'_succ]

theorem length_numbered (n : Nat) (cs : List (String × Predicate)) :
    (numbered n cs).length = cs.length := by
  rw [← List.length_map (f := (·.id)), map_id_numbered, List.length_range']

/-! ### Positions -/

theorem names_of_getElem? (hs : r.steps[i]? = some s) : r.names[i]? = some s.name := by
  rw [names, List.getElem?_map, hs, Option.map_some]

theorem step?_of_getElem? (hv : r.validate = .ok ()) (hs : r.steps[i]? = some s) :
    r.step? s.name = some s := by
  have hm := List.mem_of_getElem? hs
  obtain ⟨t, ht⟩ : ∃ t, r.step? s.name = some t :=
    Option.isSome_iff_exists.mp (List.find?_isSome.mpr ⟨s, hm, beq_self_eq_true s.name⟩)
  have hn : t.name = s.name := by simpa using List.find?_some ht
  rw [ht, List.inj_on_of_nodup_map (nodup_names hv) (List.mem_of_find?_eq_some ht) hm hn]

/-- The plan of a step is the one at its position. -/
theorem plan_of_getElem? (hv : r.validate = .ok ()) (hs : r.steps[i]? = some s) (stack : Stack) :
    r.plan s.name stack = .ok (r.planAt i s stack) := by
  rw [Rulebook.plan, index?_of_names hv (names_of_getElem? hs), Option.bind_some, hs]
  rfl

/-! ### What a plan says -/

/-- The check belongs to the stack, or to every stack. -/
def Applies (stack : Stack) (c : CheckDef) : Prop := c.stack = none ∨ c.stack = some stack

instance (stack : Stack) : DecidablePred (Applies stack) :=
  fun c => inferInstanceAs (Decidable (c.stack = none ∨ c.stack = some stack))

/-- The plan of the step `s` at position `i`, read off its declaration. -/
structure Laid (r : Rulebook) (i : Nat) (s : StepDef) (stack : Stack) (p : StepPlan) : Prop where
  name : p.name = s.name
  number : p.number = i + 1
  title : p.title = s.title.getD s.name
  shortCircuit : p.shortCircuit = s.shortCircuit
  gate : p.gate = r.prerequisite? s.name
  gate_none : p.gate = none ↔ i = 0
  /-- The gate is on the step that is required, else on the step before. -/
  gate_some : ∀ j t, i = j + 1 → r.steps[j]? = some t → p.gate = some (s.requires.getD t.name)
  /-- The gate comes first, and then the declared checks that apply. -/
  checks : p.checks.map Check.subject = p.gate.toList.map gateCheck ++
    (s.checks.filter fun c => Applies stack c).map fun c => (c.description, c.predicate)
  /-- There is no other gate. -/
  first : ∀ c ∈ p.checks, ∀ a, c.predicate = .proofExists a → p.gate = some a ∧ c.id = 1
  ids : p.checks.map (·.id) = List.range' 1 p.checks.length

theorem declaredChecks_eq (s : StepDef) (stack : Stack) : declaredChecks s stack =
    (s.checks.filter fun c => Applies stack c).map fun c => (c.description, c.predicate) := by
  rw [declaredChecks]
  refine congrArg _ (List.filter_congr fun c _ => ?_)
  rw [Bool.eq_iff_iff]
  cases hc : c.stack <;> simp [Applies, hc]

theorem ids_planAt (stack : Stack) : ((r.planAt i s stack).checks.map (·.id)) =
    List.range' 1 (r.planAt i s stack).checks.length := by
  rw [planAt, map_id_numbered, length_numbered]

theorem gateAt?_of_getElem? (hv : r.validate = .ok ()) (hs : r.steps[i]? = some s) :
    r.gateAt? i = r.prerequisite? s.name := by
  rw [prerequisite?, index?_of_names hv (names_of_getElem? hs), Option.bind_some]

/-- No check of a plan is a gate but the first, and that only where the step has a prerequisite. -/
theorem gate_planAt (hv : r.validate = .ok ()) (hs : r.steps[i]? = some s) {stack : Stack}
    {c : Check} (hc : c ∈ (r.planAt i s stack).checks) {a : String}
    (ha : c.predicate = .proofExists a) : r.gateAt? i = some a ∧ c.id = 1 := by
  have hg : c.predicate.isGate = true := Predicate.isGate_iff.mpr ⟨a, ha⟩
  have hid := @ids_planAt r i s stack
  obtain ⟨earlier, hfits⟩ := fits_of_mem hv (List.mem_of_getElem? hs)
  obtain ⟨own, hown, heq⟩ := @gated_planAt r stack i s hfits.own
  cases hp : r.gateAt? i with
  | none =>
      rw [hp] at heq
      rw [hown c (heq ▸ hc)] at hg
      cases hg
  | some p =>
      rw [hp] at heq
      obtain ⟨d, hd, heq⟩ := heq
      rw [heq] at hc hid
      rcases List.mem_cons.mp hc with rfl | hc
      · rw [List.map_cons, List.length_cons, List.range'_succ] at hid
        obtain rfl : p = a := by simpa using hd.symm.trans ha
        exact ⟨rfl, (List.cons.inj hid).1⟩
      · rw [hown c hc] at hg
        cases hg

theorem laid_planAt (hv : r.validate = .ok ()) (hs : r.steps[i]? = some s) (stack : Stack) :
    r.Laid i s stack (r.planAt i s stack) where
  name := rfl
  number := rfl
  title := rfl
  shortCircuit := rfl
  gate := gateAt?_of_getElem? hv hs
  gate_none := by
    have hn := names_of_getElem? hs
    rw [planAt, gateAt?_of_getElem? hv hs]
    constructor
    · intro h
      refine Classical.byContradiction fun hi => ?_
      obtain ⟨p, hp⟩ := prerequisite?_later hv hn (Nat.pos_of_ne_zero hi)
      cases hp.symm.trans h
    · rintro rfl
      exact prerequisite?_first hv hn
  gate_some j t hi ht := by
    subst hi
    rw [planAt, gateAt?, hs, Option.bind_some, previous?, ht]
    cases s.requires <;> rfl
  checks := by rw [planAt, map_subject_numbered, declaredChecks_eq]
  first c hc a ha := gate_planAt hv hs hc ha
  ids := ids_planAt stack

/-! ### All plans -/

/-- What every step is shown with: its position, from 1, its name and its title. -/
def headings (r : Rulebook) : List (Nat × String × String) :=
  r.steps.mapIdx fun i s => (i + 1, s.name, s.shownTitle)

theorem mapM_ok {α β ε : Type} {f : α → Except ε β} {g : α → β} {as : List α}
    (h : ∀ a ∈ as, f a = .ok (g a)) : as.mapM f = .ok (as.map g) := by
  induction as with
  | nil => rfl
  | cons a as ih =>
      rw [List.mapM_cons, h a List.mem_cons_self,
        ih fun b hb => h b (List.mem_cons_of_mem a hb)]
      rfl

/-- There is a plan for each step, in the order of the steps. -/
theorem plans_eq (hv : r.validate = .ok ()) (stack : Stack) :
    ∃ plans, r.plans stack = .ok plans ∧
      plans.map (fun p => (p.number, p.name, p.title)) = r.headings := by
  refine ⟨r.steps.map fun s => r.planAt (r.names.idxOf s.name) s stack, mapM_ok fun s hs => ?_, ?_⟩
  · obtain ⟨i, hi⟩ := List.mem_iff_getElem?.mp hs
    rw [idxOf_of_names hv (names_of_getElem? hi), plan_of_getElem? hv hi]
  · refine List.ext_getElem? fun i => ?_
    rw [List.map_map, List.getElem?_map, headings, List.getElem?_mapIdx]
    cases hi : r.steps[i]? with
    | none => rfl
    | some s =>
        have hidx := idxOf_of_names hv (names_of_getElem? hi)
        simp [planAt, hidx]

end Readiness.Rulebook

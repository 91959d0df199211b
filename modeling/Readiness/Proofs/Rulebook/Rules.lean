import Readiness.Proofs.Rulebook.Validation

/-!
# Rulebook — what the rules give

* `StepDef.Fits`: a step breaks no rule after the steps before it; `Rulebook.fits` says so of every
  step of a well-formed rulebook.
* `Rulebook.prerequisite?_earlier`: a prerequisite is an earlier step.
* `Rulebook.Chain`: the prerequisites of a step, from the first step on; every step has one chain,
  and it lies in the rulebook in order.
-/

namespace Readiness

/-- The step breaks no rule after the steps named in `earlier`. -/
structure StepDef.Fits (earlier : List String) (s : StepDef) : Prop where
  isName : Rulebook.isName s.name = true
  fresh : s.name ∉ earlier
  requires_mem : ∀ {q}, s.requires = some q → q ∈ earlier
  checks_ne_nil : s.checks ≠ []
  own : ∀ c ∈ s.checks, c.predicate.isGate = false

namespace Rulebook

theorem fits_of_not_breaks {earlier : List String} {s : StepDef}
    (h : ∀ k e, ¬ s.Breaks earlier k e) : s.Fits earlier where
  isName := isName_iff.mpr (Classical.byContradiction fun hn => h _ _ (.name hn))
  fresh hd := h _ _ (.duplicate hd)
  requires_mem hq := Classical.byContradiction fun hn => h _ _ (.requires hq hn)
  checks_ne_nil hc := h _ _ (.checks hc)
  own c hc := by
    refine Bool.eq_false_iff.mpr fun hg => ?_
    obtain ⟨a, ha⟩ := Predicate.isGate_iff.mp hg
    exact h _ _ (.gate hc ha)

/-- The names of the steps, in their order. -/
def names (r : Rulebook) : List String := r.steps.map (·.name)

variable {r : Rulebook}

theorem breach?_of_validate (hv : r.validate = .ok ()) : r.breach? = none := validate_eq_ok.mp hv

/-- Every step of a well-formed rulebook fits the steps before it. -/
theorem fits (hv : r.validate = .ok ()) {pre post : List StepDef} {s : StepDef}
    (hs : r.steps = pre ++ s :: post) : s.Fits (pre.map (·.name)) := by
  have hi : r.steps[pre.length]? = some s := by rw [hs]; simp
  have ht : r.steps.take pre.length = pre := by rw [hs]; simp
  refine fits_of_not_breaks fun k e hb => ?_
  rw [← ht] at hb
  exact breach?_eq_none.mp (breach?_of_validate hv) _ _ (.step hi hb)

theorem fits_of_mem (hv : r.validate = .ok ()) {s : StepDef} (hs : s ∈ r.steps) :
    ∃ earlier, s.Fits earlier := by
  obtain ⟨pre, post, h⟩ := List.append_of_mem hs
  exact ⟨_, fits hv h⟩

theorem isName_of_mem (hv : r.validate = .ok ()) {a : String} (ha : a ∈ r.names) :
    isName a = true := by
  obtain ⟨s, hs, rfl⟩ := List.mem_map.mp ha
  obtain ⟨e, he⟩ := fits_of_mem hv hs
  exact he.isName

/-! ### Positions -/

/-- The step at the position of a name, and the steps before it. -/
theorem index?_eq_some {a : String} {i : Nat} (h : r.index? a = some i) :
    ∃ s post, r.steps = r.steps.take i ++ s :: post ∧ r.steps[i]? = some s ∧ s.name = a := by
  obtain ⟨hi, hn, -⟩ := List.findIdx?_eq_some_iff_getElem.mp h
  refine ⟨r.steps[i], r.steps.drop (i + 1), ?_, List.getElem?_eq_getElem hi, by simpa using hn⟩
  rw [List.getElem_cons_drop, List.take_append_drop]

theorem index?_isSome {a : String} : (r.index? a).isSome = true ↔ a ∈ r.names := by
  rw [index?, List.findIdx?_isSome, List.any_eq_true, names, List.mem_map]
  simp

/-- A prerequisite is an earlier step. -/
theorem prerequisite?_earlier (hv : r.validate = .ok ()) {a p : String}
    (h : r.prerequisite? a = some p) :
    ∃ l₁ l₂, r.names = l₁ ++ a :: l₂ ∧ a ∉ l₁ ∧ p ∈ l₁ := by
  obtain ⟨i, hi, hg⟩ := Option.bind_eq_some_iff.mp h
  obtain ⟨s, post, hs, hsi, rfl⟩ := index?_eq_some hi
  refine ⟨(r.steps.take i).map (·.name), post.map (·.name), ?_, (fits hv hs).fresh, ?_⟩
  · rw [names, ← List.map_cons, ← List.map_append]
    exact congrArg (List.map (·.name)) hs
  · rw [gateAt?, hsi, Option.bind_some, Option.or_eq_some_iff] at hg
    rcases hg with hq | ⟨-, hq⟩
    · exact (fits hv hs).requires_mem hq
    · cases i with
      | zero => cases hq
      | succ i =>
          obtain ⟨q, hs', rfl⟩ := Option.map_eq_some_iff.mp hq
          refine List.mem_map_of_mem (List.mem_iff_getElem?.mpr ⟨i, ?_⟩)
          rw [List.getElem?_take_of_lt (Nat.lt_succ_self i), hs']

theorem prerequisite?_mem (hv : r.validate = .ok ()) {a p : String}
    (h : r.prerequisite? a = some p) : a ∈ r.names ∧ p ∈ r.names := by
  obtain ⟨l₁, l₂, hn, -, hp⟩ := prerequisite?_earlier hv h
  rw [hn]
  exact ⟨by simp, List.mem_append_left _ hp⟩

theorem idxOf_prerequisite? (hv : r.validate = .ok ()) {a p : String}
    (h : r.prerequisite? a = some p) : r.names.idxOf p < r.names.idxOf a := by
  obtain ⟨l₁, l₂, hn, ha, hp⟩ := prerequisite?_earlier hv h
  rw [hn, List.idxOf_append, List.idxOf_append, if_pos hp, if_neg ha]
  have := List.idxOf_lt_length_of_mem hp
  omega

/-- What holds of a step as soon as it holds of its prerequisite holds of every step. -/
theorem induction_on (hv : r.validate = .ok ()) {P : String → Prop}
    (h : ∀ a, (∀ p, r.prerequisite? a = some p → P p) → P a) (a : String) : P a :=
  (measure fun a => r.names.idxOf a).wf.induction a fun a ih =>
    h a fun p hp => ih p (idxOf_prerequisite? hv hp)

/-! ### Chains -/

/-- The prerequisites of a step from the first one on, and the step itself. -/
inductive Chain (r : Rulebook) : String → List String → Prop
  | first {a : String} : r.prerequisite? a = none → Chain r a [a]
  | next {a p : String} {l : List String} : r.prerequisite? a = some p → Chain r p l →
      Chain r a (l ++ [a])

theorem exists_chain (hv : r.validate = .ok ()) (a : String) : ∃ l, r.Chain a l := by
  induction a using induction_on hv with | _ a ih
  cases h : r.prerequisite? a with
  | none => exact ⟨[a], .first h⟩
  | some p =>
      obtain ⟨l, hl⟩ := ih p h
      exact ⟨l ++ [a], .next h hl⟩

/-- The chain of a step lies in the rulebook, in order. -/
theorem Chain.sublist (hv : r.validate = .ok ()) {a : String} {l : List String}
    (h : r.Chain a l) (ha : a ∈ r.names) : l.Sublist (r.names.take (r.names.idxOf a + 1)) := by
  have snoc : ∀ {b}, b ∈ r.names →
      r.names.take (r.names.idxOf b + 1) = r.names.take (r.names.idxOf b) ++ [b] := fun hb => by
    rw [List.take_succ_eq_append_getElem (List.idxOf_lt_length_of_mem hb), List.getElem_idxOf]
  -- the part of the chain before the step lies before the step's position
  induction h with
  | first _ =>
      rw [snoc ha]
      exact List.sublist_append_right _ _
  | next hp _ ih =>
      rw [snoc ha]
      refine ((ih (prerequisite?_mem hv hp).2).trans ?_).append (List.Sublist.refl _)
      exact List.take_sublist_take_left (idxOf_prerequisite? hv hp)

theorem Chain.sublist_names (hv : r.validate = .ok ()) {a : String} {l : List String}
    (h : r.Chain a l) (ha : a ∈ r.names) : l.Sublist r.names :=
  (h.sublist hv ha).trans (List.take_sublist _ _)

end Rulebook

end Readiness

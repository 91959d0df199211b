import Mathlib.Data.Prod.Lex
import Readiness.Rulebook.Basic

/-!
# Rulebook — which rulebooks are refused, and why

The rules, each said without the others, and the order in which they are tested.

* `Rulebook.WellFormed`: the rulebook keeps every rule.
* `StepDef.Breaks`, `Rulebook.Breaks`: a rule is broken, with its place in the order of the tests.
* `Rulebook.breachOf_first`, `Rulebook.breach?_first`: the tests of a step, and those of a rulebook,
  stop at the first breach.
* `Rulebook.wellFormed_iff`: a rulebook that breaks no rule is well formed.
* `Rulebook.validate_iff`: a rulebook is accepted just when it is well formed, and is else refused
  for the first breach.
-/

namespace Readiness

/-! ### Rules -/

namespace Rulebook

/-- A letter or a digit of ASCII, a hyphen or an underscore. -/
def NameChar (c : Char) : Prop :=
  ('a' ≤ c ∧ c ≤ 'z') ∨ ('A' ≤ c ∧ c ≤ 'Z') ∨ ('0' ≤ c ∧ c ≤ '9') ∨ c = '-' ∨ c = '_'

theorem isNameChar_iff {c : Char} : isNameChar c = true ↔ NameChar c := by
  have upper : c.isUpper = true ↔ 'A' ≤ c ∧ c ≤ 'Z' := decide_eq_true_iff
  have lower : c.isLower = true ↔ 'a' ≤ c ∧ c ≤ 'z' :=
    Bool.and_eq_true_iff.trans (and_congr decide_eq_true_iff decide_eq_true_iff)
  have digit : c.isDigit = true ↔ '0' ≤ c ∧ c ≤ '9' :=
    Bool.and_eq_true_iff.trans (and_congr decide_eq_true_iff decide_eq_true_iff)
  have letter : c.isAlpha = true ↔ c.isUpper = true ∨ c.isLower = true := Bool.or_eq_true_iff
  have alphanum : c.isAlphanum = true ↔ c.isAlpha = true ∨ c.isDigit = true := Bool.or_eq_true_iff
  rw [isNameChar, Bool.or_eq_true, Bool.or_eq_true, beq_iff_eq, beq_iff_eq, alphanum, letter,
    upper, lower, digit, NameChar, or_assoc, or_assoc, or_assoc, or_left_comm]

/-- The name of a step: some characters, and no others than those. -/
def IsStepName (s : String) : Prop := s ≠ "" ∧ ∀ c ∈ s.toList, NameChar c

theorem isName_iff {s : String} : isName s = true ↔ IsStepName s := by
  rw [isName, Bool.and_eq_true, bne_iff_ne, List.all_eq_true]
  exact and_congr_right fun _ => forall₂_congr fun _ _ => isNameChar_iff

/-- The rulebook keeps every rule. -/
structure WellFormed (r : Rulebook) : Prop where
  steps : r.steps ≠ []
  history : 1 ≤ r.settings.historyDepth
  name : ∀ s ∈ r.steps, IsStepName s.name
  distinct : r.steps.Pairwise fun s t => s.name ≠ t.name
  /-- A step that is required stands before the one that requires it. -/
  requires : ∀ (i : Nat) s q, r.steps[i]? = some s → s.requires = some q →
    ∃ j < i, ∃ t, r.steps[j]? = some t ∧ t.name = q
  checks : ∀ s ∈ r.steps, s.checks ≠ []
  ungated : ∀ s ∈ r.steps, ∀ c ∈ s.checks, ∀ a, c.predicate ≠ .proofExists a

end Rulebook

/-- A step breaks the `k`-th rule on steps, after the steps named in `earlier`. -/
inductive StepDef.Breaks (earlier : List String) (s : StepDef) : Nat → RuleBreach → Prop
  | name : ¬ Rulebook.IsStepName s.name → Breaks earlier s 0 (.invalidName s.name)
  | duplicate : s.name ∈ earlier → Breaks earlier s 1 (.duplicateName s.name)
  | requires {q : String} : s.requires = some q → q ∉ earlier →
      Breaks earlier s 2 (.requiresLater s.name q)
  | checks : s.checks = [] → Breaks earlier s 3 (.noChecks s.name)
  | gate {c : CheckDef} {a : String} : c ∈ s.checks → c.predicate = .proofExists a →
      Breaks earlier s 4 (.declaredGate s.name)

namespace Rulebook

/-- The rulebook breaks a rule.  The rules on the rulebook come first, then those on each step. -/
inductive Breaks (r : Rulebook) : Nat × Nat → RuleBreach → Prop
  | noSteps : r.steps = [] → Breaks r (0, 0) .noSteps
  | noHistory : r.settings.historyDepth = 0 → Breaks r (0, 1) .noHistory
  | step {i k : Nat} {s : StepDef} {e : RuleBreach} : r.steps[i]? = some s →
      s.Breaks ((r.steps.take i).map (·.name)) k e → Breaks r (i + 1, k) e

end Rulebook

/-! ### The first finding -/

section Findings

variable {α : Type} {l : List (Option α)}

theorem findSome?_id_eq_none : l.findSome? id = none ↔ ∀ (i : Nat) a, l[i]? ≠ some (some a) := by
  rw [List.findSome?_eq_none_iff]
  constructor
  · intro h i a ha
    cases h _ (List.mem_of_getElem? ha)
  · intro h x hx
    obtain ⟨i, hi⟩ := List.mem_iff_getElem?.mp hx
    cases x with
    | none => rfl
    | some a => exact absurd hi (h i a)

/-- The search stops at the first that has something. -/
theorem findSome?_id_first {a : α} (h : l.findSome? id = some a) :
    ∃ i : Nat, l[i]? = some (some a) ∧ ∀ (j : Nat) b, l[j]? = some (some b) → i ≤ j := by
  rw [List.findSome?_eq_some_iff] at h
  obtain ⟨pre, x, post, rfl, rfl, hpre⟩ := h
  refine ⟨pre.length, by simp, fun j b hb => Nat.le_of_not_lt fun hlt => ?_⟩
  rw [List.getElem?_append_left hlt] at hb
  cases hpre _ (List.mem_of_getElem? hb)

end Findings

/-! ### One step -/

section Step

variable {earlier : List String} {s : StepDef} {k : Nat} {e e' : RuleBreach}

theorem Predicate.isGate_iff {p : Predicate} : p.isGate = true ↔ ∃ a, p = .proofExists a := by
  cases p <;> simp [isGate, kind]

/-- What the tests of a step find, one after the other. -/
def StepDef.findings (earlier : List String) (s : StepDef) : List (Option RuleBreach) :=
  [if Rulebook.isName s.name then none else some (.invalidName s.name),
   if earlier.contains s.name then some (.duplicateName s.name) else none,
   (s.requires.filter fun q => !earlier.contains q).map (.requiresLater s.name),
   if s.checks.isEmpty then some (.noChecks s.name) else none,
   if s.checks.any fun c => c.predicate.isGate then some (.declaredGate s.name) else none]

/-- The `k`-th test finds the breaches of the `k`-th rule. -/
theorem StepDef.breaks_iff : s.Breaks earlier k e ↔ (s.findings earlier)[k]? = some (some e) := by
  constructor
  · intro h
    cases h with
    | name hn => simp [findings, Rulebook.isName_iff, hn]
    | duplicate hd => simp [findings, hd]
    | requires hq hn => simp [findings, hq, hn]
    | checks hc => simp [findings, hc]
    | @gate c a hc hg =>
        have hg : ∃ c ∈ s.checks, c.predicate.isGate = true :=
          ⟨c, hc, Predicate.isGate_iff.mpr ⟨a, hg⟩⟩
        simpa [findings] using hg
  · intro h
    match k with
    | 0 =>
        obtain ⟨hn, rfl⟩ : ¬ Rulebook.IsStepName s.name ∧ RuleBreach.invalidName s.name = e := by
          simpa [findings, ← Rulebook.isName_iff] using h
        exact .name hn
    | 1 =>
        obtain ⟨hd, rfl⟩ : s.name ∈ earlier ∧ RuleBreach.duplicateName s.name = e := by
          simpa [findings] using h
        exact .duplicate hd
    | 2 =>
        obtain ⟨q, ⟨hq, hn⟩, rfl⟩ : ∃ q, (s.requires = some q ∧ q ∉ earlier) ∧
            RuleBreach.requiresLater s.name q = e := by
          simpa [findings, Option.filter_eq_some_iff] using h
        exact .requires hq hn
    | 3 =>
        obtain ⟨hc, rfl⟩ : s.checks = [] ∧ RuleBreach.noChecks s.name = e := by
          simpa [findings] using h
        exact .checks hc
    | 4 =>
        obtain ⟨⟨c, hc, hg⟩, rfl⟩ : (∃ c ∈ s.checks, c.predicate.isGate = true) ∧
            RuleBreach.declaredGate s.name = e := by
          simpa [findings] using h
        obtain ⟨a, ha⟩ := Predicate.isGate_iff.mp hg
        exact .gate hc ha
    | k + 5 => simp [findings] at h

theorem StepDef.Breaks.unique (h : s.Breaks earlier k e) (h' : s.Breaks earlier k e') : e = e' := by
  rw [StepDef.breaks_iff] at h h'
  exact Option.some.inj (Option.some.inj (h.symm.trans h'))

namespace Rulebook

theorem breachOf_eq (earlier : List String) (s : StepDef) :
    breachOf earlier s = (s.findings earlier).findSome? id := by
  rw [breachOf, StepDef.findings]
  cases isName s.name with
  | false => rfl
  | true =>
      cases earlier.contains s.name with
      | true => rfl
      | false =>
          cases s.requires.filter fun q => !earlier.contains q with
          | some q => rfl
          | none =>
              cases s.checks.isEmpty with
              | true => rfl
              | false => cases s.checks.any fun c => c.predicate.isGate <;> rfl

/-- A step passes its tests just when it breaks no rule. -/
theorem breachOf_eq_none : breachOf earlier s = none ↔ ∀ k e, ¬ s.Breaks earlier k e := by
  simp only [breachOf_eq, findSome?_id_eq_none, StepDef.breaks_iff, ne_eq]

/-- The tests of a step stop at the first rule it breaks. -/
theorem breachOf_first (h : breachOf earlier s = some e) :
    ∃ k, s.Breaks earlier k e ∧ ∀ k' e', s.Breaks earlier k' e' → k ≤ k' := by
  rw [breachOf_eq] at h
  simp only [StepDef.breaks_iff]
  exact findSome?_id_first h

end Rulebook

end Step

/-! ### All steps -/

namespace Rulebook

variable {r : Rulebook} {e e' : RuleBreach} {p : Nat × Nat}

/-- Every step is tested after the steps before it. -/
theorem breachIn_eq (earlier : List String) (ss : List StepDef) :
    breachIn earlier ss =
      (ss.mapIdx fun i s => breachOf (earlier ++ (ss.take i).map (·.name)) s).findSome? id := by
  induction ss generalizing earlier with
  | nil => rfl
  | cons s ss ih =>
      rw [breachIn, List.mapIdx_cons, List.findSome?_cons, ih]
      simp only [List.take_zero, List.map_nil, List.append_nil, List.take_succ_cons, List.map_cons,
        List.append_assoc, List.singleton_append, id_eq]
      cases breachOf earlier s <;> rfl

theorem getElem?_mapIdx_breachOf {i : Nat} :
    (r.steps.mapIdx fun i s => breachOf ([] ++ (r.steps.take i).map (·.name)) s)[i]? =
        some (some e) ↔
      ∃ s, r.steps[i]? = some s ∧ breachOf ((r.steps.take i).map (·.name)) s = some e := by
  simp

theorem Breaks.unique (h : r.Breaks p e) (h' : r.Breaks p e') : e = e' := by
  cases h with
  | step hs hb =>
      cases h' with
      | step hs' hb' =>
          obtain rfl := Option.some.inj (hs.symm.trans hs')
          exact hb.unique hb'
  | _ => cases h'; rfl

/-- The tests of a rulebook stop at the first rule it breaks. -/
theorem breach?_first (h : r.breach? = some e) :
    ∃ p, r.Breaks p e ∧ ∀ p' e', r.Breaks p' e' → toLex p ≤ toLex p' := by
  rw [breach?] at h
  split at h
  · rename_i hs
    cases h
    refine ⟨(0, 0), .noSteps (by simpa using hs), fun p' e' _ => Prod.Lex.toLex_le_toLex.mpr ?_⟩
    omega
  · rename_i hs
    have hs : r.steps ≠ [] := by simpa using hs
    split at h
    · rename_i hd
      cases h
      refine ⟨(0, 1), .noHistory hd, fun p' e' hb => Prod.Lex.toLex_le_toLex.mpr ?_⟩
      cases hb with
      | noSteps hs' => exact absurd hs' hs
      | noHistory => exact .inr ⟨rfl, Nat.le_refl 1⟩
      | step => exact .inl (Nat.succ_pos _)
    · rename_i hd
      rw [breachIn_eq] at h
      obtain ⟨i, hi, hfirst⟩ := findSome?_id_first h
      obtain ⟨s, hsi, ho⟩ := getElem?_mapIdx_breachOf.mp hi
      obtain ⟨k, hb, hk⟩ := breachOf_first ho
      refine ⟨(i + 1, k), .step hsi hb, fun p' e' hb' => Prod.Lex.toLex_le_toLex.mpr ?_⟩
      cases hb' with
      | noSteps hs' => exact absurd hs' hs
      | noHistory hd' => exact absurd hd' hd
      | @step j l t e' ht hb' =>
          -- the step at `j` is refused too, if for another reason
          obtain ⟨b, hbj⟩ : ∃ b, breachOf ((r.steps.take j).map (·.name)) t = some b :=
            Option.ne_none_iff_exists'.mp fun hn => breachOf_eq_none.mp hn _ _ hb'
          have hij := hfirst j b (getElem?_mapIdx_breachOf.mpr ⟨t, ht, hbj⟩)
          rcases Nat.lt_or_eq_of_le hij with hlt | rfl
          · exact .inl (Nat.succ_lt_succ hlt)
          · obtain rfl := Option.some.inj (hsi.symm.trans ht)
            exact .inr ⟨rfl, hk _ _ hb'⟩

theorem breach?_eq_none : r.breach? = none ↔ ∀ p e, ¬ r.Breaks p e := by
  constructor
  · intro h p e hb
    rw [breach?] at h
    split at h
    · cases h
    · rename_i hs
      split at h
      · cases h
      · rename_i hd
        rw [breachIn_eq, findSome?_id_eq_none] at h
        cases hb with
        | noSteps hs' => exact hs (by simpa using hs')
        | noHistory hd' => exact hd hd'
        | @step i k s e hsi hb =>
            obtain ⟨b, hbi⟩ : ∃ b, breachOf ((r.steps.take i).map (·.name)) s = some b :=
              Option.ne_none_iff_exists'.mp fun hn => breachOf_eq_none.mp hn _ _ hb
            exact h i b (getElem?_mapIdx_breachOf.mpr ⟨s, hsi, hbi⟩)
  · intro h
    cases hb : r.breach? with
    | none => rfl
    | some e =>
        obtain ⟨p, hp, -⟩ := breach?_first hb
        exact absurd hp (h p e)

/-! ### Well-formed rulebooks -/

theorem mem_names_take {i : Nat} {a : String} : a ∈ (r.steps.take i).map (·.name) ↔
    ∃ j < i, ∃ t, r.steps[j]? = some t ∧ t.name = a := by
  rw [List.mem_map]
  constructor
  · rintro ⟨t, ht, rfl⟩
    obtain ⟨j, hj⟩ := List.mem_iff_getElem?.mp ht
    rw [List.getElem?_take] at hj
    split at hj
    · exact ⟨j, ‹_›, t, hj, rfl⟩
    · cases hj
  · rintro ⟨j, hj, t, ht, rfl⟩
    exact ⟨t, List.mem_iff_getElem?.mpr ⟨j, by rw [List.getElem?_take_of_lt hj, ht]⟩, rfl⟩

theorem WellFormed.not_breaks (h : r.WellFormed) : ¬ r.Breaks p e := by
  intro hb
  cases hb with
  | noSteps hs => exact h.steps hs
  | noHistory hd => exact absurd h.history (by omega)
  | @step i k s e hs hb =>
      have hm := List.mem_of_getElem? hs
      cases hb with
      | name hn => exact hn (h.name s hm)
      | duplicate hd =>
          obtain ⟨j, hj, t, ht, hn⟩ := mem_names_take.mp hd
          obtain ⟨hi, rfl⟩ := List.getElem?_eq_some_iff.mp hs
          obtain ⟨hj', rfl⟩ := List.getElem?_eq_some_iff.mp ht
          exact List.pairwise_iff_getElem.mp h.distinct j i hj' hi hj hn
      | requires hq hn => exact hn (mem_names_take.mpr (h.requires i s _ hs hq))
      | checks hc => exact h.checks s hm hc
      | gate hc hg => exact h.ungated s hm _ hc _ hg

theorem wellFormed_of_not_breaks (h : ∀ p e, ¬ r.Breaks p e) : r.WellFormed where
  steps hs := h _ _ (.noSteps hs)
  history := Nat.one_le_iff_ne_zero.mpr fun hd => h _ _ (.noHistory hd)
  name s hs := by
    obtain ⟨i, hi⟩ := List.mem_iff_getElem?.mp hs
    exact Classical.byContradiction fun hn => h _ _ (.step hi (.name hn))
  distinct := by
    rw [List.pairwise_iff_getElem]
    intro j i hj hi hji hn
    refine h _ _ (.step (List.getElem?_eq_getElem hi) (.duplicate ?_))
    exact mem_names_take.mpr ⟨j, hji, _, List.getElem?_eq_getElem hj, hn⟩
  requires i s q hs hq := by
    refine mem_names_take.mp (Classical.byContradiction fun hn => ?_)
    exact h _ _ (.step hs (.requires hq hn))
  checks s hs hc := by
    obtain ⟨i, hi⟩ := List.mem_iff_getElem?.mp hs
    exact h _ _ (.step hi (.checks hc))
  ungated s hs c hc a hg := by
    obtain ⟨i, hi⟩ := List.mem_iff_getElem?.mp hs
    exact h _ _ (.step hi (.gate hc hg))

theorem wellFormed_iff : r.WellFormed ↔ ∀ p e, ¬ r.Breaks p e :=
  ⟨fun h _ _ => h.not_breaks, wellFormed_of_not_breaks⟩

theorem validate_eq_ok : r.validate = .ok () ↔ r.breach? = none := by
  rw [validate]
  cases r.breach? <;> simp

theorem validate_eq_error : r.validate = .error e ↔ r.breach? = some e := by
  rw [validate]
  cases r.breach? <;> simp

theorem wellFormed_of_validate (hv : r.validate = .ok ()) : r.WellFormed :=
  wellFormed_iff.mpr (breach?_eq_none.mp (validate_eq_ok.mp hv))

/-- A rulebook is accepted just when it is well formed.  Any other is refused for the first rule it
breaks: no steps, no history, and then step by step the name, its being new, what is required, the
checks, and that none of them is a gate. -/
theorem validate_iff (r : Rulebook) :
    (r.validate = .ok () ↔ r.WellFormed) ∧
      ∀ e, r.validate = .error e ↔
        ∃ p, r.Breaks p e ∧ ∀ p' e', r.Breaks p' e' → toLex p ≤ toLex p' := by
  refine ⟨by rw [validate_eq_ok, breach?_eq_none, wellFormed_iff], fun e => ?_⟩
  rw [validate_eq_error]
  refine ⟨breach?_first, fun ⟨p, hp, hfirst⟩ => ?_⟩
  cases hb : r.breach? with
  | none => exact absurd hp (breach?_eq_none.mp hb p e)
  | some b =>
      obtain ⟨q, hq, hq'⟩ := breach?_first hb
      obtain rfl : p = q := toLex.injective (le_antisymm (hfirst q b hq) (hq' p e hp))
      rw [hp.unique hq]

end Rulebook

end Readiness

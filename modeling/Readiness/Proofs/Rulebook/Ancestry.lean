import Mathlib.Logic.Relation
import Readiness.Proofs.Rulebook.Rules

/-!
# Rulebook — prerequisites form a tree

Nothing looks for cycles among prerequisites.  There are none, for a step is declared before every
step that it gates.

* `ancestor?`: where one comes by going to the prerequisite a number of times.
* `index?_of_names`: a name stands at one position only.
* `prerequisite?_first`, `prerequisite?_later`: the first step has no prerequisite, and every other
  step has an earlier one.
* `rooted_tree`: from every step the prerequisites lead to the first step, and no step comes up
  twice on the way.
-/

namespace Readiness.Rulebook

variable {r : Rulebook} {a p : String} {i : Nat}

/-- The step that is reached from `a` by going to the prerequisite `k` times. -/
def ancestor? (r : Rulebook) : Nat → String → Option String
  | 0, a => some a
  | k + 1, a => (r.prerequisite? a).bind (r.ancestor? k)

theorem ancestor?_succ (h : r.prerequisite? a = some p) (k : Nat) :
    r.ancestor? (k + 1) a = r.ancestor? k p := by
  rw [ancestor?, h, Option.bind_some]

/-- A step without a prerequisite leads nowhere. -/
theorem ancestor?_eq_none (h : r.prerequisite? a = none) {k : Nat} (hk : 0 < k) :
    r.ancestor? k a = none := by
  obtain ⟨k, rfl⟩ := Nat.exists_eq_succ_of_ne_zero (Nat.ne_zero_of_lt hk)
  rw [ancestor?, h, Option.bind_none]

/-! ### Positions -/

theorem nodup_names (hv : r.validate = .ok ()) : r.names.Nodup := by
  rw [List.Nodup, names, List.pairwise_map]
  exact (wellFormed_of_validate hv).distinct

/-- A name stands at one position only. -/
theorem index?_of_names (hv : r.validate = .ok ()) (h : r.names[i]? = some a) :
    r.index? a = some i := by
  obtain ⟨hi, rfl⟩ := List.getElem?_eq_some_iff.mp h
  rw [index?, List.findIdx?_eq_some_iff_getElem]
  have hi' : i < r.steps.length := by simpa [names] using hi
  refine ⟨hi', by simp [names], fun j hj hn => ?_⟩
  have hne := List.pairwise_iff_getElem.mp (nodup_names hv) j i (by omega) hi hj
  exact hne (by simpa [names] using hn)

theorem idxOf_of_names (hv : r.validate = .ok ()) (h : r.names[i]? = some a) :
    r.names.idxOf a = i := by
  obtain ⟨hi, rfl⟩ := List.getElem?_eq_some_iff.mp h
  exact (nodup_names hv).idxOf_getElem i hi

/-- The first step has no prerequisite. -/
theorem prerequisite?_first (hv : r.validate = .ok ()) (h : r.names[0]? = some a) :
    r.prerequisite? a = none := by
  cases hp : r.prerequisite? a with
  | none => rfl
  | some p =>
      have hlt := idxOf_prerequisite? hv hp
      rw [idxOf_of_names hv h] at hlt
      exact absurd hlt (Nat.not_lt_zero _)

/-- Every later step has a prerequisite: the one it names, or the step before it. -/
theorem prerequisite?_later (hv : r.validate = .ok ()) (h : r.names[i]? = some a) (hi : 0 < i) :
    ∃ p, r.prerequisite? a = some p := by
  have hx := index?_of_names hv h
  obtain ⟨s, -, -, hs, -⟩ := index?_eq_some hx
  obtain ⟨j, rfl⟩ := Nat.exists_eq_succ_of_ne_zero (Nat.ne_zero_of_lt hi)
  have hj : j < r.steps.length :=
    Nat.lt_of_succ_lt (List.getElem?_eq_some_iff.mp hs).1
  rw [prerequisite?, hx, Option.bind_some, gateAt?, hs, Option.bind_some, previous?,
    List.getElem?_eq_getElem hj]
  cases s.requires with
  | none => exact ⟨_, rfl⟩
  | some q => exact ⟨q, rfl⟩

/-- The prerequisite of a later step stands before it. -/
theorem names_prerequisite? (hv : r.validate = .ok ()) (h : r.names[i]? = some a)
    (hp : r.prerequisite? a = some p) : ∃ j < i, r.names[j]? = some p := by
  have hmem := (prerequisite?_mem hv hp).2
  refine ⟨r.names.idxOf p, ?_, ?_⟩
  · have hlt := idxOf_prerequisite? hv hp
    rwa [idxOf_of_names hv h] at hlt
  · rw [List.getElem?_eq_getElem (List.idxOf_lt_length_of_mem hmem), List.getElem_idxOf]

/-! ### The tree -/

/-- The way from a step up to the first one: `n` times to the prerequisite, always to a step
further to the front. -/
structure Ascent (r : Rulebook) (root a : String) (n : Nat) : Prop where
  ends : r.ancestor? n a = some root
  beyond : ∀ k, n < k → r.ancestor? k a = none
  inside : ∀ k ≤ n, ∃ b ∈ r.names, r.ancestor? k a = some b
  /-- No step comes up twice. -/
  fresh : ∀ k l, k ≤ n → l ≤ n → r.ancestor? k a = r.ancestor? l a → k = l

theorem Ascent.root (hv : r.validate = .ok ()) (h : r.names[0]? = some a) : r.Ascent a a 0 where
  ends := rfl
  beyond _ hk := ancestor?_eq_none (prerequisite?_first hv h) hk
  inside k hk := ⟨a, List.mem_of_getElem? h, by rw [Nat.le_zero.mp hk]; rfl⟩
  fresh k l hk hl _ := by omega

/-- What is reached from a step is the step itself or stands before it. -/
theorem idxOf_ancestor? (hv : r.validate = .ok ()) {b : String} {k : Nat}
    (h : r.ancestor? k a = some b) : r.names.idxOf b + k ≤ r.names.idxOf a := by
  induction k generalizing a with
  | zero => cases h; exact Nat.le_refl _
  | succ k ih =>
      obtain ⟨p, hp, hb⟩ := Option.bind_eq_some_iff.mp h
      have hlt := idxOf_prerequisite? hv hp
      have hle := ih hb
      omega

theorem Ascent.step (hv : r.validate = .ok ()) {root : String} {n : Nat}
    (hp : r.prerequisite? a = some p) (h : r.Ascent root p n) : r.Ascent root a (n + 1) where
  ends := (ancestor?_succ hp n).trans h.ends
  beyond k hk := by
    obtain ⟨k, rfl⟩ := Nat.exists_eq_succ_of_ne_zero (Nat.ne_zero_of_lt hk)
    exact (ancestor?_succ hp k).trans (h.beyond k (Nat.lt_of_succ_lt_succ hk))
  inside k hk := by
    cases k with
    | zero => exact ⟨a, (prerequisite?_mem hv hp).1, rfl⟩
    | succ k => rw [ancestor?_succ hp]; exact h.inside k (Nat.le_of_succ_le_succ hk)
  fresh k l hk hl he := by
    -- nothing above the step is the step itself, for it stands further to the front
    have above : ∀ m, r.ancestor? (m + 1) a ≠ r.ancestor? 0 a := fun m hm => by
      have hle := idxOf_ancestor? hv hm
      omega
    cases k with
    | zero => cases l with
      | zero => rfl
      | succ l => exact absurd he.symm (above l)
    | succ k => cases l with
      | zero => exact absurd he (above k)
      | succ l =>
          rw [ancestor?_succ hp, ancestor?_succ hp] at he
          rw [h.fresh k l (Nat.le_of_succ_le_succ hk) (Nat.le_of_succ_le_succ hl) he]

theorem exists_ascent (hv : r.validate = .ok ()) {root : String} (hroot : r.names[0]? = some root)
    (h : r.names[i]? = some a) : ∃ n ≤ i, r.Ascent root a n := by
  induction i using Nat.strongRecOn generalizing a with
  | _ i ih =>
      rcases Nat.eq_zero_or_pos i with rfl | hi
      · rw [hroot] at h
        cases h
        exact ⟨0, Nat.le_refl 0, .root hv hroot⟩
      · obtain ⟨p, hp⟩ := prerequisite?_later hv h hi
        obtain ⟨j, hj, hpj⟩ := names_prerequisite? hv h hp
        obtain ⟨n, hn, hasc⟩ := ih j hj hpj
        exact ⟨n + 1, Nat.lt_of_le_of_lt hn hj, hasc.step hv hp⟩

/-- A chain of gates never comes back. -/
theorem idxOf_lt_of_transGen (hv : r.validate = .ok ()) {b : String}
    (h : Relation.TransGen (fun a p => r.prerequisite? a = some p) a b) :
    r.names.idxOf b < r.names.idxOf a := by
  induction h with
  | single hp => exact idxOf_prerequisite? hv hp
  | tail _ hp ih => exact Nat.lt_trans (idxOf_prerequisite? hv hp) ih

/-- The prerequisites of a well-formed rulebook form a tree with the first step at its root.  The
first step has no prerequisite, and the prerequisite of every other step stands before it.  From
each step the prerequisites lead through steps of the rulebook to the first one and no further, and
no step comes up twice.  So no step gates itself, directly or through others. -/
theorem rooted_tree (hv : r.validate = .ok ()) :
    ∃ root, r.names[0]? = some root ∧ r.prerequisite? root = none ∧
      (∀ i a, 0 < i → r.names[i]? = some a →
        ∃ p, r.prerequisite? a = some p ∧ ∃ j < i, r.names[j]? = some p) ∧
      (∀ i a, r.names[i]? = some a → ∃ n ≤ i, r.Ascent root a n) ∧
      ∀ a, ¬ Relation.TransGen (fun a p => r.prerequisite? a = some p) a a := by
  obtain ⟨root, hroot⟩ : ∃ root, r.names[0]? = some root := by
    refine ⟨_, List.getElem?_eq_getElem (List.length_pos_iff.mpr fun hn => ?_)⟩
    have hb := breach?_of_validate hv
    rw [breach?, List.map_eq_nil_iff.mp hn] at hb
    cases hb
  refine ⟨root, hroot, prerequisite?_first hv hroot, fun i a hi h => ?_,
    fun i a h => exists_ascent hv hroot h, fun a h => ?_⟩
  · obtain ⟨p, hp⟩ := prerequisite?_later hv h hi
    exact ⟨p, hp, names_prerequisite? hv h hp⟩
  · exact Nat.lt_irrefl _ (idxOf_lt_of_transGen hv h)

/-- Four steps: the last two both build on the second, one of them by saying so. -/
def branching : Rulebook :=
  let check : CheckDef := ⟨"A file", none, .fileExists "f"⟩
  let step (name : String) (requires : Option String) : StepDef :=
    ⟨name, none, requires, false, [check]⟩
  ⟨.standard, [step "setup" none, step "ci" none, step "review" none, step "release" (some "ci")]⟩

theorem rooted_tree_branching :
    branching.validate = .ok () ∧ ∃ root, branching.names[0]? = some root ∧
      branching.prerequisite? root = none ∧
      (∀ i a, 0 < i → branching.names[i]? = some a →
        ∃ p, branching.prerequisite? a = some p ∧ ∃ j < i, branching.names[j]? = some p) ∧
      (∀ i a, branching.names[i]? = some a → ∃ n ≤ i, branching.Ascent root a n) ∧
      ∀ a, ¬ Relation.TransGen (fun a p => branching.prerequisite? a = some p) a a :=
  ⟨rfl, rooted_tree rfl⟩

end Readiness.Rulebook

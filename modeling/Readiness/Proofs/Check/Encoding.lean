import Readiness.Json.Reader
import Readiness.Proofs.Check
import Readiness.Proofs.Json.Texts

/-!
# Check — what predicates are written as

A predicate is written as a table of its kind and its arguments.  It is read back from any table
that has these members, however they are ordered and whatever members of other names it has beside
them.  So no two predicates are written as tables with the same members.

* `Plain.ofDocument_eq`: an argument is the same value in every format.
* `Predicate.decodeAt_members`: a predicate is read from its members and what stands beside them.
* `Predicate.decodeAt_arranged`: decoding undoes encoding, whatever the layout.
-/

namespace Readiness

/-- A plain value is read as the same in every format. -/
theorem Toml.Plain.ofDocument_eq {d : Document} (h : Plain d) :
    Reading.ofDocument d = readingOf d := by
  have scalar {d : Document} (h : Scalar d) : Reading.ofDocument d = readingOf d := by
    cases h <;> rfl
  cases h with
  | scalar h => exact scalar h
  | list h =>
      rename_i xs
      have hxs : Reading.ofItems xs = readingsOf xs := by
        induction xs with
        | nil => rfl
        | cons x xs ih =>
            rw [List.forall_mem_cons] at h
            rw [Reading.ofItems, readingsOf, scalar h.1, ih h.2]
      rw [Reading.ofDocument, readingOf, hxs]

namespace Predicate

open Toml (memberReadings)

variable {p q : Predicate} {depth : Nat} {ms extra : List (String × Document)}

theorem ofMembers_members (hp : p.InRange) :
    Reading.ofMembers p.members = memberReadings p.members := by
  rw [Reading.ofMembers_eq_map, Toml.memberReadings_eq_map]
  refine List.map_congr_left fun m hm => congrArg (Prod.mk m.1) ?_
  rcases List.mem_cons.mp hm with rfl | hm
  · rfl
  · exact (plain_arguments hp m hm).ofDocument_eq

/-- The member has the name of no member that a kind can have. -/
def Foreign (k : Kind) (m : String × Document) : Prop :=
  m.1 ≠ "kind" ∧ ∀ f ∈ k.fields, f.name ≠ m.1

/-- Lists of texts are the only arguments with parts. -/
theorem nesting_toDocument_le (p : Predicate) : p.toDocument.nesting ≤ 2 := by
  have items (xs : List String) : Document.nestingItems (xs.map .text) = 0 := by
    induction xs with
    | nil => rfl
    | cons x xs ih => rw [List.map_cons, Document.nestingItems, ih]; rfl
  rw [toDocument, members, Document.nesting, Document.nestingMembers]
  cases p with
  | anyFileExists ps => simp [arguments, Document.nestingMembers, Document.nesting, items]
  | branchProtection c a n =>
      cases c <;> cases n <;>
        simp [arguments, optionalMember, Document.nestingMembers, Document.nesting]
  | ciGreen w | ciJob n w =>
      cases w <;> simp [arguments, optionalMember, Document.nestingMembers, Document.nesting]
  | _ => simp [arguments, Document.nestingMembers, Document.nesting]

/-- A predicate is read from its members, in whatever order they stand and whatever stands beside
them. -/
theorem decodeAt_members (hp : p.InRange) (hm : ms.Perm (p.members ++ extra))
    (hx : ∀ m ∈ extra, Foreign p.kind m) (hn : (Document.table ms).nesting ≤ depth) :
    decodeAt depth (.ofDocument (.table ms)) = .ok p := by
  rw [Document.nesting] at hn
  have hsound : ∀ m ∈ ms, (Reading.ofDocument m.2).sound (depth - 1) = true := fun m hmem =>
    Reading.sound_ofDocument m.2 (by
      have := Document.nesting_le_of_mem hmem
      omega)
  have hperm : (Reading.ofMembers ms).Perm
      (memberReadings p.members ++ Reading.ofMembers extra) := by
    rw [← ofMembers_members hp]
    simp only [Reading.ofMembers_eq_map, ← List.map_append]
    exact hm.map _
  rw [Reading.ofDocument, decodeAt]
  refine ofMembers_beside hp ?_ ?_ hperm
  · rw [Toml.memberReadings_eq_map, List.forall_mem_map]
    intro m hmem
    rw [← (plain_arguments hp m hmem).ofDocument_eq]
    exact hsound m (hm.mem_iff.mpr (List.mem_append_left _ (List.mem_cons_of_mem _ hmem)))
  · rw [Reading.ofMembers_eq_map, List.forall_mem_map]
    exact fun m hmem =>
      ⟨(hx m hmem).1, (hx m hmem).2, hsound m (hm.mem_iff.mpr (List.mem_append_right _ hmem))⟩

/-- So it is from its members alone. -/
theorem decodeAt_of_perm (hp : p.InRange) (hm : ms.Perm p.members)
    (hn : (Document.table ms).nesting ≤ depth) :
    decodeAt depth (.ofDocument (.table ms)) = .ok p := by
  have hm : ms.Perm (p.members ++ []) := by rwa [List.append_nil]
  exact decodeAt_members hp hm (List.forall_mem_nil _) hn

/-- A predicate is read from what it is written as. -/
theorem decodeAt_toDocument (hp : p.InRange) (hd : 2 ≤ depth) :
    decodeAt depth (.ofDocument p.toDocument) = .ok p :=
  decodeAt_of_perm hp (.refl _) (Nat.le_trans p.nesting_toDocument_le hd)

/-- Decoding undoes encoding, whatever the layout.  A predicate is read from its members in any
order, with any others beside them that have the names of none of its kind's, and so it is from a
text in which they stand; what it is written as is read back and written as the same; and predicates
that are written with the same members are the same. -/
theorem decodeAt_arranged (hp : p.InRange) :
    (∀ ms extra, ms.Perm (p.members ++ extra) → (∀ m ∈ extra, Foreign p.kind m) →
      (∀ depth, (Document.table ms).nesting ≤ depth →
        decodeAt depth (.ofDocument (.table ms)) = .ok p) ∧
      ∀ s, Json.readInput (s.toList.map some) = (.ofDocument (.table ms), true) →
        (Document.table ms).nesting ≤ Json.depthMax →
          Json.decode (decodeAt Json.depthMax) s = .ok p) ∧
    (∀ depth, 2 ≤ depth →
      (decodeAt depth (.ofDocument p.toDocument)).map toDocument = .ok p.toDocument) ∧
    ∀ q, q.InRange → q.members.Perm p.members → q = p := by
  refine ⟨fun ms extra hm hx => ⟨fun depth hn => decodeAt_members hp hm hx hn, fun s hs hn => ?_⟩,
    fun depth hd => ?_, fun q hq hm => ?_⟩
  · rw [Json.decode, Json.decodeInput, hs]
    dsimp only
    rw [decodeAt_members hp hm hx hn]
    rfl
  · rw [decodeAt_toDocument hp hd]
    rfl
  · -- the one table is read as both
    have hread : decodeAt 2 (.ofDocument q.toDocument) = .ok p :=
      decodeAt_of_perm hp hm q.nesting_toDocument_le
    exact Except.ok.inj ((decodeAt_toDocument hq (Nat.le_refl 2)).symm.trans hread)

/-- The kind in the middle, one optional argument left out, and beside them a member that is an
argument of other kinds only. -/
theorem decodeAt_arranged_scattered :
    let text := Json.pretty (.table
      (Json.texts [("path", "README"), ("kind", "ci_job"), ("name", "test")]))
    (ciJob "test" none).InRange ∧
      Json.decode (decodeAt Json.depthMax) text = .ok (ciJob "test" none) := by
  intro text
  have hp : (ciJob "test" none).InRange := trivial
  have hx : Foreign .ciJob ("path", .text "README") := ⟨by decide, by decide⟩
  obtain ⟨-, hread⟩ := (decodeAt_arranged hp).1
    [("path", .text "README"), ("kind", .text "ci_job"), ("name", .text "test")]
    [("path", .text "README")] (List.perm_append_singleton _ _).symm
    (List.forall_mem_singleton.mpr hx)
  exact ⟨hp, hread text (Json.readInput_pretty _ _) (by decide)⟩

end Predicate

end Readiness

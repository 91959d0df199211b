import Readiness.Proofs.Text.Utf8
import Readiness.Repository.Basic

/-!
# Repository — the commit HEAD stands for

What HEAD leads to, as a relation, and what is said where it leads nowhere.

* `LeadsTo`: a name stands for an id, through so many symbolic references at most.
* `HeadAt`: HEAD stands for a commit of the repository.
* `revision_eq_ok`, `revision_error`: HEAD is resolved just where it stands for a commit, and
  elsewhere there is no revision or the repository is at fault.
* `Vcs.PlacedAt`, `head_ofTree_eq_ok`: the same of what version control says about a work tree.
-/

namespace Readiness

namespace Repository

-- what a name stands for at once is not looked into here
attribute [local irreducible] reference

variable {r : Repository} {name id : String} {c : Commit} {n : Nat}

/-- Looked up in `look`, the name stands for the id, through at most `n` symbolic references. -/
inductive LeadsTo (look : String → Except RefProblem Reference) : Nat → String → String → Prop
  | direct {n : Nat} {name id : String} : look name = .ok (.direct id) → LeadsTo look n name id
  | symbolic {n : Nat} {name target id : String} : look name = .ok (.symbolic target) →
      LeadsTo look n target id → LeadsTo look (n + 1) name id

theorem follow_eq_ok {look : String → Except RefProblem Reference} :
    follow look n name = .ok id ↔ LeadsTo look n name id := by
  constructor
  · intro h
    fun_induction follow look n name with
    | case1 => cases h
    | case2 n name i hr => cases h; exact .direct hr
    | case3 => cases h
    | case4 name target hr n ih => exact .symbolic hr (ih h)
  · intro h
    induction h with
    | direct hr => rw [follow, hr]
    | symbolic hr _ ih => rw [follow, hr]; exact ih

/-- A reference is what its file says. -/
theorem reference_of_file {text : String} {ref : Reference}
    (hf : r.files.readBytes (Path.join r.gitDir name) = .ok text.toUTF8)
    (hp : Reference.parse? text = some ref) : r.reference name = .ok ref := by
  rw [reference, hf]
  dsimp only
  rw [Text.Utf8.fromUTF8?_toUTF8, Option.bind_some, hp]

/-- HEAD stands for a commit, itself or through the reference it names. -/
def HeadAt (r : Repository) (c : Commit) : Prop :=
  ∃ id, r.graph.commit? id = some c ∧
    (r.reference "HEAD" = .ok (.direct id) ∨
      ∃ target, r.reference "HEAD" = .ok (.symbolic target) ∧ Reference.isName target = true ∧
        LeadsTo r.reference nestingMax (Reference.normalize target) id)

theorem headId_eq_ok : r.headId = .ok id ↔
    r.reference "HEAD" = .ok (.direct id) ∨
      ∃ target, r.reference "HEAD" = .ok (.symbolic target) ∧ Reference.isName target = true ∧
        LeadsTo r.reference nestingMax (Reference.normalize target) id := by
  rw [headId]
  cases r.reference "HEAD" with
  | error p => simp
  | ok ref =>
      cases ref with
      | direct i => simp
      | symbolic target =>
          dsimp only
          split
          · rename_i hn
            rw [resolve, follow_eq_ok]
            simp [hn]
          · rename_i hn
            simp [hn]

theorem head_eq_ok : r.head = .ok c ↔ r.HeadAt c := by
  rw [head, HeadAt]
  cases h : r.headId with
  | error p =>
      refine iff_of_false nofun ?_
      rintro ⟨id, -, hid⟩
      rw [← headId_eq_ok, h] at hid
      cases hid
  | ok i =>
      simp only [← headId_eq_ok, h, Except.ok.injEq]
      cases hc : r.graph.commit? i <;> simp [hc]

theorem revision_eq_ok {rev : Revision} :
    r.revision = .ok rev ↔ ∃ c, r.HeadAt c ∧ r.graph.revision c = rev := by
  simp only [← head_eq_ok]
  rw [revision]
  cases r.head with
  | ok c => simp
  | error p => cases p <;> simp

theorem revision_error {e : Failure} (h : r.revision = .error e) :
    e = .noRevision ∨ ∃ reason, e = .repository reason := by
  rw [revision] at h
  split at h <;> cases h
  · exact .inl rfl
  · exact .inr ⟨_, rfl⟩

theorem graph_of_open {t : FileTree} {graph : CommitGraph} {root : String}
    (h : open? t graph root = some r) : r.graph = graph := by
  obtain ⟨dir, -, rfl⟩ := Option.map_eq_some_iff.mp h
  rfl

end Repository

namespace Vcs

attribute [local irreducible] Repository.open?

variable {t : FileTree} {graph : CommitGraph} {root : String} {r : Repository}

/-- The work tree has a repository whose HEAD stands for the commit. -/
def PlacedAt (t : FileTree) (graph : CommitGraph) (root : String) (c : Commit) : Prop :=
  ∃ r, Repository.open? t graph root = some r ∧ r.HeadAt c

theorem ofTree_of_open (h : Repository.open? t graph root = some r) :
    ofTree t graph root = r.vcs := by
  unfold ofTree
  rw [h]

theorem ofTree_of_not_open (h : Repository.open? t graph root = none) :
    ofTree t graph root = .unavailable root := by
  unfold ofTree
  rw [h]

theorem head_ofTree_eq_ok {rev : Revision} : (ofTree t graph root).head = .ok rev ↔
    ∃ c, PlacedAt t graph root c ∧ graph.revision c = rev := by
  cases h : Repository.open? t graph root with
  | none =>
      rw [ofTree_of_not_open h]
      refine iff_of_false nofun ?_
      rintro ⟨c, ⟨r, hr, -⟩, -⟩
      cases h.symm.trans hr
  | some r =>
      obtain rfl := Repository.graph_of_open h
      rw [ofTree_of_open h]
      refine Repository.revision_eq_ok.trans (exists_congr fun c => and_congr_left fun _ => ?_)
      constructor
      · exact fun hc => ⟨_, h, hc⟩
      · rintro ⟨r, hr, hc⟩
        cases h.symm.trans hr
        exact hc

theorem head_ofTree_error {e : Failure} (h : (ofTree t graph root).head = .error e) :
    e = .noRevision ∨ ∃ reason, e = .repository reason := by
  cases ho : Repository.open? t graph root with
  | none =>
      rw [ofTree_of_not_open ho] at h
      cases h
      exact .inr ⟨_, rfl⟩
  | some r =>
      rw [ofTree_of_open ho] at h
      exact Repository.revision_error h

end Vcs

end Readiness

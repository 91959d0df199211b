import Mathlib.Data.List.TakeWhile
import Readiness.Proofs.Repository.Head
import Readiness.Proofs.Text.Cutting
import Readiness.Proofs.Text.Searching

/-!
# Repository — the branch that the remote tracks

The remote `origin` has a HEAD of its own.  A file in the git directory names the branch that is the
default there; packed references name commits alone, and so cannot.

* `Reference.Names`, `Reference.parse?_eq_symbolic`: the text of a file that names a reference.
* `Repository.Tracks`, `Repository.tracking_eq_some`: the branch that is told is the one named in
  the file of origin's HEAD.
* `Vcs.TrackedAt`, `Vcs.tracking_ofTree`: the same of what version control says about a work tree.
-/

namespace Readiness

/-! ### Files that name a reference -/

namespace Reference

/-- The text names a reference: behind `ref:` stands its name, and then at most white space. -/
structure Names (text target : String) : Prop where
  last : ∃ c, target.toList.getLast? = some c ∧ isSpace c = false
  text : ∃ blanks, text = "ref: " ++ target ++ blanks ∧ ∀ c ∈ blanks.toList, isSpace c = true

/-- A text is what is left without the white space at its end, and that white space. -/
theorem exists_blanks (cs : List Char) :
    ∃ blanks, cs = trimEnd cs ++ blanks ∧ ∀ c ∈ blanks, isSpace c = true := by
  refine ⟨(cs.reverse.takeWhile isSpace).reverse, ?_, fun c hc => ?_⟩
  · rw [trimEnd, ← List.reverse_append, List.takeWhile_append_dropWhile, List.reverse_reverse]
  · exact List.mem_takeWhile_imp (List.mem_reverse.mp hc)

theorem isSpace_getLast?_trimEnd {cs : List Char} {c : Char}
    (h : (trimEnd cs).getLast? = some c) : isSpace c = false := by
  have hd := List.head?_dropWhile_not isSpace cs.reverse
  rw [trimEnd, List.getLast?_reverse] at h
  rw [h] at hd
  exact hd

/-- White space behind a text that does not end in any is all that is taken off. -/
theorem trimEnd_append {cs blanks : List Char} {c : Char} (h : cs.getLast? = some c)
    (hc : isSpace c = false) (hb : ∀ b ∈ blanks, isSpace b = true) :
    trimEnd (cs ++ blanks) = cs := by
  obtain ⟨ini, rfl⟩ := List.getLast?_eq_some_iff.mp h
  have hb : ∀ b ∈ blanks.reverse, isSpace b = true := fun b hm => hb b (List.mem_reverse.mp hm)
  rw [trimEnd, List.reverse_append, List.dropWhile_append_of_pos hb, List.reverse_concat,
    List.dropWhile_cons_of_neg (by simp [hc]), ← List.reverse_concat, List.reverse_reverse]

/-- A file is read as a symbolic reference just where its text names one. -/
theorem parse?_eq_symbolic {text target : String} :
    parse? text = some (.symbolic target) ↔ Names text target := by
  have hstart : symbolicStart = "ref: ".toList := rfl
  rw [parse?]
  constructor
  · intro h
    split at h
    · split at h
      · rename_i c r hd
        cases h
        obtain ⟨blanks, hb, hspace⟩ := exists_blanks text.toList
        rw [Text.dropStart?_eq_some] at hd
        obtain ⟨x, hx⟩ : ∃ x, (c :: r).getLast? = some x :=
          Option.ne_none_iff_exists'.mp (by simp)
        have htrim : (trimEnd text.toList).getLast? = some x := by
          rw [hd, List.getLast?_append, hx, Option.some_or]
        refine ⟨⟨x, by rwa [String.toList_ofList], isSpace_getLast?_trimEnd htrim⟩,
          String.ofList blanks, ?_, by rwa [String.toList_ofList]⟩
        · rw [← String.toList_inj, hb, hd, String.toList_append, String.toList_append, ← hstart,
            String.toList_ofList, String.toList_ofList]
      · cases h
    · split at h
      · cases h
      · split at h <;> cases h
      · cases h
  · rintro ⟨⟨c, hc, hs⟩, blanks, rfl, hb⟩
    have hlast : (symbolicStart ++ target.toList).getLast? = some c := by
      rw [List.getLast?_append, hc, Option.some_or]
    rw [String.toList_append, String.toList_append, ← hstart,
      if_pos (Text.startsWith_iff.mpr ⟨target.toList ++ blanks.toList, by simp⟩),
      trimEnd_append hlast hs hb, Text.dropStart?_eq_some.mpr rfl]
    cases ht : target.toList with
    | nil => rw [ht] at hc; cases hc
    | cons x xs =>
        dsimp only
        rw [← ht, String.ofList_toList]

end Reference

/-! ### What the repository says -/

namespace Repository

variable {r : Repository} {name target b : String}

/-- A reference is symbolic just where its file names another one. -/
theorem reference_eq_symbolic : r.reference name = .ok (.symbolic target) ↔
    ∃ text, r.files.readBytes (Path.join r.gitDir name) = .ok text.toUTF8 ∧
      Reference.Names text target := by
  constructor
  · intro h
    rw [reference] at h
    split at h
    · rename_i bytes hf
      split at h
      · rename_i ref hp
        cases h
        obtain ⟨text, ht, hp⟩ := Option.bind_eq_some_iff.mp hp
        exact ⟨text, hf.trans (congrArg _ (Text.Utf8.eq_toUTF8 ht)),
          Reference.parse?_eq_symbolic.mp hp⟩
      · cases h
    · -- without a file it is a packed one, which is not symbolic
      split at h <;> cases h
  · rintro ⟨text, hf, hn⟩
    exact reference_of_file hf (Reference.parse?_eq_symbolic.mpr hn)

/-- The remote `origin` has its HEAD at the branch: the file of that reference names the branch
among those of the remote. -/
def Tracks (r : Repository) (b : String) : Prop :=
  ∃ text, r.files.readBytes (Path.join r.gitDir "refs/remotes/origin/HEAD") = .ok text.toUTF8 ∧
    Reference.Names text ("refs/remotes/origin/" ++ b)

/-- The branch that is told is the one at which the remote has its HEAD. -/
theorem tracking_eq_some : r.tracking = some b ↔ r.Tracks b := by
  have hname : originPrefix ++ "HEAD" = "refs/remotes/origin/HEAD" := by decide
  rw [Tracks, ← reference_eq_symbolic, tracking, hname]
  constructor
  · intro h
    split at h
    · rename_i target hr
      rw [hr, Text.stripStart?_eq_some.mp h]
      rfl
    · cases h
  · intro h
    rw [h]
    exact Text.stripStart?_eq_some.mpr rfl

end Repository

namespace Vcs

attribute [local irreducible] Repository.open?

variable {t : FileTree} {graph : CommitGraph} {root b : String}

/-- The work tree has a repository whose remote `origin` has its HEAD at the branch. -/
def TrackedAt (t : FileTree) (graph : CommitGraph) (root b : String) : Prop :=
  ∃ r, Repository.open? t graph root = some r ∧ r.Tracks b

theorem tracking_ofTree : (ofTree t graph root).tracking = some b ↔ TrackedAt t graph root b := by
  cases h : Repository.open? t graph root with
  | none =>
      rw [ofTree_of_not_open h]
      refine iff_of_false nofun ?_
      rintro ⟨r, hr, -⟩
      cases h.symm.trans hr
  | some r =>
      rw [ofTree_of_open h]
      refine Repository.tracking_eq_some.trans ⟨fun hb => ⟨r, h, hb⟩, ?_⟩
      rintro ⟨r', hr, hb⟩
      cases h.symm.trans hr
      exact hb

end Vcs

end Readiness

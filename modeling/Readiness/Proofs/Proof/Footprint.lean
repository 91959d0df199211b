import Readiness.Proofs.FileTree.Making
import Readiness.Proofs.Proof.Checking
import Readiness.Proofs.Proof.Directory

/-!
# Proof — the footprint of the store

What looking at proofs and writing one may do to the entry at each location.

* `Outdated`: the locations of proofs that are not of a commit; `check_outdated`: looking at a proof
  takes away such a file at most, and `loses_append`: so does looking at several.
* `Furnishing`: what stands in a tree once the directory has been made; `ensureDir_furnishes`:
  making it puts this where nothing was.
* `Written`, `written_of_check`: what becomes of an entry when a step's former proof is looked at
  and a new one is written.
-/

namespace Readiness.ProofStore

open FileTree (LosesFiles)

variable {s : ProofStore} {t t₁ t₂ : FileTree} {a step commit : String} {as bs : List String}

/-! ### Looking at proofs -/

/-- The location of a step's proof file, which is not a proof of the commit. -/
def Outdated (s : ProofStore) (t : FileTree) (commit : String) (steps : List String)
    (l : Location) : Prop :=
  ∃ a ∈ steps, l = s.place a ∧ ¬ s.Has t a commit

/-- Where no other files go, the proofs of a commit stay. -/
theorem Has.of_outdated (hl : LosesFiles (s.Outdated t commit as) t t₁)
    (h : s.Has t a commit) : s.Has t₁ a commit := by
  rcases hl (s.place a) with e | ⟨⟨b, -, hb, hn⟩, -, -⟩
  · exact (Has.congr e).mpr h
  · exact absurd (place_injective hb ▸ h) hn

theorem loses_append (h₁ : LosesFiles (s.Outdated t commit as) t t₁)
    (h₂ : LosesFiles (s.Outdated t₁ commit bs) t₁ t₂) :
    LosesFiles (s.Outdated t commit (as ++ bs)) t t₂ := by
  refine (h₁.mono ?_).trans (h₂.mono ?_)
  · rintro l ⟨a, ha, hl, hn⟩
    exact ⟨a, List.mem_append_left bs ha, hl, hn⟩
  · rintro l ⟨b, hb, hl, hn⟩
    exact ⟨b, List.mem_append_right as hb, hl, fun h => hn (h.of_outdated h₁)⟩

/-- Looking at a proof of the commit leaves the files alone. -/
theorem check_of_has (h : Rulebook.isName step = true) {r : Revision}
    (hh : s.Has t step r.id) : (s.check step r t).2 = t := by
  obtain ⟨p, hp, hc⟩ := hh
  by_cases ho : s.Opens t step
  · rw [check_stored h ho hp, if_pos hc]
  · rw [check_of_not_opens h ho]

/-- Looking at a proof takes its file away at most, and only when it is no proof of the commit. -/
theorem check_outdated (h : Rulebook.isName step = true) (r : Revision) (t : FileTree) :
    LosesFiles (s.Outdated t r.id [step]) t (s.check step r t).2 := by
  by_cases hh : s.Has t step r.id
  · rw [check_of_has h hh]
    exact .refl t
  · refine (check_loses s step r t).mono fun l hl => ⟨step, List.mem_singleton_self step, ?_, hh⟩
    rw [hl, locate_pathFor h]

/-- A file that a look at its proof took away was where the path leads. -/
theorem opens_of_check (h : Rulebook.isName step = true) {r : Revision}
    (hne : (s.check step r t).2.get? (s.place step) ≠ t.get? (s.place step)) :
    s.Opens t step := by
  by_contra ho
  rw [check_of_not_opens h ho] at hne
  exact hne rfl

/-! ### Making the directory -/

/-- What stands at a location once the directory has been made: it is a directory on the way there,
or the ignore rule. -/
def Furnishing (s : ProofStore) (l : Location) (e : Option Entry) : Prop :=
  (l = s.home ∨ ∃ names, names <+: Path.plain s.dir ∧ l = FileTree.locate (Path.ofNames names)) ∧
      e = some .directory ∨
    l = s.ignorePlace ∧ e = some (.file ignoreRule.toUTF8)

/-- Making the directory leaves every entry as it is, and puts the furnishing where nothing was. -/
theorem ensureDir_furnishes (s : ProofStore) (t : FileTree) (l : Location) :
    (s.ensureDir t).2.get? l = t.get? l ∨
      t.get? l = none ∧ s.Furnishing l ((s.ensureDir t).2.get? l) := by
  have hadds := FileTree.makeDirectories_adds t s.dir
  have made : (t.makeDirectories s.dir).2.get? l = t.get? l ∨
      t.get? l = none ∧ s.Furnishing l ((t.makeDirectories s.dir).2.get? l) :=
    (hadds l).imp_right fun ⟨hl, hn, hd⟩ => ⟨hn, .inl ⟨hl, hd⟩⟩
  rw [ensureDir]
  generalize t.makeDirectories s.dir = x at hadds made ⊢
  obtain ⟨_ | _, t₁⟩ := x
  · exact made
  · dsimp only at hadds made ⊢
    split
    · exact made
    · rename_i hx
      rcases writeFile_ignorePath_of_not_exists hx ignoreRule.toUTF8 with
        ⟨-, e, he⟩ | ⟨-, hn, hw⟩
      · rw [he]; exact made
      · rw [hw]
        dsimp only
        rw [FileTree.get?_put]
        split
        · rename_i hl
          refine .inr ⟨?_, .inr ⟨hl.1, rfl⟩⟩
          rcases hadds l with e | ⟨-, hn', -⟩
          · rw [← e, hl.1, hn]
          · exact hn'
        · exact made

/-- Where the directory is there, making it leaves the proofs alone. -/
theorem ensureDir_get?_opens (ho : s.Opens t step) :
    (s.ensureDir t).2.get? (s.place step) = t.get? (s.place step) := by
  rw [ensureDir_get?, FileTree.makeDirectories_of_leads ho.leads]

/-! ### Writing a proof -/

/-- What becomes of the entry at a location when a step's proof is written: it may be the proof, or
what the directory is furnished with. -/
def Written (s : ProofStore) (step : String) (l : Location) (e e' : Option Entry) : Prop :=
  e' = e ∨ (l = s.place step ∧ e ≠ some .directory ∧ e' ≠ some .directory) ∨
    e = none ∧ s.Furnishing l e'

variable {n : Nat} {r : Revision} {stamp : Stamp} {l : Location}

theorem written_elsewhere (h : Rulebook.isName step = true) (hn : n ≠ 0) (r : Revision)
    (stamp : Stamp) (t : FileTree) (hl : l ≠ s.place step) :
    s.Written step l (t.get? l) ((s.write step n n r stamp t).2.get? l) := by
  have hf := ensureDir_furnishes s t l
  rcases write_cases (s := s) (t := t) h hn r stamp with ⟨i, hw⟩ | ⟨t₁, p, he, -, -, -, hw⟩
  · rw [hw]
    exact hf.imp_right .inr
  · rw [he] at hf
    rw [hw, FileTree.get?_put, if_neg fun hp => hl hp.1]
    exact hf.imp_right .inr

/-- At the place of the proof there may be a directory in the end, if there was nothing. -/
theorem written_place (h : Rulebook.isName step = true) (hn : n ≠ 0) (r : Revision)
    (stamp : Stamp) (t : FileTree) :
    s.Written step (s.place step) (t.get? (s.place step))
      ((s.write step n n r stamp t).2.get? (s.place step)) := by
  have hf := ensureDir_furnishes s t (s.place step)
  have hk := ensureDir_keepsDirectories s t
  rcases write_cases (s := s) (t := t) h hn r stamp with ⟨i, hw⟩ | ⟨t₁, p, he, -, -, hd, hw⟩
  · rw [hw]
    exact hf.imp_right .inr
  · rw [he] at hk
    rw [hw, FileTree.get?_put, if_pos ⟨rfl, place_ne_nil⟩]
    exact .inr (.inl ⟨rfl, fun h => hd (hk _ h), by simp⟩)

/-- Where the directory is there, no directory is made at the place of the proof. -/
theorem write_ne_directory (h : Rulebook.isName step = true) (hn : n ≠ 0) (r : Revision)
    (stamp : Stamp) (ho : s.Opens t step) (hd : t.get? (s.place step) ≠ some .directory) :
    (s.write step n n r stamp t).2.get? (s.place step) ≠ some .directory := by
  rcases write_cases (s := s) (t := t) h hn r stamp with ⟨i, hw⟩ | ⟨t₁, p, -, -, -, -, hw⟩
  · rw [hw, ensureDir_get?_opens ho]
    exact hd
  · rw [hw, FileTree.get?_put, if_pos ⟨rfl, place_ne_nil⟩]
    simp

/-- The former proof is looked at, and then a new one written. -/
theorem written_of_check (h : Rulebook.isName step = true) (hn : n ≠ 0) (r : Revision)
    (stamp : Stamp) (t : FileTree) (l : Location) :
    s.Written step l (t.get? l)
      ((s.write step n n r stamp (s.check step r t).2).2.get? l) := by
  by_cases hl : l = s.place step
  · subst hl
    by_cases he : (s.check step r t).2.get? (s.place step) = t.get? (s.place step)
    · rw [← he]
      exact written_place h hn r stamp _
    · -- what was taken away was a file in the directory, so that is there
      have hloses := check_loses s step r t
      obtain ⟨-, ⟨bytes, hb⟩, hgone⟩ := (hloses (s.place step)).resolve_left he
      have ho := (opens_of_check h he).mono hloses.keepsDirectories
      exact .inr (.inl ⟨rfl, by rw [hb]; simp,
        write_ne_directory h hn r stamp ho (by rw [hgone]; simp)⟩)
  · rw [← get?_check h r hl]
    exact written_elsewhere h hn r stamp _ hl

end Readiness.ProofStore

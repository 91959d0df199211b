import Readiness.Proofs.FileTree.Making
import Readiness.Proofs.FileTree.Extension
import Readiness.Proofs.Proof.Checking

/-!
# Proof — writing a proof, and writing it again

What an attempt to write a proof leaves, and what the same attempt comes to there.

* `list_put`: which steps hold a proof does not depend on what the proofs say.
* `ensureDir_extends`, `ensureDir_again`: making the directory takes nothing away, and makes nothing
  the second time.
* `write_extends`: an attempt takes nothing away but the former proof.
* `write_ok_again`: a proof that was written is found, and written over.
* `write_error_again`: one that could not be written cannot be written.
-/

namespace Readiness.ProofStore

open FileTree (Extends)

variable {s : ProofStore} {t t' : FileTree} {step : String} {r : Revision}

/-! ### Which steps hold a proof -/

theorem list_eq (h : t.isDirectory s.dir = true) :
    s.list t = .ok (((t.children s.home).filterMap ProofFile.step?).mergeSort
      fun a b => decide (a ≤ b)) := by
  have hx : t.exists? s.dir = true := by
    rw [FileTree.isDirectory, beq_iff_eq] at h
    rw [FileTree.exists?, h]; rfl
  rw [list, hx, FileTree.names_of_isDirectory h]
  rfl

theorem list_of_not_usable (h : ¬ FileTree.IsUsable s.dir) (t : FileTree) : s.list t = .ok [] := by
  obtain ⟨e, he⟩ := FileTree.resolve_error h t
  have hx : t.exists? s.dir = false := by
    rw [FileTree.exists?, FileTree.stat?, FileTree.find?, he]; rfl
  rw [list, hx]
  rfl

/-- Which steps hold a proof does not depend on what the proofs say. -/
theorem list_put (ho : s.Opens t step) (hd : t.get? (s.place step) ≠ some .directory)
    (e e' : Entry) : s.list (t.put (s.place step) e) = s.list (t.put (s.place step) e') := by
  have hl : ∀ e, (t.put (s.place step) e).Leads s.dir := fun e => (opens_put ho hd).leads
  by_cases hu : FileTree.IsUsable s.dir
  · rw [list_eq (FileTree.isDirectory_iff.mpr ⟨hu, hl e⟩),
      list_eq (FileTree.isDirectory_iff.mpr ⟨hu, hl e'⟩), FileTree.children_put,
      FileTree.children_put]
  · rw [list_of_not_usable hu, list_of_not_usable hu]

/-! ### The directory -/

theorem ensureDir_extends (s : ProofStore) (t : FileTree) : Extends t (s.ensureDir t).2 := by
  have hm := FileTree.extends_makeDirectories t s.dir
  rw [ensureDir]
  generalize t.makeDirectories s.dir = x at hm ⊢
  obtain ⟨_ | _, t₁⟩ := x
  · exact hm
  · dsimp only
    split
    · exact hm
    · rename_i hx
      rcases writeFile_ignorePath_of_not_exists hx ignoreRule.toUTF8 with
        ⟨-, e, he⟩ | ⟨-, hn, hw⟩
      · rw [he]; exact hm
      · rw [hw]; exact hm.trans (FileTree.extends_put hn _)

theorem ensureDir_of_exists (hd : t.isDirectory s.dir = true)
    (hx : t.exists? s.ignorePath = true) : s.ensureDir t = (.ok (), t) := by
  rw [ensureDir, FileTree.makeDirectories_of_isDirectory hd]
  exact if_pos hx

/-- A directory with its rule is left as it is. -/
theorem ensureDir_ensureDir (h : s.ensureDir t = (.ok (), t')) :
    s.ensureDir t' = (.ok (), t') := ensureDir_of_exists (ensureDir_ok h) (exists?_ensureDir h)

theorem Opens.ignore (h : Rulebook.isName step = true) (ho : s.Opens t step) :
    t.Opens s.dir ".gitignore" :=
  FileTree.Opens.of_shorter ho (ProofFile.isSimple_name h) ProofFile.isSimple_ignore (by decide)
    (ProofFile.utf8ByteSize_ignore_le step)

/-- A directory that could not be made cannot be made, and nothing is made.  Either it is not there,
or no proof can be written in it. -/
theorem ensureDir_again (h : Rulebook.isName step = true) {e : Failure}
    (he : s.ensureDir t = (.error e, t')) :
    (t'.isDirectory s.dir = false ∧ (∃ i, s.ensureDir t' = (.error (.io i), t')) ∧
        (FileTree.IsUsable s.dir ∨ t' = t)) ∨
      s.ensureDir t' = (.error e, t') ∧ ¬ s.Opens t' step := by
  rw [ensureDir] at he
  cases hm : t.makeDirectories s.dir with
  | mk x t₁ =>
      rw [hm] at he
      cases x with
      | error i =>
          cases he
          obtain ⟨hd, e', hm'⟩ := FileTree.makeDirectories_again hm
          refine .inl ⟨hd, ⟨e', by rw [ensureDir, hm']⟩, ?_⟩
          by_cases hu : FileTree.IsUsable s.dir
          · exact .inl hu
          · have hs := FileTree.makeDirectories_of_not_usable hu t
            rw [hm] at hs
            exact .inr hs
      | ok u =>
          dsimp only at he
          split at he
          · cases he
          · rename_i hx
            rcases writeFile_ignorePath_of_not_exists hx ignoreRule.toUTF8 with
              ⟨ho, i, hw⟩ | ⟨-, -, hw⟩
            · rw [hw] at he
              cases he
              refine .inr ⟨?_, fun ho' => ho (ho'.ignore h)⟩
              have hd := FileTree.makeDirectories_ok hm
              rw [ensureDir, FileTree.makeDirectories_of_isDirectory hd]
              dsimp only
              rw [if_neg hx, hw]
            · rw [hw] at he; cases he

/-! ### A proof -/

/-- An attempt takes nothing away but the former proof. -/
theorem write_extends (h : Rulebook.isName step = true) {n : Nat} (hn : n ≠ 0) (r : Revision)
    (stamp : Stamp) (t : FileTree) :
    ∃ u, s.SameBesides t u ∧ (∀ b, b ≠ step → s.Agrees b t u) ∧
      Extends u (s.write step n n r stamp t).2 := by
  have hx := ensureDir_extends s t
  rcases write_cases (s := s) (t := t) h hn r stamp with ⟨i, hw⟩ | ⟨t₁, p, he, -, -, hd, hw⟩
  · rw [hw]
    exact ⟨t, .refl s t, fun b _ => .refl s b t, hx⟩
  · rw [he] at hx
    rw [hw]
    have hd : t.get? (s.place step) ≠ some .directory := fun h => hd (hx.get? _ _ h)
    exact ⟨_, sameBesides_put hd _, fun b hb => agrees_put hb hd _, hx.put _ _⟩

/-- The trees differ at most in what the step's proof file says. -/
def Reissued (s : ProofStore) (step : String) (t t' : FileTree) : Prop :=
  ∀ l, t'.get? l = t.get? l ∨
    l = s.place step ∧ (∃ b, t.get? l = some (.file b)) ∧ ∃ b, t'.get? l = some (.file b)

theorem Reissued.refl (s : ProofStore) (step : String) (t : FileTree) : s.Reissued step t t :=
  fun _ => .inl rfl

theorem reissued_put (t : FileTree) (b b' : ByteArray) :
    s.Reissued step (t.put (s.place step) (.file b)) (t.put (s.place step) (.file b')) := by
  intro l
  rw [FileTree.get?_put, FileTree.get?_put]
  split
  · rename_i hl
    exact .inr ⟨hl.1, ⟨b, rfl⟩, b', rfl⟩
  · exact .inl rfl

/-- A proof that was written is found, and written over. -/
theorem write_ok_again (h : Rulebook.isName step = true) {n : Nat} (hn : n ≠ 0) {stamp : Stamp}
    {p : ProofToken} (hw : s.write step n n r stamp t = (.ok p, t')) :
    s.check step r t' = (.ok (.current p), t') ∧
      ∀ stamp', ∃ p' t'', s.write step n n r stamp' t' = (.ok p', t'') ∧
        s.list t'' = s.list t' ∧ s.Reissued step t' t'' := by
  obtain ⟨hp, hread, -⟩ := write_ok h hn hw
  refine ⟨check_of_read hread (by rw [hp]; rfl), fun stamp' => ?_⟩
  rcases write_cases (s := s) (t := t) h hn r stamp with ⟨i, hw'⟩ | ⟨t₁, q, he, -, ho, hd, hw'⟩
  · rw [hw'] at hw; cases hw
  · rw [hw'] at hw
    cases hw
    have hk := FileTree.keepsDirectories_put (.file p.encode.toUTF8) hd
    have hx := exists?_write (s := s) (t := t) h (by rw [hw'])
    rw [hw'] at hx
    have he' := ensureDir_of_exists (FileTree.isDirectory_mono hk (ensureDir_ok he)) hx
    have hf : (t₁.put (s.place step) (.file p.encode.toUTF8)).get? (s.place step) =
        some (.file p.encode.toUTF8) := by rw [FileTree.get?_put, if_pos ⟨rfl, place_ne_nil⟩]
    refine ⟨_, _, write_of_opens h hn r stamp' he' (ho.mono hk) (by rw [hf]; simp), ?_, ?_⟩
    · rw [FileTree.put_put, list_put ho hd]
    · rw [FileTree.put_put]
      exact reissued_put t₁ _ _

/-- A proof that is current is so in every tree that has more. -/
theorem check_current_mono (h : Rulebook.isName step = true) {p : ProofToken} (hx : Extends t t')
    (hc : s.check step r t = (.ok (.current p), t)) :
    s.check step r t' = (.ok (.current p), t') := by
  obtain ⟨-, hr, hp⟩ := check_current hc
  obtain ⟨ho, b, hb, hs⟩ := (read_eq_some h).mp hr
  exact check_of_read
    ((read_eq_some h).mpr ⟨ho.mono hx.keepsDirectories, b, hx.get? _ _ hb, hs⟩) hp

/-- A proof that could not be written cannot be written.  The reason is another one at most where
the directory could not be made. -/
theorem write_error_again (h : Rulebook.isName step = true) {n : Nat} (hn : n ≠ 0) {stamp : Stamp}
    {state : ProofState} (hc : s.check step r t = (.ok state, t)) {e : Failure}
    (hw : s.write step n n r stamp t = (.error e, t')) :
    s.check step r t' = (.error e, t') ∨
      (∃ state', s.check step r t' = (.ok state', t')) ∧
        ∃ e', (∀ stamp', s.write step n n r stamp' t' = (.error e', t')) ∧
          (e' = e ∨ (∃ i, e' = .io i) ∧ t'.isDirectory s.dir = false) := by
  cases he : s.ensureDir t with
  | mk a t₁ =>
      cases a with
      | error f =>
          rw [write_of_ensureDir_error hn r stamp he] at hw
          cases hw
          right
          rcases ensureDir_again h he with ⟨hd, ⟨i, he'⟩, hu⟩ | ⟨he', ho⟩
          · refine ⟨?_, .io i, fun stamp' => write_of_ensureDir_error hn r stamp' he',
              .inr ⟨⟨i, rfl⟩, hd⟩⟩
            by_cases ho : s.Opens t' step
            · -- a directory whose own path is one to follow would be found
              rcases hu with hu | rfl
              · rw [FileTree.isDirectory_iff.mpr ⟨hu, ho.leads⟩] at hd
                cases hd
              · exact ⟨state, hc⟩
            · exact ⟨.missing, check_of_not_opens h ho r⟩
          · exact ⟨⟨.missing, check_of_not_opens h ho r⟩, e,
              fun stamp' => write_of_ensureDir_error hn r stamp' he', .inl rfl⟩
      | ok u =>
          by_cases ho : s.Opens t₁ step
          · by_cases hd : t₁.get? (s.place step) = some .directory
            · -- a directory is in the way, and a look at the proof finds it
              rw [write_of_writeFile_error hn he
                ((writeFile_pathFor h ho _).trans (if_pos hd))] at hw
              cases hw
              exact .inl (check_of_read_error (read_directory h ho hd))
            · rw [write_of_opens h hn r stamp he ho hd] at hw
              cases hw
          · obtain ⟨i, hi⟩ := writeFile_pathFor_error h ho
            rw [write_of_writeFile_error hn he (hi _)] at hw
            cases hw
            exact .inr ⟨⟨.missing, check_of_not_opens h ho r⟩, .io i, fun stamp' =>
              write_of_writeFile_error hn (ensureDir_ensureDir he) (hi _), .inl rfl⟩

end Readiness.ProofStore

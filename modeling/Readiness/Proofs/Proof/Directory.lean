import Readiness.Proofs.Proof.Store

/-!
# Proof — a directory of tokens

`Orderly` says that every proof file is a token of a well-formed step, in a directory that is there.
No operation of the store leaves such directories, and in one the effect of each operation on every
proof can be said exactly.

* `Has`: a step has a proof of a commit.
* `check_exact`, `remove_exact`: the operations that delete one proof.  They fail where a directory
  stands in its place.
* `Free`: there are no such directories, and none will be made; `clear_exact`.
* `write_exact`: writing fails and changes no proof, or changes that of its step.
-/

namespace Readiness.ProofStore

open FileTree (LosesFiles KeepsDirectories)

/-- The step has a proof of the commit. -/
def Has (s : ProofStore) (t : FileTree) (step commit : String) : Prop :=
  ∃ p, s.Stored t step p ∧ p.commit = commit

/-- Every proof file is a token of a well-formed step, in a directory that is there. -/
structure Orderly (s : ProofStore) (t : FileTree) : Prop where
  isName : ∀ {step b}, t.get? (s.place step) = some (.file b) → Rulebook.isName step = true
  opens : ∀ {step b}, t.get? (s.place step) = some (.file b) → s.Opens t step
  isDirectory : ∀ {step b}, t.get? (s.place step) = some (.file b) → t.isDirectory s.dir = true
  stored : ∀ {step b}, t.get? (s.place step) = some (.file b) → ∃ p, s.Stored t step p

variable {s : ProofStore} {t t' : FileTree} {step : String}

/-- Without a proof there is nothing to be out of order. -/
theorem Orderly.of_none (hn : ∀ a, t.get? (s.place a) = none) : s.Orderly t where
  isName h := by rw [hn] at h; cases h
  opens h := by rw [hn] at h; cases h
  isDirectory h := by rw [hn] at h; cases h
  stored h := by rw [hn] at h; cases h

/-- Order is kept as long as proofs only go and the directory stays. -/
theorem Orderly.of_fewer (ho : s.Orderly t)
    (hd : t.isDirectory s.dir = true → t'.isDirectory s.dir = true)
    (hg : ∀ {a b}, t'.get? (s.place a) = some (.file b) → t.get? (s.place a) = some (.file b)) :
    s.Orderly t' where
  isName h := ho.isName (hg h)
  opens h := by
    have hop := ho.opens (hg h)
    have hl := (FileTree.isDirectory_iff.mp (hd (ho.isDirectory (hg h)))).2
    exact ⟨hop.usable, hop.short, hl⟩
  isDirectory h := hd (ho.isDirectory (hg h))
  stored h := by
    obtain ⟨p, hp⟩ := ho.stored (hg h)
    exact ⟨p, (Stored.congr (h.trans (hg h).symm)).mpr hp⟩

/-- In an orderly directory a step has a token or no file. -/
theorem Orderly.no_file_or_stored (ho : s.Orderly t) (step : String) :
    (∀ b, t.get? (s.place step) ≠ some (.file b)) ∨
      s.Opens t step ∧ ∃ p, s.Stored t step p := by
  by_cases h : ∃ b, t.get? (s.place step) = some (.file b)
  · obtain ⟨b, hb⟩ := h
    exact .inr ⟨ho.opens hb, ho.stored hb⟩
  · exact .inl fun b hb => h ⟨b, hb⟩

theorem Has.congr {commit : String} (h : t'.get? (s.place step) = t.get? (s.place step)) :
    s.Has t' step commit ↔ s.Has t step commit := by
  simp only [Has, Stored.congr h]

theorem not_has_of_no_file (h : ∀ b, t.get? (s.place step) ≠ some (.file b)) (commit : String) :
    ¬ s.Has t step commit := by
  rintro ⟨p, ⟨b, hb, -⟩, -⟩
  exact h b hb

theorem not_has_of_none (h : t.get? (s.place step) = none) (commit : String) :
    ¬ s.Has t step commit :=
  not_has_of_no_file (fun b hb => by rw [h] at hb; cases hb) commit

theorem Stored.has_iff {p : ProofToken} (hp : s.Stored t step p) {commit : String} :
    s.Has t step commit ↔ p.commit = commit :=
  ⟨fun ⟨_, hq, hc⟩ => hp.unique hq ▸ hc, fun hc => ⟨p, hp, hc⟩⟩

/-! ### Deleting one proof -/

theorem get?_erase_place {a b : String} :
    (t.erase (s.place a)).get? (s.place b) = if b = a then none else t.get? (s.place b) := by
  rw [FileTree.get?_erase]
  by_cases h : b = a
  · rw [h, if_pos rfl, if_pos ⟨rfl, place_ne_nil⟩]
  · rw [if_neg h, if_neg fun hp => h (place_injective hp.1)]

theorem has_erase {a b commit : String} :
    s.Has (t.erase (s.place a)) b commit ↔ s.Has t b commit ∧ b ≠ a := by
  by_cases h : b = a
  · simp only [h, ne_eq, not_true, and_false, iff_false]
    exact not_has_of_none (by rw [get?_erase_place, if_pos rfl]) commit
  · simp only [ne_eq, h, not_false_iff, and_true]
    exact Has.congr (by rw [get?_erase_place, if_neg h])

theorem Orderly.erase (ho : s.Orderly t) {p : ProofToken} (hp : s.Stored t step p) :
    s.Orderly (t.erase (s.place step)) := by
  obtain ⟨b, hb, -⟩ := hp
  have hk : KeepsDirectories t (t.erase (s.place step)) :=
    FileTree.keepsDirectories_erase (by rw [hb]; simp)
  refine ho.of_fewer (FileTree.isDirectory_mono hk) fun h => ?_
  rw [get?_erase_place] at h
  split at h
  · cases h
  · exact h

/-- Without a file there is nothing to delete, or a directory is in the way. -/
theorem remove_of_no_file (h : Rulebook.isName step = true)
    (hn : ∀ b, t.get? (s.place step) ≠ some (.file b)) :
    s.remove step t = (.ok false, t) ∨
      t.get? (s.place step) = some .directory ∧
        s.remove step t = (.error (.io .isDirectory), t) := by
  cases he : t.get? (s.place step) with
  | none => exact .inl (remove_missing h fun _ => he)
  | some e =>
      cases e with
      | file b => exact absurd he (hn b)
      | directory =>
          by_cases ho : s.Opens t step
          · exact .inr ⟨rfl, remove_directory h ho he⟩
          · exact .inl (remove_missing h fun ho' => absurd ho' ho)

/-- A proof is deleted, and no other is. -/
theorem remove_exact (ho : s.Orderly t) (h : Rulebook.isName step = true) :
    ∃ answer t', s.remove step t = (answer, t') ∧ s.Orderly t' ∧
      (∀ a commit, s.Has t' a commit ↔ s.Has t a commit ∧ a ≠ step) ∧
      ((∃ b, answer = .ok b) ∨
        t.get? (s.place step) = some .directory ∧ t' = t ∧ ∃ i, answer = .error (.io i)) := by
  rcases ho.no_file_or_stored step with hn | ⟨hop, p, hp⟩
  · have hh : ∀ a commit, s.Has t a commit ↔ s.Has t a commit ∧ a ≠ step := by
      intro a commit
      refine (and_iff_left_of_imp fun ha => ?_).symm
      rintro rfl
      exact not_has_of_no_file hn commit ha
    rcases remove_of_no_file h hn with hr | ⟨hd, hr⟩
    · exact ⟨_, _, hr, ho, hh, .inl ⟨_, rfl⟩⟩
    · exact ⟨_, _, hr, ho, hh, .inr ⟨hd, rfl, _, rfl⟩⟩
  · have hp' := hp
    obtain ⟨b, hb, -⟩ := hp'
    exact ⟨_, _, remove_file h hop hb, ho.erase hp, fun a commit => has_erase, .inl ⟨_, rfl⟩⟩

theorem check_of_no_file (h : Rulebook.isName step = true) (r : Revision)
    (hn : ∀ b, t.get? (s.place step) ≠ some (.file b)) :
    s.check step r t = (.ok .missing, t) ∨
      t.get? (s.place step) = some .directory ∧
        s.check step r t = (.error (.io .isDirectory), t) := by
  cases he : t.get? (s.place step) with
  | none => exact .inl (check_missing h r fun _ => he)
  | some e =>
      cases e with
      | file b => exact absurd he (hn b)
      | directory =>
          by_cases ho : s.Opens t step
          · refine .inr ⟨rfl, ?_⟩
            unfold check
            rw [read_directory h ho he]
          · exact .inl (check_missing h r fun ho' => absurd ho' ho)

/-- A check keeps the proof of its step if it is of the revision, and every proof of other steps. -/
theorem check_exact (ho : s.Orderly t) (h : Rulebook.isName step = true) (r : Revision) :
    ∃ answer t', s.check step r t = (answer, t') ∧ s.Orderly t' ∧
      (∀ a commit, s.Has t' a commit ↔ s.Has t a commit ∧ (a = step → commit = r.id)) ∧
      ((∃ state, answer = .ok state ∧ (state.isCurrent = true ↔ s.Has t step r.id)) ∨
        t.get? (s.place step) = some .directory ∧ t' = t ∧ ∃ i, answer = .error (.io i)) := by
  rcases ho.no_file_or_stored step with hn | ⟨hop, p, hp⟩
  · have hh : ∀ a commit, s.Has t a commit ↔
        s.Has t a commit ∧ (a = step → commit = r.id) := by
      intro a commit
      refine (and_iff_left_of_imp fun ha => ?_).symm
      rintro rfl
      exact absurd ha (not_has_of_no_file hn commit)
    rcases check_of_no_file h r hn with hc | ⟨hd, hc⟩
    · refine ⟨_, _, hc, ho, hh, .inl ⟨_, rfl, ?_⟩⟩
      exact iff_of_false (fun hc => nomatch hc) (not_has_of_no_file hn r.id)
    · exact ⟨_, _, hc, ho, hh, .inr ⟨hd, rfl, _, rfl⟩⟩
  · -- the token is current and stays, or it is deleted
    by_cases hc : p.commit = r.id
    · refine ⟨_, _, (check_stored h hop hp r).trans (if_pos hc), ho, fun a commit => ?_,
        .inl ⟨_, rfl, iff_of_true rfl (hp.has_iff.mpr hc)⟩⟩
      refine (and_iff_left_of_imp fun ha => ?_).symm
      rintro rfl
      rw [← hp.has_iff.mp ha, hc]
    · refine ⟨_, _, (check_stored h hop hp r).trans (if_neg hc), ho.erase hp, fun a commit => ?_,
        .inl ⟨_, rfl, iff_of_false (fun hc' => nomatch hc') fun hh => hc (hp.has_iff.mp hh)⟩⟩
      rw [has_erase, and_congr_right_iff]
      intro ha
      constructor
      · exact fun hne e => absurd e hne
      · rintro hr rfl
        exact hc ((hp.has_iff.mp ha).trans (hr rfl))

/-! ### Writing a proof -/

theorem has_ensureDir {commit : String} :
    s.Has (s.ensureDir t).2 step commit ↔ s.Has t step commit := by
  simp only [Has, stored_ensureDir]

theorem Orderly.ensureDir (ho : s.Orderly t) : s.Orderly (s.ensureDir t).2 :=
  ho.of_fewer (FileTree.isDirectory_mono (ensureDir_keepsDirectories s t)) ensureDir_get?_file.mp

theorem Orderly.put (ho : s.Orderly t) (h : Rulebook.isName step = true) (hop : s.Opens t step)
    (hd : t.isDirectory s.dir = true) (hn : t.get? (s.place step) ≠ some .directory)
    (p : ProofToken) : s.Orderly (t.put (s.place step) (.file p.encode.toUTF8)) := by
  have hk : KeepsDirectories t (t.put (s.place step) (.file p.encode.toUTF8)) :=
    FileTree.keepsDirectories_put _ hn
  have old : ∀ {a}, a ≠ step →
      (t.put (s.place step) (.file p.encode.toUTF8)).get? (s.place a) = t.get? (s.place a) :=
    fun ha => by rw [FileTree.get?_put, if_neg fun e => ha (place_injective e.1)]
  refine ⟨fun {a b} ha => ?_, fun {a b} ha => ?_, fun _ => FileTree.isDirectory_mono hk hd,
    fun {a b} ha => ?_⟩
  · by_cases hs : a = step
    · exact hs ▸ h
    · exact ho.isName (old hs ▸ ha)
  · by_cases hs : a = step
    · rw [hs]; exact hop.mono hk
    · exact (ho.opens (old hs ▸ ha)).mono hk
  · by_cases hs : a = step
    · exact ⟨p, hs ▸ stored_put t p⟩
    · obtain ⟨q, hq⟩ := ho.stored (old hs ▸ ha)
      exact ⟨q, (Stored.congr (old hs)).mpr hq⟩

/-- A proof of a full run is written in the place of any former one; or no proof changes, and the
file system is to blame. -/
theorem write_exact (ho : s.Orderly t) (h : Rulebook.isName step = true) {n : Nat} (hn : n ≠ 0)
    (r : Revision) (stamp : Stamp) :
    ∃ answer t', s.write step n n r stamp t = (answer, t') ∧ s.Orderly t' ∧
      ((∃ i, answer = .error (.io i)) ∧ (∀ a commit, s.Has t' a commit ↔ s.Has t a commit) ∨
        (∃ p, answer = .ok p) ∧ ∀ a commit,
          s.Has t' a commit ↔ if a = step then commit = r.id else s.Has t a commit) := by
  rcases write_cases h hn r stamp with ⟨i, hw⟩ | ⟨t₁, p, he, rfl, hop, hd, hw⟩
  · exact ⟨_, _, hw, ho.ensureDir, .inl ⟨⟨i, rfl⟩, fun _ _ => has_ensureDir⟩⟩
  · have ho₁ : s.Orderly t₁ := by have := ho.ensureDir; rwa [he] at this
    have hsame : ∀ a commit, s.Has t₁ a commit ↔ s.Has t a commit := fun a commit => by
      rw [← has_ensureDir (t := t), he]
    refine ⟨_, _, hw, ho₁.put h hop (ensureDir_ok he) hd _, .inr ⟨⟨_, rfl⟩, fun a commit => ?_⟩⟩
    by_cases ha : a = step
    · subst ha
      rw [if_pos rfl, (stored_put _ _).has_iff]
      exact eq_comm
    · rw [if_neg ha, ← hsame]
      exact Has.congr (by rw [FileTree.get?_put, if_neg fun e => ha (place_injective e.1)])

/-! ### Nothing in the way -/

/-- No directory stands at the place of a proof, and none will be made there. -/
structure Free (s : ProofStore) (t : FileTree) : Prop where
  ready : s.Ready t
  ne : ∀ step, t.get? (s.place step) ≠ some .directory

theorem Free.of_none (hr : s.Ready t) (hn : ∀ a, t.get? (s.place a) = none) : s.Free t :=
  ⟨hr, fun a => by rw [hn]; simp⟩

theorem Free.of_loses {P : Location → Prop} (hl : LosesFiles P t t') (hf : s.Free t) :
    s.Free t' :=
  ⟨hf.ready.mono hl.keepsDirectories, fun a ha => hf.ne a (hl.get?_of_some ha)⟩

theorem Free.ensureDir (hf : s.Free t) : s.Free (s.ensureDir t).2 :=
  ⟨hf.ready.mono (ensureDir_keepsDirectories s t), fun a => by
    rw [ensureDir_get?_ready hf.ready]; exact hf.ne a⟩

theorem Free.write (hf : s.Free t) (h : Rulebook.isName step = true) {n : Nat} (hn : n ≠ 0)
    (r : Revision) (stamp : Stamp) : s.Free (s.write step n n r stamp t).2 := by
  have hf₁ := hf.ensureDir
  rcases write_cases h hn r stamp with ⟨i, hw⟩ | ⟨t₁, p, he, -, -, hd, hw⟩
  · rw [hw]; exact hf₁
  · rw [he] at hf₁
    rw [hw]
    refine ⟨hf₁.ready.mono (FileTree.keepsDirectories_put _ hd), fun a => ?_⟩
    rw [FileTree.get?_put]
    split
    · simp
    · exact hf₁.ne a

theorem removeEach_exact (n : Nat) {steps : List String}
    (hs : ∀ a ∈ steps, Rulebook.isName a = true) (ho : s.Orderly t) (hf : s.Free t) :
    ∃ k t', s.removeEach n steps t = (.ok k, t') ∧ s.Orderly t' ∧
      ∀ a commit, s.Has t' a commit ↔ s.Has t a commit ∧ a ∉ steps := by
  induction steps generalizing n t with
  | nil => exact ⟨n, t, rfl, ho, fun a commit => by simp⟩
  | cons b steps ih =>
      have hl := remove_loses s b t
      obtain ⟨answer, t₁, hr, ho₁, hh₁, hd⟩ := remove_exact ho (hs b List.mem_cons_self)
      obtain ⟨gone, rfl⟩ := hd.resolve_right fun hd => hf.ne b hd.1
      rw [hr] at hl
      obtain ⟨k, t₂, hk, ho₂, hh₂⟩ := ih (if gone then n + 1 else n)
        (fun a ha => hs a (List.mem_cons_of_mem b ha)) ho₁ (hf.of_loses hl)
      refine ⟨k, t₂, ?_, ho₂, fun a commit => ?_⟩
      · rw [removeEach_cons, hr]; exact hk
      · rw [hh₂, hh₁, List.mem_cons, not_or, and_assoc]

/-- Every proof is deleted.  A regular file where the directory should be is an error, but then
there is no proof either. -/
theorem clear_exact (ho : s.Orderly t) (hf : s.Free t) :
    s.Orderly (s.clear t).2 ∧ ∀ a commit, ¬ s.Has (s.clear t).2 a commit := by
  have file : ∀ {a e}, t.get? (s.place a) = some e → ∃ b, t.get? (s.place a) = some (.file b) := by
    intro a e he
    cases e with
    | file b => exact ⟨b, he⟩
    | directory => exact absurd he (hf.ne a)
  by_cases hd : t.isDirectory s.dir = true
  · obtain ⟨steps, hl, hm⟩ := list_of_isDirectory hd
    have hs : ∀ a ∈ steps, Rulebook.isName a = true := fun a ha => by
      obtain ⟨-, e, he⟩ := (hm a).mp ha
      obtain ⟨b, hb⟩ := file he
      exact ho.isName hb
    obtain ⟨k, t', hk, ho', hh⟩ := removeEach_exact 0 hs ho hf
    have hc : s.clear t = (.ok k, t') := by rw [clear, hl]; exact hk
    rw [hc]
    refine ⟨ho', fun a commit ha => ?_⟩
    obtain ⟨⟨p, ⟨b, hb, -⟩, -⟩, hn⟩ := (hh a commit).mp ha
    exact hn ((hm a).mpr ⟨ProofFile.ne_empty_of_isName (ho.isName hb), _, hb⟩)
  · -- without the directory nothing is listed, and nothing is there
    have hn : ∀ a, (s.clear t).2.get? (s.place a) = none := fun a => by
      rcases h : (s.clear t).2.get? (s.place a) with _ | e
      · rfl
      · obtain ⟨b, hb⟩ := file ((clear_loses s t).get?_of_some h)
        exact absurd (ho.isDirectory hb) hd
    exact ⟨.of_none hn, fun a => not_has_of_none (hn a)⟩

end Readiness.ProofStore

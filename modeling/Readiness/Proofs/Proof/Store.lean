import Readiness.Proof.Store
import Readiness.Proofs.FileTree.Growth
import Readiness.Proofs.Proof.FileName
import Readiness.Proofs.Proof.Token

/-!
# Proof — what the store's operations do

The operations on a step's proof, said of the entry at its place.

* `Stored`: the file at the place of a step is a token; `read_eq_some`: this is what is read.
* `remove_loses`, `check_loses`: what deletes proofs takes files away and nothing else.
* `check_missing`, `check_stored`: what a check comes to in a directory of tokens.
* `ensureDir_get?`: making the directory leaves every proof alone.
* `write_ok`: a proof that was written is read back, and it is the only change.
-/

namespace Readiness.ProofStore

open FileTree (IsSimple LosesFiles AddsDirectories KeepsDirectories)

/-! ### Places -/

/-- The location of the directory. -/
def home (s : ProofStore) : Location := FileTree.locate s.dir

/-- The location of a step's proof. -/
def place (s : ProofStore) (step : String) : Location := s.home ++ [ProofFile.name step]

/-- The path of a step's proof can be followed to the end. -/
def Opens (s : ProofStore) (t : FileTree) (step : String) : Prop :=
  t.Opens s.dir (ProofFile.name step)

variable {s : ProofStore} {t t' : FileTree} {step : String}

theorem place_injective {a b : String} (h : s.place a = s.place b) : a = b := by
  rw [place, place, List.append_cancel_left_eq, List.cons.injEq] at h
  exact ProofFile.name_injective h.1

theorem place_ne_nil : s.place step ≠ [] := by simp [place]

theorem Opens.mono (hk : KeepsDirectories t t') (h : s.Opens t step) : s.Opens t' step :=
  FileTree.Opens.mono hk h

theorem locate_pathFor (h : Rulebook.isName step = true) :
    FileTree.locate (s.pathFor step) = s.place step :=
  FileTree.locate_join s.dir (ProofFile.isSimple_name h)

theorem stat?_pathFor (h : Rulebook.isName step = true) (ho : s.Opens t step) :
    t.stat? (s.pathFor step) = t.get? (s.place step) :=
  FileTree.stat?_join (ProofFile.isSimple_name h) ho

theorem stat?_pathFor_of_not_opens (h : Rulebook.isName step = true) (ho : ¬ s.Opens t step) :
    t.stat? (s.pathFor step) = none :=
  FileTree.stat?_join_of_not_opens (ProofFile.isSimple_name h) ho

theorem exists?_eq_false (h : Rulebook.isName step = true)
    (hn : s.Opens t step → t.get? (s.place step) = none) : t.exists? (s.pathFor step) = false := by
  rw [FileTree.exists?]
  by_cases ho : s.Opens t step
  · rw [stat?_pathFor h ho, hn ho]; rfl
  · rw [stat?_pathFor_of_not_opens h ho]; rfl

theorem exists?_eq_true (h : Rulebook.isName step = true) (ho : s.Opens t step) {e : Entry}
    (he : t.get? (s.place step) = some e) : t.exists? (s.pathFor step) = true := by
  rw [FileTree.exists?, stat?_pathFor h ho, he]; rfl

/-! ### Reading -/

/-- The file at the place of a step is a token. -/
def Stored (s : ProofStore) (t : FileTree) (step : String) (p : ProofToken) : Prop :=
  ∃ bytes, t.get? (s.place step) = some (.file bytes) ∧ ProofToken.ofBytes? bytes = some p

theorem Stored.unique {p q : ProofToken} (hp : s.Stored t step p) (hq : s.Stored t step q) :
    p = q := by
  obtain ⟨b, hb, hp⟩ := hp
  obtain ⟨b', hb', hq⟩ := hq
  rw [hb] at hb'
  cases hb'
  exact Option.some.inj (hp.symm.trans hq)

theorem Stored.congr {p : ProofToken} (h : t'.get? (s.place step) = t.get? (s.place step)) :
    s.Stored t' step p ↔ s.Stored t step p := by rw [Stored, Stored, h]

theorem not_stored_of_none {p : ProofToken} (h : t.get? (s.place step) = none) :
    ¬ s.Stored t step p := by
  rintro ⟨b, hb, -⟩
  rw [h] at hb; cases hb

theorem Stored.of_loses {P : Location → Prop} {p : ProofToken} (hl : LosesFiles P t t')
    (h : s.Stored t' step p) : s.Stored t step p := by
  obtain ⟨b, hb, hp⟩ := h
  exact ⟨b, hl.get?_of_some hb, hp⟩

theorem readBytes_pathFor (h : Rulebook.isName step = true) (ho : s.Opens t step) :
    t.readBytes (s.pathFor step) = match t.get? (s.place step) with
      | some (.file c) => .ok c
      | some .directory => .error .isDirectory
      | none => .error .noEntry :=
  FileTree.readBytes_join (ProofFile.isSimple_name h) ho

theorem read_missing (h : Rulebook.isName step = true)
    (hn : s.Opens t step → t.get? (s.place step) = none) : s.read step t = .ok none := by
  rw [read, exists?_eq_false h hn]; rfl

/-- What is read from a file is the token it is. -/
theorem read_file (h : Rulebook.isName step = true) (ho : s.Opens t step) {b : ByteArray}
    (hb : t.get? (s.place step) = some (.file b)) :
    match ProofToken.ofBytes? b with
    | some p => s.read step t = .ok (some p)
    | none => ∃ e, s.read step t = .error e := by
  have hr : t.readBytes (s.pathFor step) = .ok b := by rw [readBytes_pathFor h ho, hb]
  rw [read, exists?_eq_true h ho hb, FileTree.readText, hr, ProofToken.ofBytes?]
  cases hu : String.fromUTF8? b with
  | none => exact ⟨.io .invalidText, by simp [hu]⟩
  | some text =>
      rw [Option.bind_some]
      cases hd : ProofToken.decode text with
      | error f => exact ⟨.unreadableProof f, by simp [hu, hd]⟩
      | ok p => simp [hu, hd, Except.toOption]

theorem read_directory (h : Rulebook.isName step = true) (ho : s.Opens t step)
    (hd : t.get? (s.place step) = some .directory) :
    s.read step t = .error (.io .isDirectory) := by
  have hr : t.readBytes (s.pathFor step) = .error .isDirectory := by
    rw [readBytes_pathFor h ho, hd]
  rw [read, exists?_eq_true h ho hd, FileTree.readText, hr]
  rfl

/-- A token is read just where one is stored and the path can be followed. -/
theorem read_eq_some (h : Rulebook.isName step = true) {p : ProofToken} :
    s.read step t = .ok (some p) ↔ s.Opens t step ∧ s.Stored t step p := by
  constructor
  · intro hr
    by_cases ho : s.Opens t step
    · refine ⟨ho, ?_⟩
      cases hg : t.get? (s.place step) with
      | none => rw [read_missing h fun _ => hg] at hr; cases hr
      | some e =>
          cases e with
          | directory => rw [read_directory h ho hg] at hr; cases hr
          | file b =>
              have hf := read_file h ho hg
              cases hp : ProofToken.ofBytes? b with
              | none =>
                  rw [hp] at hf
                  obtain ⟨e, he⟩ := hf
                  rw [he] at hr; cases hr
              | some q =>
                  rw [hp] at hf
                  rw [hf] at hr
                  cases hr
                  exact ⟨b, hg, hp⟩
    · rw [read_missing h fun ho' => absurd ho' ho] at hr; cases hr
  · rintro ⟨ho, b, hb, hp⟩
    have hf := read_file h ho hb
    rw [hp] at hf
    exact hf

/-! ### Deleting -/

/-- Deleting a proof takes one file away at most, whatever the step is called. -/
theorem remove_loses (s : ProofStore) (step : String) (t : FileTree) :
    LosesFiles (· = FileTree.locate (s.pathFor step)) t (s.remove step t).2 := by
  rw [remove]
  split
  · exact .refl t
  · split
    · exact .refl t
    · rename_i h; exact FileTree.removeFile_loses h

theorem removeFile_pathFor (h : Rulebook.isName step = true) (ho : s.Opens t step) :
    t.removeFile (s.pathFor step) = match t.get? (s.place step) with
      | some (.file _) => .ok (t.erase (s.place step))
      | some .directory => .error .isDirectory
      | none => .error .noEntry :=
  FileTree.removeFile_join (ProofFile.isSimple_name h) ho

theorem remove_missing (h : Rulebook.isName step = true)
    (hn : s.Opens t step → t.get? (s.place step) = none) : s.remove step t = (.ok false, t) := by
  rw [remove, exists?_eq_false h hn]; rfl

theorem remove_file (h : Rulebook.isName step = true) (ho : s.Opens t step) {b : ByteArray}
    (hb : t.get? (s.place step) = some (.file b)) :
    s.remove step t = (.ok true, t.erase (s.place step)) := by
  have hr : t.removeFile (s.pathFor step) = .ok (t.erase (s.place step)) := by
    rw [removeFile_pathFor h ho, hb]
  rw [remove, exists?_eq_true h ho hb, hr]
  rfl

theorem remove_directory (h : Rulebook.isName step = true) (ho : s.Opens t step)
    (hd : t.get? (s.place step) = some .directory) :
    s.remove step t = (.error (.io .isDirectory), t) := by
  have hr : t.removeFile (s.pathFor step) = .error .isDirectory := by
    rw [removeFile_pathFor h ho, hd]
  rw [remove, exists?_eq_true h ho hd, hr]
  rfl

theorem remove_error {e : Failure} (h : s.remove step t = (.error e, t')) : ∃ i, e = .io i := by
  rw [remove] at h
  split at h
  · cases h
  · split at h
    · cases h; exact ⟨_, rfl⟩
    · cases h

/-- Once a proof is deleted nothing is found at its path. -/
theorem remove_ok (h : Rulebook.isName step = true) {b : Bool}
    (hr : s.remove step t = (.ok b, t')) : t'.exists? (s.pathFor step) = false := by
  by_cases hn : s.Opens t step → t.get? (s.place step) = none
  · rw [remove_missing h hn] at hr
    cases hr
    exact exists?_eq_false h hn
  · obtain ⟨ho, hg⟩ := Classical.not_imp.mp hn
    cases he : t.get? (s.place step) with
    | none => exact absurd he hg
    | some e =>
        cases e with
        | directory => rw [remove_directory h ho he] at hr; cases hr
        | file c =>
            rw [remove_file h ho he] at hr
            cases hr
            exact exists?_eq_false h fun _ => by
              rw [FileTree.get?_erase, if_pos ⟨rfl, place_ne_nil⟩]

/-- Deleting a proof leaves everything else alone. -/
theorem get?_remove (h : Rulebook.isName step = true) {l : Location} (hl : l ≠ s.place step) :
    (s.remove step t).2.get? l = t.get? l := by
  unfold remove
  split
  · rfl
  · cases hr : t.removeFile (s.pathFor step) with
    | error e => rfl
    | ok t' =>
        by_cases ho : s.Opens t step
        · rw [removeFile_pathFor h ho] at hr
          split at hr
          · cases hr
            exact (FileTree.get?_erase ..).trans (if_neg fun hp => hl hp.1)
          all_goals cases hr
        · rename_i hx
          rw [FileTree.exists?, stat?_pathFor_of_not_opens h ho] at hx
          exact absurd rfl hx

/-! ### Checking -/

theorem discard_loses (s : ProofStore) (step stored : String) (t : FileTree) :
    LosesFiles (· = FileTree.locate (s.pathFor step)) t (s.discard step stored t).2 := by
  have h := remove_loses s step t
  unfold discard
  revert h
  generalize s.remove step t = r
  obtain ⟨_ | _, t'⟩ := r <;> exact id

/-- A check takes one file away at most. -/
theorem check_loses (s : ProofStore) (step : String) (r : Revision) (t : FileTree) :
    LosesFiles (· = FileTree.locate (s.pathFor step)) t (s.check step r t).2 := by
  unfold check
  split
  · exact .refl t
  · split
    · exact .refl t
    · exact discard_loses s step _ t
  · exact discard_loses s step _ t
  · exact .refl t

theorem get?_discard (h : Rulebook.isName step = true) (stored : String) {l : Location}
    (hl : l ≠ s.place step) : (s.discard step stored t).2.get? l = t.get? l := by
  have hr := get?_remove (t := t) h hl
  rw [← hr]
  unfold discard
  generalize s.remove step t = r
  obtain ⟨_ | _, t'⟩ := r <;> rfl

/-- A check leaves everything but its proof alone. -/
theorem get?_check (h : Rulebook.isName step = true) (r : Revision) {l : Location}
    (hl : l ≠ s.place step) : (s.check step r t).2.get? l = t.get? l := by
  unfold check
  split
  · rfl
  · split
    · rfl
    · exact get?_discard h _ hl
  · exact get?_discard h _ hl
  · rfl

theorem check_missing (h : Rulebook.isName step = true) (r : Revision)
    (hn : s.Opens t step → t.get? (s.place step) = none) :
    s.check step r t = (.ok .missing, t) := by
  unfold check
  rw [read_missing h hn]

/-- A token is current at the revision with its commit; elsewhere it is deleted. -/
theorem check_stored (h : Rulebook.isName step = true) (ho : s.Opens t step) {p : ProofToken}
    (hp : s.Stored t step p) (r : Revision) :
    s.check step r t =
      if p.commit = r.id then (.ok (.current p), t)
      else (.ok (.stale p.revision), t.erase (s.place step)) := by
  have hr := (read_eq_some h).mpr ⟨ho, hp⟩
  obtain ⟨b, hb, -⟩ := hp
  unfold check
  rw [hr]
  by_cases hc : p.commit = r.id
  · simp [hc, ProofToken.matchesRevision]
  · unfold discard
    simp [hc, ProofToken.matchesRevision, remove_file h ho hb]

/-- A check fails only where the file system does: a file that is no token is deleted. -/
theorem check_error {r : Revision} {e : Failure} (h : s.check step r t = (.error e, t')) :
    ∃ i, e = .io i := by
  have hd : ∀ stored, s.discard step stored t = (.error e, t') → ∃ i, e = .io i := by
    intro stored hd
    unfold discard at hd
    cases hr : s.remove step t with
    | mk a t₁ =>
        rw [hr] at hd
        cases a with
        | error f => cases hd; exact remove_error hr
        | ok b => cases hd
  unfold check at h
  split at h
  · cases h
  · split at h
    · cases h
    · exact hd _ h
  · exact hd _ h
  · rename_i f hu hr
    cases h
    rw [read] at hr
    split at hr
    · cases hr
    · split at hr
      · cases hr; exact ⟨_, rfl⟩
      · split at hr
        · cases hr; exact absurd rfl (hu _)
        · cases hr

/-- A check passes only a proof of the revision, and leaves it there. -/
theorem check_current {r : Revision} {p : ProofToken}
    (hc : s.check step r t = (.ok (.current p), t')) :
    t' = t ∧ s.read step t = .ok (some p) ∧ p.commit = r.id := by
  have hd : ∀ stored, s.discard step stored t ≠ (.ok (.current p), t') := fun stored h => by
    unfold discard at h
    generalize s.remove step t = q at h
    obtain ⟨_ | _, _⟩ := q <;> cases h
  unfold check at hc
  split at hc
  · cases hc
  · rename_i q hq
    split at hc
    · rename_i hm
      cases hc
      exact ⟨rfl, hq, ProofToken.matchesRevision_iff.mp hm⟩
    · exact absurd hc (hd _)
  · exact absurd hc (hd _)
  · cases hc

/-! ### Writing -/

/-- The location of the ignore rule. -/
def ignorePlace (s : ProofStore) : Location := s.home ++ [".gitignore"]

theorem place_ne_ignorePlace : s.place step ≠ s.ignorePlace := by
  rw [place, ignorePlace, Ne, List.append_cancel_left_eq, List.cons.injEq]
  exact fun h => ProofFile.name_ne_ignore step h.1

theorem writeFile_ignorePath (t : FileTree) (c : ByteArray) :
    (∃ e, t.writeFile s.ignorePath c = .error e) ∨
      t.get? s.ignorePlace ≠ some .directory ∧
        t.writeFile s.ignorePath c = .ok (t.put s.ignorePlace (.file c)) := by
  by_cases ho : t.Opens s.dir ".gitignore"
  · have hw := FileTree.writeFile_join ProofFile.isSimple_ignore ho c
    by_cases hd : t.get? s.ignorePlace = some .directory
    · exact .inl ⟨_, hw.trans (if_pos hd)⟩
    · exact .inr ⟨hd, hw.trans (if_neg hd)⟩
  · exact .inl (FileTree.writeFile_join_of_not_opens ProofFile.isSimple_ignore ho c)

/-- What making the directory comes to: some directories are made, and then the ignore rule is
written or not. -/
theorem ensureDir_cases (s : ProofStore) (t : FileTree) :
    ∃ t₁, t₁ = (t.makeDirectories s.dir).2 ∧
      ((∃ e, s.ensureDir t = (.error (.io e), t₁)) ∨
        t₁.isDirectory s.dir = true ∧ (s.ensureDir t = (.ok (), t₁) ∨
          t₁.get? s.ignorePlace ≠ some .directory ∧
            s.ensureDir t = (.ok (), t₁.put s.ignorePlace (.file ignoreRule.toUTF8)))) := by
  refine ⟨_, rfl, ?_⟩
  rw [ensureDir]
  cases hm : t.makeDirectories s.dir with
  | mk r t₁ =>
      cases r with
      | error e => exact .inl ⟨e, rfl⟩
      | ok u =>
          have hd : t₁.isDirectory s.dir = true := FileTree.makeDirectories_ok hm
          by_cases hx : t₁.exists? s.ignorePath = true
          · exact .inr ⟨hd, .inl (by simp [hx])⟩
          · dsimp only
            rw [if_neg hx]
            rcases writeFile_ignorePath (s := s) t₁ ignoreRule.toUTF8 with ⟨e, he⟩ | ⟨hn, hw⟩
            · exact .inl ⟨e, by rw [he]⟩
            · exact .inr ⟨hd, .inr ⟨hn, by rw [hw]⟩⟩

theorem ensureDir_keepsDirectories (s : ProofStore) (t : FileTree) :
    KeepsDirectories t (s.ensureDir t).2 := by
  have hk := (FileTree.makeDirectories_adds t s.dir).keepsDirectories
  obtain ⟨t₁, rfl, ⟨e, he⟩ | ⟨-, he | ⟨hn, he⟩⟩⟩ := ensureDir_cases s t
  · rw [he]; exact hk
  · rw [he]; exact hk
  · rw [he]; exact hk.trans (FileTree.keepsDirectories_put _ hn)

theorem ensureDir_ok (h : s.ensureDir t = (.ok (), t')) : t'.isDirectory s.dir = true := by
  obtain ⟨t₁, -, ⟨e, he⟩ | ⟨hd, he | ⟨hn, he⟩⟩⟩ := ensureDir_cases s t
  · rw [he] at h; cases h
  · rw [he] at h; cases h; exact hd
  · rw [he] at h
    cases h
    exact FileTree.isDirectory_mono (FileTree.keepsDirectories_put _ hn) hd

theorem ensureDir_error {e : Failure} (h : s.ensureDir t = (.error e, t')) : ∃ i, e = .io i := by
  obtain ⟨t₁, -, ⟨i, he⟩ | ⟨-, he | ⟨-, he⟩⟩⟩ := ensureDir_cases s t
  · rw [he] at h; cases h; exact ⟨i, rfl⟩
  · rw [he] at h; cases h
  · rw [he] at h; cases h

/-- Apart from the ignore rule, making the directory makes directories only. -/
theorem ensureDir_get? (s : ProofStore) (t : FileTree) (step : String) :
    (s.ensureDir t).2.get? (s.place step) = (t.makeDirectories s.dir).2.get? (s.place step) := by
  obtain ⟨t₁, rfl, ⟨e, he⟩ | ⟨-, he | ⟨-, he⟩⟩⟩ := ensureDir_cases s t
  · rw [he]
  · rw [he]
  · rw [he, FileTree.get?_put, if_neg fun h => place_ne_ignorePlace h.1]

/-- The directory is there, or it can be made without making one at the place of a proof. -/
def Ready (s : ProofStore) (t : FileTree) : Prop :=
  t.isDirectory s.dir = true ∨ ∀ names, names <+: Path.plain s.dir → ∀ step,
    FileTree.locate (Path.ofNames names) ≠ s.place step

theorem Ready.mono (hk : KeepsDirectories t t') (h : s.Ready t) : s.Ready t' :=
  h.imp_left (FileTree.isDirectory_mono hk)

theorem not_prefix_home : ¬ s.place step <+: s.home := fun h => by
  have hl := h.length_le
  rw [place, List.length_append, List.length_singleton] at hl
  omega

/-- A path that never steps upwards does not lead through its own proofs. -/
theorem ready_of_not_mem (h : ".." ∉ Path.segments s.dir) : s.Ready t :=
  .inr fun _ hn _ he => not_prefix_home (he ▸ FileTree.locate_ofNames_prefix h hn)

theorem ensureDir_get?_ready (h : s.Ready t) :
    (s.ensureDir t).2.get? (s.place step) = t.get? (s.place step) := by
  rw [ensureDir_get?]
  rcases h with hd | hup
  · rw [FileTree.makeDirectories_of_isDirectory hd]
  · rcases FileTree.makeDirectories_adds t s.dir (s.place step) with
      he | ⟨hl | ⟨names, hn, hl⟩, -, -⟩
    · exact he
    · exact absurd ⟨[], by rw [List.append_nil]; exact hl⟩ not_prefix_home
    · exact absurd hl.symm (hup names hn step)

/-- The proof files are the same once the directory is made. -/
theorem ensureDir_get?_file {b : ByteArray} :
    (s.ensureDir t).2.get? (s.place step) = some (.file b) ↔
      t.get? (s.place step) = some (.file b) := by
  rw [ensureDir_get?]
  exact (FileTree.makeDirectories_adds t s.dir).get?_file_iff

theorem stored_ensureDir {p : ProofToken} :
    s.Stored (s.ensureDir t).2 step p ↔ s.Stored t step p := by
  simp only [Stored, ensureDir_get?_file]

/-- Writing the proof of a full run fails only where the file system does. -/
theorem write_error {n : Nat} (hn : n ≠ 0) {r : Revision} {stamp : Stamp} {e : Failure}
    (h : s.write step n n r stamp t = (.error e, t')) : ∃ i, e = .io i := by
  rw [write, if_neg (by simp [hn])] at h
  split at h
  · rename_i he
    cases h
    exact ensureDir_error he
  · dsimp only at h
    split at h
    · cases h; exact ⟨_, rfl⟩
    · cases h

theorem write_of_ensureDir_error {n : Nat} (hn : n ≠ 0) (r : Revision) (stamp : Stamp)
    {t₁ : FileTree} {e : Failure} (he : s.ensureDir t = (.error e, t₁)) :
    s.write step n n r stamp t = (.error e, t₁) := by
  rw [write, if_neg (by simp [hn]), he]

theorem write_of_writeFile {n : Nat} (hn : n ≠ 0) {r : Revision} {stamp : Stamp}
    {t₁ t₂ : FileTree} (he : s.ensureDir t = (.ok (), t₁))
    (hw : t₁.writeFile (s.pathFor step) (ProofToken.issue step n n r stamp).encode.toUTF8 =
      .ok t₂) : s.write step n n r stamp t = (.ok (.issue step n n r stamp), t₂) := by
  rw [write, if_neg (by simp [hn]), he]
  dsimp only
  rw [hw]

theorem write_of_writeFile_error {n : Nat} (hn : n ≠ 0) {r : Revision} {stamp : Stamp}
    {t₁ : FileTree} {i : IoError} (he : s.ensureDir t = (.ok (), t₁))
    (hw : t₁.writeFile (s.pathFor step) (ProofToken.issue step n n r stamp).encode.toUTF8 =
      .error i) : s.write step n n r stamp t = (.error (.io i), t₁) := by
  rw [write, if_neg (by simp [hn]), he]
  dsimp only
  rw [hw]

theorem writeFile_pathFor (h : Rulebook.isName step = true) (ho : s.Opens t step)
    (c : ByteArray) : t.writeFile (s.pathFor step) c =
      if t.get? (s.place step) = some .directory then .error .isDirectory
      else .ok (t.put (s.place step) (.file c)) :=
  FileTree.writeFile_join (ProofFile.isSimple_name h) ho c

/-- Where the path cannot be followed it does not matter what is to be written. -/
theorem writeFile_pathFor_error (h : Rulebook.isName step = true) (ho : ¬ s.Opens t step) :
    ∃ i, ∀ c, t.writeFile (s.pathFor step) c = .error i := by
  obtain ⟨i, hr⟩ := FileTree.resolve_join_error (ProofFile.isSimple_name h) ho
  exact ⟨i, fun c => by rw [FileTree.writeFile, pathFor, hr]⟩

/-- Where nothing is in the way a proof is put at its place. -/
theorem write_of_opens (h : Rulebook.isName step = true) {n : Nat} (hn : n ≠ 0) (r : Revision)
    (stamp : Stamp) {t₁ : FileTree} (he : s.ensureDir t = (.ok (), t₁)) (ho : s.Opens t₁ step)
    (hd : t₁.get? (s.place step) ≠ some .directory) : s.write step n n r stamp t =
      (.ok (.issue step n n r stamp),
        t₁.put (s.place step) (.file (ProofToken.issue step n n r stamp).encode.toUTF8)) :=
  write_of_writeFile hn he ((writeFile_pathFor h ho _).trans (if_neg hd))

/-- What writing a proof of a full run comes to does not depend on the stamp: it is put at its place
once the directory is made, or the file system is at fault. -/
theorem write_uniform (h : Rulebook.isName step = true) {n : Nat} (hn : n ≠ 0) (r : Revision) :
    (∃ i, ∀ stamp, s.write step n n r stamp t = (.error (.io i), (s.ensureDir t).2)) ∨
      ∃ t₁, s.ensureDir t = (.ok (), t₁) ∧ s.Opens t₁ step ∧
        t₁.get? (s.place step) ≠ some .directory ∧ ∀ stamp, s.write step n n r stamp t =
          (.ok (.issue step n n r stamp),
            t₁.put (s.place step) (.file (ProofToken.issue step n n r stamp).encode.toUTF8)) := by
  cases he : s.ensureDir t with
  | mk a t₁ =>
      cases a with
      | error e =>
          obtain ⟨i, rfl⟩ := ensureDir_error he
          exact .inl ⟨i, fun stamp => write_of_ensureDir_error hn r stamp he⟩
      | ok u =>
          -- what stands at the place is looked at before the contents are
          by_cases ho : s.Opens t₁ step
          · by_cases hd : t₁.get? (s.place step) = some .directory
            · exact .inl ⟨.isDirectory, fun stamp =>
                write_of_writeFile_error hn he ((writeFile_pathFor h ho _).trans (if_pos hd))⟩
            · exact .inr ⟨t₁, rfl, ho, hd, fun stamp => write_of_opens h hn r stamp he ho hd⟩
          · obtain ⟨i, hi⟩ := writeFile_pathFor_error h ho
            exact .inl ⟨i, fun stamp => write_of_writeFile_error hn he (hi _)⟩

/-- What writing a proof of a full run comes to, once the directory is made. -/
theorem write_cases (h : Rulebook.isName step = true) {n : Nat} (hn : n ≠ 0) (r : Revision)
    (stamp : Stamp) :
    (∃ i, s.write step n n r stamp t = (.error (.io i), (s.ensureDir t).2)) ∨
      ∃ t₁ p, s.ensureDir t = (.ok (), t₁) ∧ p = ProofToken.issue step n n r stamp ∧
        s.Opens t₁ step ∧ t₁.get? (s.place step) ≠ some .directory ∧
          s.write step n n r stamp t =
            (.ok p, t₁.put (s.place step) (.file p.encode.toUTF8)) := by
  rcases write_uniform (s := s) (t := t) h hn r with ⟨i, hw⟩ | ⟨t₁, he, ho, hd, hw⟩
  · exact .inl ⟨i, hw stamp⟩
  · exact .inr ⟨t₁, _, he, rfl, ho, hd, hw stamp⟩

/-- A proof that was written is at its place. -/
theorem stored_put (t : FileTree) (p : ProofToken) :
    s.Stored (t.put (s.place step) (.file p.encode.toUTF8)) step p :=
  ⟨p.encode.toUTF8, by rw [FileTree.get?_put, if_pos ⟨rfl, place_ne_nil⟩],
    ProofToken.ofBytes?_encode p⟩

theorem opens_put (ho : s.Opens t step) {e : Entry}
    (hd : t.get? (s.place step) ≠ some .directory) : s.Opens (t.put (s.place step) e) step :=
  ho.mono (FileTree.keepsDirectories_put e hd)

/-- A proof that was written is read back from its file. -/
theorem write_ok (h : Rulebook.isName step = true) {n : Nat} (hn : n ≠ 0) {r : Revision}
    {stamp : Stamp} {p : ProofToken} (hw : s.write step n n r stamp t = (.ok p, t')) :
    p = ProofToken.issue step n n r stamp ∧ s.read step t' = .ok (some p) ∧
      s.holds step t' = true := by
  rcases write_cases (s := s) (t := t) h hn r stamp with ⟨i, hi⟩ | ⟨t₁, p', -, rfl, ho, hd, hi⟩
  · rw [hi] at hw; cases hw
  · rw [hi] at hw
    cases hw
    have ho' := opens_put (e := .file (ProofToken.issue step n n r stamp).encode.toUTF8) ho hd
    refine ⟨rfl, (read_eq_some h).mpr ⟨ho', stored_put t₁ _⟩, ?_⟩
    rw [holds, FileTree.isFile, stat?_pathFor h ho', FileTree.get?_put,
      if_pos ⟨rfl, place_ne_nil⟩]

theorem holds_eq_false (h : t.exists? (s.pathFor step) = false) : s.holds step t = false := by
  rw [FileTree.exists?, Option.isSome_eq_false_iff, Option.isNone_iff_eq_none] at h
  rw [holds, FileTree.isFile, h]

/-! ### The ignore rule -/

theorem exists?_ignorePath_iff : t.exists? s.ignorePath = true ↔
    t.Opens s.dir ".gitignore" ∧ ∃ e, t.get? s.ignorePlace = some e := by
  rw [FileTree.exists?, Option.isSome_iff_exists]
  by_cases ho : t.Opens s.dir ".gitignore"
  · have h : t.stat? s.ignorePath = t.get? s.ignorePlace :=
      FileTree.stat?_join ProofFile.isSimple_ignore ho
    rw [h]
    exact (and_iff_right ho).symm
  · have h : t.stat? s.ignorePath = none :=
      FileTree.stat?_join_of_not_opens ProofFile.isSimple_ignore ho
    rw [h]
    exact iff_of_false (fun ⟨_, he⟩ => nomatch he) fun h => ho h.1

/-- A rule that is not there is put where nothing was, unless its path cannot be followed. -/
theorem writeFile_ignorePath_of_not_exists (hx : ¬ t.exists? s.ignorePath = true)
    (c : ByteArray) :
    ¬ t.Opens s.dir ".gitignore" ∧ (∃ e, t.writeFile s.ignorePath c = .error e) ∨
      t.Opens s.dir ".gitignore" ∧ t.get? s.ignorePlace = none ∧
        t.writeFile s.ignorePath c = .ok (t.put s.ignorePlace (.file c)) := by
  by_cases ho : t.Opens s.dir ".gitignore"
  · rw [exists?_ignorePath_iff, not_and, not_exists] at hx
    have hn := Option.eq_none_iff_forall_ne_some.mpr (hx ho)
    have hd : t.get? s.ignorePlace ≠ some .directory := by rw [hn]; simp
    exact .inr ⟨ho, hn, (FileTree.writeFile_join ProofFile.isSimple_ignore ho c).trans (if_neg hd)⟩
  · exact .inl ⟨ho, FileTree.writeFile_join_of_not_opens ProofFile.isSimple_ignore ho c⟩

/-- Once the directory is made the rule is there. -/
theorem exists?_ensureDir (h : s.ensureDir t = (.ok (), t')) :
    t'.exists? s.ignorePath = true := by
  unfold ensureDir at h
  rcases hm : t.makeDirectories s.dir with ⟨e | u, t₁⟩
  · rw [hm] at h; cases h
  · rw [hm] at h
    dsimp only at h
    split at h
    · rename_i hx
      cases h
      exact hx
    · rename_i hx
      rcases writeFile_ignorePath_of_not_exists hx ignoreRule.toUTF8 with
        ⟨-, e, he⟩ | ⟨ho, hn, hw⟩
      · rw [he] at h; cases h
      · rw [hw] at h
        cases h
        refine exists?_ignorePath_iff.mpr ⟨?_, .file ignoreRule.toUTF8, ?_⟩
        · exact ho.mono (FileTree.keepsDirectories_put _ (by rw [hn]; simp))
        · rw [FileTree.get?_put, if_pos ⟨rfl, by simp [ignorePlace]⟩]

/-- Once a proof is written the rule is there. -/
theorem exists?_write (h : Rulebook.isName step = true) {passed total : Nat} {r : Revision}
    {stamp : Stamp} {p : ProofToken} (hw : (s.write step passed total r stamp t).1 = .ok p) :
    (s.write step passed total r stamp t).2.exists? s.ignorePath = true := by
  by_cases hf : total = 0 ∨ passed ≠ total
  · rw [write, if_pos hf] at hw; cases hw
  · obtain ⟨hn, hp⟩ := not_or.mp hf
    obtain rfl := Classical.not_not.mp hp
    rcases write_cases (s := s) (t := t) h hn r stamp with ⟨i, hi⟩ | ⟨t₁, q, he, -, -, hd, hi⟩
    · rw [hi] at hw; cases hw
    · obtain ⟨ho, e, hx⟩ := exists?_ignorePath_iff.mp (exists?_ensureDir he)
      rw [hi, exists?_ignorePath_iff]
      refine ⟨ho.mono (FileTree.keepsDirectories_put _ hd), e, ?_⟩
      rw [FileTree.get?_put, if_neg fun h => place_ne_ignorePlace h.1.symm, hx]

/-! ### Deleting every proof -/

/-- The steps that are listed are those with something at their place. -/
theorem list_ok {steps : List String} (h : s.list t = .ok steps) {a : String} (ha : a ∈ steps) :
    a ≠ "" ∧ ∃ e, t.get? (s.place a) = some e := by
  rw [list] at h
  split at h
  · cases h; cases ha
  · split at h
    · cases h
    · rename_i ns hns
      cases h
      obtain ⟨n, hn, hs⟩ := List.mem_filterMap.mp (List.mem_mergeSort.mp ha)
      obtain ⟨rfl, hne⟩ := ProofFile.step?_eq_some.mp hs
      rw [FileTree.names_ok hns] at hn
      exact ⟨hne, FileTree.mem_children_iff.mp hn⟩

theorem list_of_isDirectory (h : t.isDirectory s.dir = true) :
    ∃ steps, s.list t = .ok steps ∧
      ∀ a, a ∈ steps ↔ a ≠ "" ∧ ∃ e, t.get? (s.place a) = some e := by
  have hx : t.exists? s.dir = true := by
    rw [FileTree.isDirectory, beq_iff_eq] at h
    rw [FileTree.exists?, h]; rfl
  rw [list, hx, FileTree.names_of_isDirectory h]
  refine ⟨_, rfl, fun a => ?_⟩
  rw [List.mem_mergeSort, List.mem_filterMap]
  constructor
  · rintro ⟨n, hn, hs⟩
    obtain ⟨rfl, hne⟩ := ProofFile.step?_eq_some.mp hs
    exact ⟨hne, FileTree.mem_children_iff.mp hn⟩
  · rintro ⟨hne, he⟩
    exact ⟨_, FileTree.mem_children_iff.mpr he, ProofFile.step?_eq_some.mpr ⟨rfl, hne⟩⟩

section

-- deletion is not looked into where the recursion is opened
attribute [local irreducible] remove

theorem removeEach_cons (n : Nat) (step : String) (steps : List String) (t : FileTree) :
    s.removeEach n (step :: steps) t = match s.remove step t with
      | (.error e, t) => (.error e, t)
      | (.ok removed, t) => s.removeEach (if removed then n + 1 else n) steps t := rfl

theorem removeEach_of_remove {step : String} {t t' : FileTree}
    (h : s.remove step t = (.ok true, t')) (n : Nat) (steps : List String) :
    s.removeEach n (step :: steps) t = s.removeEach (n + 1) steps t' := by
  rw [removeEach_cons, h]
  rfl

end

/-- Where an operation on proofs can take a file away. -/
def IsPath (s : ProofStore) (l : Location) : Prop := ∃ a, l = FileTree.locate (s.pathFor a)

theorem removeEach_loses (s : ProofStore) (n : Nat) (steps : List String) (t : FileTree) :
    LosesFiles s.IsPath t (s.removeEach n steps t).2 := by
  induction steps generalizing n t with
  | nil => exact .refl t
  | cons a steps ih =>
      have h : LosesFiles s.IsPath t (s.remove a t).2 :=
        (remove_loses s a t).mono fun l hl => ⟨a, hl⟩
      rw [removeEach_cons]
      revert h
      generalize s.remove a t = r
      obtain ⟨_ | b, t'⟩ := r
      · exact id
      · exact fun h => h.trans (ih _ t')

theorem clear_loses (s : ProofStore) (t : FileTree) :
    LosesFiles s.IsPath t (s.clear t).2 := by
  rw [clear]
  cases s.list t with
  | error e => exact .refl t
  | ok steps => exact removeEach_loses s 0 steps t

end Readiness.ProofStore

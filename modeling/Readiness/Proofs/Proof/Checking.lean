import Readiness.Proofs.Proof.Store

/-!
# Proof — looking at a proof, and looking again

What a check does in any directory, orderly or not.

* `SameBesides`: two trees differ in proof files at most.
* `Agrees`: two trees do not differ in what can be seen of a step's proof.
* `Look`, `look`: what a check can come to, and what it leaves.
* `check_check`, `left_by_check`: a check that follows another finds what that one left.
* `agrees_check`: a check of a step does not touch the proof of another step.
-/

namespace Readiness

/-- What is found of a proof after it was found in a state: a stale one is gone. -/
def ProofState.next : ProofState → ProofState
  | .stale _ => .missing
  | state => state

theorem ProofState.next_ne_stale (state : ProofState) (stored : String) :
    state.next ≠ .stale stored := by
  cases state <;> simp [next]

namespace ProofStore

open FileTree (KeepsDirectories LosesFiles)

variable {s : ProofStore} {t t' : FileTree} {step a b : String} {r : Revision}

/-! ### Proof files come and go -/

/-- The trees differ in proof files at most: in what these say, and in which of them there are. -/
def SameBesides (s : ProofStore) (t t' : FileTree) : Prop :=
  ∀ l, t'.get? l = t.get? l ∨
    (∃ a, l = s.place a) ∧ t.get? l ≠ some .directory ∧ t'.get? l ≠ some .directory

theorem SameBesides.refl (s : ProofStore) (t : FileTree) : s.SameBesides t t := fun _ => .inl rfl

theorem SameBesides.trans {t₁ t₂ t₃ : FileTree} (h₁ : s.SameBesides t₁ t₂)
    (h₂ : s.SameBesides t₂ t₃) : s.SameBesides t₁ t₃ := by
  intro l
  rcases h₁ l with e₁ | ⟨a, d₁, d₂⟩
  · rw [← e₁]; exact h₂ l
  · rcases h₂ l with e₂ | ⟨-, -, d₃⟩
    · exact .inr ⟨a, d₁, e₂ ▸ d₂⟩
    · exact .inr ⟨a, d₁, d₃⟩

/-- The directories are the same. -/
theorem SameBesides.get?_directory (h : s.SameBesides t t') (l : Location) :
    t'.get? l = some .directory ↔ t.get? l = some .directory := by
  rcases h l with e | ⟨-, d, d'⟩
  · rw [e]
  · exact iff_of_false d' d

theorem SameBesides.opens (h : s.SameBesides t t') : s.Opens t' step ↔ s.Opens t step :=
  ⟨fun ho => ho.mono fun l => (h.get?_directory l).mp,
    fun ho => ho.mono fun l => (h.get?_directory l).mpr⟩

theorem sameBesides_put (hd : t.get? (s.place step) ≠ some .directory) (bytes : ByteArray) :
    s.SameBesides t (t.put (s.place step) (.file bytes)) := by
  intro l
  rw [FileTree.get?_put]
  split
  · rename_i hl
    exact .inr ⟨⟨step, hl.1⟩, by rw [hl.1]; exact hd, by simp⟩
  · exact .inl rfl

/-- Losing proof files makes no other difference. -/
theorem SameBesides.of_loses (hl : LosesFiles (· = s.place step) t t') : s.SameBesides t t' := by
  intro l
  rcases hl l with e | ⟨rfl, ⟨c, hc⟩, hn⟩
  · exact .inl e
  · exact .inr ⟨⟨step, rfl⟩, by rw [hc]; simp, by rw [hn]; simp⟩

theorem sameBesides_remove (h : Rulebook.isName step = true) (t : FileTree) :
    s.SameBesides t (s.remove step t).2 := by
  have hl := remove_loses s step t
  rw [locate_pathFor h] at hl
  exact .of_loses hl

theorem sameBesides_check (h : Rulebook.isName step = true) (r : Revision) (t : FileTree) :
    s.SameBesides t (s.check step r t).2 := by
  have hl := check_loses s step r t
  rw [locate_pathFor h] at hl
  exact .of_loses hl

/-! ### What can be seen of a proof -/

/-- What is read from the entry at the place of a proof. -/
def readEntry : Option Entry → Except Failure (Option ProofToken)
  | none => .ok none
  | some .directory => .error (.io .isDirectory)
  | some (.file bytes) =>
    match String.fromUTF8? bytes with
    | none => .error (.io .invalidText)
    | some text =>
      match ProofToken.decode text with
      | .error f => .error (.unreadableProof f)
      | .ok p => .ok (some p)

theorem read_eq_readEntry (h : Rulebook.isName step = true) (ho : s.Opens t step) :
    s.read step t = readEntry (t.get? (s.place step)) := by
  cases hg : t.get? (s.place step) with
  | none => exact read_missing h fun _ => hg
  | some e =>
      cases e with
      | directory => exact read_directory h ho hg
      | file bytes =>
          have hr : t.readBytes (s.pathFor step) = .ok bytes := by rw [readBytes_pathFor h ho, hg]
          rw [read, exists?_eq_true h ho hg, FileTree.readText, hr, readEntry]
          dsimp only
          generalize String.fromUTF8? bytes = u
          cases u <;> rfl

/-- The trees do not differ in what can be seen of the step's proof. -/
structure Agrees (s : ProofStore) (step : String) (t t' : FileTree) : Prop where
  opens : s.Opens t' step ↔ s.Opens t step
  get? : t'.get? (s.place step) = t.get? (s.place step)

theorem Agrees.refl (s : ProofStore) (step : String) (t : FileTree) : s.Agrees step t t :=
  ⟨Iff.rfl, rfl⟩

theorem Agrees.read_eq (h : Rulebook.isName step = true) (ha : s.Agrees step t t') :
    s.read step t' = s.read step t := by
  by_cases ho : s.Opens t step
  · rw [read_eq_readEntry h ho, read_eq_readEntry h (ha.opens.mpr ho), ha.get?]
  · rw [read_missing h fun ho' => absurd ho' ho,
      read_missing h fun ho' => absurd (ha.opens.mp ho') ho]

theorem Agrees.remove_eq (h : Rulebook.isName step = true) (ha : s.Agrees step t t') :
    (s.remove step t').1 = (s.remove step t).1 := by
  by_cases ho : s.Opens t step
  · have ho' := ha.opens.mpr ho
    have hg' := ha.get?
    cases hg : t.get? (s.place step) with
    | none =>
        rw [hg] at hg'
        rw [remove_missing h fun _ => hg, remove_missing h fun _ => hg']
    | some e =>
        rw [hg] at hg'
        cases e with
        | directory => rw [remove_directory h ho hg, remove_directory h ho' hg']
        | file bytes => rw [remove_file h ho hg, remove_file h ho' hg']
  · rw [remove_missing h fun ho' => absurd ho' ho,
      remove_missing h fun ho' => absurd (ha.opens.mp ho') ho]

/-- What a check comes to depends on what can be seen of the proof. -/
theorem Agrees.check_eq (h : Rulebook.isName step = true) (ha : s.Agrees step t t') :
    (s.check step r t').1 = (s.check step r t).1 := by
  have discards : ∀ stored, (s.discard step stored t').1 = (s.discard step stored t).1 := by
    intro stored
    have hr := ha.remove_eq h
    unfold discard
    revert hr
    generalize s.remove step t' = x'
    generalize s.remove step t = x
    obtain ⟨_ | _, _⟩ := x <;> obtain ⟨_ | _, _⟩ := x' <;> intro hr <;> cases hr <;> rfl
  unfold check
  rw [ha.read_eq h]
  cases s.read step t with
  | ok found =>
      cases found with
      | none => rfl
      | some p =>
          dsimp only
          split
          · rfl
          · exact discards _
  | error e =>
      cases e with
      | unreadableProof f => exact discards _
      | _ => rfl

theorem SameBesides.agrees (h : s.SameBesides t t')
    (hg : t'.get? (s.place step) = t.get? (s.place step)) : s.Agrees step t t' := ⟨h.opens, hg⟩

/-- Where a proof is put, the others stay as they are. -/
theorem agrees_put (hne : b ≠ a) (hd : t.get? (s.place a) ≠ some .directory)
    (bytes : ByteArray) : s.Agrees b t (t.put (s.place a) (.file bytes)) :=
  (sameBesides_put hd bytes).agrees <| by
    rw [FileTree.get?_put, if_neg fun h => hne (place_injective h.1)]

/-- Deleting a proof leaves those of the other steps as they are. -/
theorem agrees_remove (h : Rulebook.isName a = true) (hne : b ≠ a) (t : FileTree) :
    s.Agrees b t (s.remove a t).2 :=
  (sameBesides_remove h t).agrees (get?_remove h fun e => hne (place_injective e))

/-- So does a check. -/
theorem agrees_check (h : Rulebook.isName a = true) (hne : b ≠ a) (r : Revision) (t : FileTree) :
    s.Agrees b t (s.check a r t).2 :=
  (sameBesides_check h r t).agrees (get?_check h r fun e => hne (place_injective e))

/-! ### What a check can come to -/

/-- What a look at the step's proof can come to, and the files it leaves. -/
inductive Look (s : ProofStore) (step : String) (r : Revision) (t : FileTree) :
    Result ProofState → Prop
  | missing : s.read step t = .ok none → Look s step r t (.ok .missing, t)
  | current {p : ProofToken} : s.read step t = .ok (some p) → p.commit = r.id →
      Look s step r t (.ok (.current p), t)
  /-- The file is deleted. -/
  | stale {stored : String} {bytes : ByteArray} : t.get? (s.place step) = some (.file bytes) →
      Look s step r t (.ok (.stale stored), t.erase (s.place step))
  | unseen {i : IoError} : s.read step t = .error (.io i) → Look s step r t (.error (.io i), t)

/-- Reading fails where the file system does, or on a file that is no token. -/
theorem read_error {e : Failure} (hr : s.read step t = .error e) :
    (∃ i, e = .io i) ∨ ∃ f, e = .unreadableProof f := by
  rw [read] at hr
  split at hr
  · cases hr
  · split at hr
    · cases hr; exact .inl ⟨_, rfl⟩
    · split at hr
      · cases hr; exact .inr ⟨_, rfl⟩
      · cases hr

/-- Something is read only from a file that the path opens. -/
theorem file_of_read (h : Rulebook.isName step = true) (hn : s.read step t ≠ .ok none)
    (hio : ∀ i, s.read step t ≠ .error (.io i)) :
    s.Opens t step ∧ ∃ bytes, t.get? (s.place step) = some (.file bytes) := by
  by_cases ho : s.Opens t step
  · cases hg : t.get? (s.place step) with
    | none => exact absurd (read_missing h fun _ => hg) hn
    | some e =>
        cases e with
        | directory => exact absurd (read_directory h ho hg) (hio _)
        | file bytes => exact ⟨ho, bytes, rfl⟩
  · exact absurd (read_missing h fun ho' => absurd ho' ho) hn

theorem look (h : Rulebook.isName step = true) (r : Revision) (t : FileTree) :
    s.Look step r t (s.check step r t) := by
  have discards : ∀ stored, s.Opens t step → ∀ {bytes},
      t.get? (s.place step) = some (.file bytes) →
        s.Look step r t (s.discard step stored t) := fun stored ho {bytes} hb => by
    unfold discard
    rw [remove_file h ho hb]
    exact .stale hb
  unfold check
  cases hr : s.read step t with
  | ok found =>
      cases found with
      | none => exact .missing hr
      | some p =>
          obtain ⟨ho, bytes, hb⟩ := file_of_read h (t := t) (by rw [hr]; simp) (by rw [hr]; simp)
          dsimp only
          split
          · rename_i hm
            exact .current hr (ProofToken.matchesRevision_iff.mp hm)
          · exact discards _ ho hb
  | error e =>
      rcases read_error hr with ⟨i, rfl⟩ | ⟨f, rfl⟩
      · exact .unseen hr
      · obtain ⟨ho, bytes, hb⟩ := file_of_read h (t := t) (by rw [hr]; simp) (by rw [hr]; simp)
        exact discards _ ho hb

/-- A proof of the revision is found current. -/
theorem check_of_read {p : ProofToken} (hr : s.read step t = .ok (some p)) (hc : p.commit = r.id) :
    s.check step r t = (.ok (.current p), t) := by
  unfold check
  rw [hr]
  exact if_pos (ProofToken.matchesRevision_iff.mpr hc)

theorem check_of_read_none (hr : s.read step t = .ok none) :
    s.check step r t = (.ok .missing, t) := by
  unfold check
  rw [hr]

theorem check_of_read_error {i : IoError} (hr : s.read step t = .error (.io i)) :
    s.check step r t = (.error (.io i), t) := by
  unfold check
  rw [hr]

theorem check_of_not_opens (h : Rulebook.isName step = true) (ho : ¬ s.Opens t step)
    (r : Revision) : s.check step r t = (.ok .missing, t) :=
  check_missing h r fun ho' => absurd ho' ho

/-- Where nothing is found at the path there is no proof, and nothing to delete. -/
theorem check_of_not_exists (hx : t.exists? (s.pathFor step) = false) (r : Revision) :
    s.check step r t = (.ok .missing, t) :=
  check_of_read_none <| by rw [read, hx]; rfl

theorem remove_of_not_exists (hx : t.exists? (s.pathFor step) = false) :
    s.remove step t = (.ok false, t) := by
  rw [remove, hx]
  rfl

/-- A check that comes to what another left finds nothing to delete. -/
theorem check_of_next (h : Rulebook.isName step = true) {a : Except Failure ProofState}
    (hc : (s.check step r t).1 = a.map ProofState.next) :
    s.check step r t = (a.map ProofState.next, t) := by
  refine Prod.ext hc ?_
  have hl := look (s := s) h r t
  generalize s.check step r t = x at hl hc ⊢
  cases hl with
  | missing | current | unseen => rfl
  | stale hb =>
      cases a with
      | error e => cases hc
      | ok state => exact absurd (Except.ok.inj hc).symm (ProofState.next_ne_stale state _)

/-- A proof that could be looked at can be deleted. -/
theorem remove_of_check (h : Rulebook.isName step = true) {state : ProofState}
    (hc : (s.check step r t).1 = .ok state) : ∃ b, (s.remove step t).1 = .ok b := by
  by_cases ho : s.Opens t step
  · cases hg : t.get? (s.place step) with
    | none => exact ⟨_, congrArg Prod.fst (remove_missing h fun _ => hg)⟩
    | some e =>
        cases e with
        | directory =>
            rw [check_of_read_error (read_directory h ho hg)] at hc
            cases hc
        | file bytes => exact ⟨_, congrArg Prod.fst (remove_file h ho hg)⟩
  · exact ⟨_, congrArg Prod.fst (remove_missing h fun ho' => absurd ho' ho)⟩

/-! ### A second look -/

/-- A check that follows another finds what that one left, and leaves it. -/
theorem check_check (h : Rulebook.isName step = true) (r : Revision) (t : FileTree) :
    s.check step r (s.check step r t).2 =
      ((s.check step r t).1.map ProofState.next, (s.check step r t).2) := by
  have hl := look (s := s) h r t
  generalize s.check step r t = x at hl ⊢
  cases hl with
  | missing hr => exact check_of_read_none hr
  | current hr hc => exact check_of_read hr hc
  | stale hb =>
      refine check_missing h r fun _ => ?_
      rw [FileTree.get?_erase, if_pos ⟨rfl, place_ne_nil⟩]
  | unseen hr => exact check_of_read_error hr

/-- After a check that was answered a proof file may be gone, and a second check is answered. -/
theorem left_by_check (h : Rulebook.isName step = true) {state : ProofState}
    (hc : s.check step r t = (.ok state, t')) :
    s.SameBesides t t' ∧ s.check step r t' = (.ok state.next, t') := by
  have hs := sameBesides_check (s := s) h r t
  have hcc := check_check (s := s) h r t
  rw [hc] at hs hcc
  exact ⟨hs, hcc⟩

end ProofStore

end Readiness

import Readiness.Proofs.FileTree.Extension
import Readiness.Proofs.Proof.Checking

/-!
# Proof — what stands in a proof file

A look at a proof, said of what its path leads to.  The step may be called anything, and the file
may hold any bytes.

* `read_eq_stat?`: what is read is a matter of the entry at the path.
* `HoldsText`, `Legible`: a file of text stands in the place of a proof; that, or nothing at all.
* `worth`, `check_text`: such a text is current or stale, and a stale one is deleted.
* `check_of_not_legible`: a directory, or bytes that are no text, are an error, and stay.
* `judged`: so a look at a proof is answered just where that is legible.
-/

namespace Readiness.ProofStore

variable {s : ProofStore} {t t' : FileTree} {step text : String} {r : Revision} {l : Location}
  {bytes : ByteArray}

theorem read_eq_stat? (s : ProofStore) (step : String) (t : FileTree) :
    s.read step t = readEntry (t.stat? (s.pathFor step)) := by
  cases hf : t.find? (s.pathFor step) with
  | none =>
      have hx : t.exists? (s.pathFor step) = false := by
        rw [FileTree.exists?, FileTree.stat?, hf]; rfl
      rw [read, hx, FileTree.stat?, hf]
      rfl
  | some x =>
      obtain ⟨l, e⟩ := x
      have hx : t.exists? (s.pathFor step) = true := by
        rw [FileTree.exists?, FileTree.stat?, hf]; rfl
      have hr := FileTree.find?_eq_some.mp hf
      rw [read, hx, FileTree.stat?, hf, FileTree.readText, FileTree.readBytes, hr]
      cases e with
      | directory => rfl
      | file bytes =>
          rw [Option.map_some, readEntry]
          dsimp only
          generalize String.fromUTF8? bytes = u
          cases u <;> rfl

theorem remove_of_find? (h : t.find? (s.pathFor step) = some (l, .file bytes)) :
    s.remove step t = (.ok true, t.erase l) := by
  have hx : t.exists? (s.pathFor step) = true := by
    rw [FileTree.exists?, FileTree.stat?, h]; rfl
  have hr : t.removeFile (s.pathFor step) = .ok (t.erase l) := by
    rw [FileTree.removeFile, FileTree.find?_eq_some.mp h]
  unfold remove
  rw [hx, hr]
  rfl

/-! ### What can stand there -/

/-- The path of the step's proof leads to a file of text. -/
def HoldsText (s : ProofStore) (t : FileTree) (step : String) (l : Location) (text : String) :
    Prop :=
  ∃ bytes, t.find? (s.pathFor step) = some (l, .file bytes) ∧ String.fromUTF8? bytes = some text

/-- What stands in the place of the step's proof is text, if anything does. -/
def Legible (s : ProofStore) (t : FileTree) (step : String) : Prop :=
  t.find? (s.pathFor step) = none ∨ ∃ l text, s.HoldsText t step l text

theorem HoldsText.unique {k : Location} {text' : String} (h : s.HoldsText t step l text)
    (h' : s.HoldsText t step k text') : l = k ∧ text = text' := by
  obtain ⟨b, hf, ht⟩ := h
  obtain ⟨b', hf', ht'⟩ := h'
  cases hf.symm.trans hf'
  exact ⟨rfl, Option.some.inj (ht.symm.trans ht')⟩

/-- What is left when files are taken away is legible if all was. -/
theorem Legible.mono (hx : FileTree.Extends t' t) (h : s.Legible t step) : s.Legible t' step := by
  cases hf : t'.find? (s.pathFor step) with
  | none => exact .inl hf
  | some x =>
      rcases h with hn | ⟨l, text, bytes, hb, ht⟩
      · rw [hx.find? hf] at hn; cases hn
      · rw [hx.find? hf] at hb; cases hb
        exact .inr ⟨l, text, bytes, hf, ht⟩

/-! ### What a look at it comes to -/

/-- What the text of a proof file is worth at a revision. -/
def worth (r : Revision) (text : String) : ProofState :=
  match ProofToken.decode text with
  | .ok p => if p.commit = r.id then .current p else .stale p.revision
  | .error _ => .stale unreadable

theorem worth_eq_current {p : ProofToken} :
    worth r text = .current p ↔ ProofToken.decode text = .ok p ∧ p.commit = r.id := by
  rw [worth]
  cases ProofToken.decode text with
  | error f => simp
  | ok q =>
      by_cases hc : q.commit = r.id
      · simp only [if_pos hc, ProofState.current.injEq, Except.ok.injEq]
        exact ⟨fun h => ⟨h, h ▸ hc⟩, fun h => h.1⟩
      · simp only [if_neg hc, Except.ok.injEq]
        exact iff_of_false nofun fun h => hc (h.1 ▸ h.2)

/-- What is not current is stale. -/
theorem worth_cases (r : Revision) (text : String) :
    (∃ p, worth r text = .current p) ∨ ∃ stored, worth r text = .stale stored := by
  rw [worth]
  split
  · split
    · exact .inl ⟨_, rfl⟩
    · exact .inr ⟨_, rfl⟩
  · exact .inr ⟨_, rfl⟩

theorem check_nothing (h : t.find? (s.pathFor step) = none) (r : Revision) :
    s.check step r t = (.ok .missing, t) :=
  check_of_read_none <| by rw [read_eq_stat?, FileTree.stat?, h]; rfl

/-- Text that is not current is deleted. -/
theorem check_text (h : s.HoldsText t step l text) (r : Revision) :
    s.check step r t = (.ok (worth r text), if (worth r text).isCurrent then t else t.erase l) := by
  obtain ⟨bytes, hf, ht⟩ := h
  have hr : s.read step t = readEntry (some (.file bytes)) := by
    rw [read_eq_stat?, FileTree.stat?, hf]; rfl
  have discards : ∀ stored, s.discard step stored t = (.ok (.stale stored), t.erase l) := by
    intro stored
    unfold discard
    rw [remove_of_find? hf]
  rw [readEntry, ht] at hr
  unfold check
  rw [hr, worth]
  dsimp only
  cases ProofToken.decode text with
  | error f => exact discards _
  | ok p =>
      by_cases hc : p.commit = r.id
      · simp only [if_pos hc, if_pos (ProofToken.matchesRevision_iff.mpr hc)]
        rfl
      · simp only [if_neg hc, if_neg fun hm => hc (ProofToken.matchesRevision_iff.mp hm)]
        exact discards _

theorem check_of_not_legible (h : ¬ s.Legible t step) (r : Revision) :
    ∃ i, s.check step r t = (.error (.io i), t) := by
  cases hf : t.find? (s.pathFor step) with
  | none => exact absurd (.inl hf) h
  | some x =>
      obtain ⟨l, e⟩ := x
      have hr : s.read step t = readEntry (some e) := by
        rw [read_eq_stat?, FileTree.stat?, hf]; rfl
      cases e with
      | directory => exact ⟨_, check_of_read_error hr⟩
      | file bytes =>
          rw [readEntry] at hr
          cases ht : String.fromUTF8? bytes with
          | some text => exact absurd (.inr ⟨l, text, bytes, hf, ht⟩) h
          | none =>
              rw [ht] at hr
              exact ⟨_, check_of_read_error hr⟩

theorem check_of_legible (h : s.Legible t step) (r : Revision) :
    ∃ state t', s.check step r t = (.ok state, t') ∧ FileTree.Extends t' t := by
  rcases h with hn | ⟨l, text, ht⟩
  · exact ⟨_, t, check_nothing hn r, .refl t⟩
  · refine ⟨_, _, check_text ht r, ?_⟩
    split
    · exact .refl t
    · exact FileTree.extends_erase t l

/-- A look at a proof adds nothing to the files. -/
theorem extends_check (s : ProofStore) (step : String) (r : Revision) (t : FileTree) :
    FileTree.Extends (s.check step r t).2 t := by
  by_cases h : s.Legible t step
  · obtain ⟨state, t', hc, hx⟩ := check_of_legible h r
    rw [hc]
    exact hx
  · obtain ⟨i, hc⟩ := check_of_not_legible h r
    rw [hc]
    exact .refl t

/-- What is legible can be deleted. -/
theorem remove_of_legible (h : s.Legible t step) : ∃ b t', s.remove step t = (.ok b, t') := by
  rcases h with hn | ⟨l, text, bytes, hb, -⟩
  · exact ⟨false, t, remove_of_not_exists <| by rw [FileTree.exists?, FileTree.stat?, hn]; rfl⟩
  · exact ⟨true, _, remove_of_find? hb⟩

/-- An answer to what a step's proof is worth at a revision, and the files it leaves, are what the
contents of its file make them. -/
structure Judged (s : ProofStore) (step : String) (r : Revision) (t : FileTree)
    (answer : Except Failure ProofState) (t' : FileTree) : Prop where
  missing : answer = .ok .missing ↔ t.find? (s.pathFor step) = none
  current : ∀ p, answer = .ok (.current p) ↔
    ∃ l text, s.HoldsText t step l text ∧ ProofToken.decode text = .ok p ∧ p.commit = r.id
  stale : (∃ stored, answer = .ok (.stale stored)) ↔
    ∃ l text, s.HoldsText t step l text ∧ ∀ p, ProofToken.decode text = .ok p → p.commit ≠ r.id
  error : (∃ e, answer = .error e) ↔ ¬ s.Legible t step
  /-- A stale proof is deleted. -/
  deleted : ∀ stored, answer = .ok (.stale stored) →
    ∃ l text, s.HoldsText t step l text ∧ t' = t.erase l
  /-- Nothing else changes. -/
  kept : (∀ stored, answer ≠ .ok (.stale stored)) → t' = t
  /-- What a second look comes to. -/
  again : s.check step r t' = (answer.map ProofState.next, t')

theorem judged_nothing (hn : t.find? (s.pathFor step) = none) (r : Revision) :
    s.Judged step r t (.ok .missing) t :=
  have none_held : ∀ l text, ¬ s.HoldsText t step l text := by
    rintro l text ⟨b, hb, -⟩
    rw [hn] at hb; cases hb
  { missing := iff_of_true rfl hn
    current := fun _ => iff_of_false nofun fun ⟨_, _, ht, _⟩ => none_held _ _ ht
    stale := iff_of_false nofun fun ⟨_, _, ht, _⟩ => none_held _ _ ht
    error := iff_of_false nofun fun h => h (.inl hn)
    deleted := nofun
    kept := fun _ => rfl
    again := check_nothing hn r }

theorem judged_current (ht : s.HoldsText t step l text) {p : ProofToken}
    (hw : worth r text = .current p) : s.Judged step r t (.ok (.current p)) t where
  missing := iff_of_false nofun fun hn => by
    obtain ⟨b, hb, -⟩ := ht
    rw [hn] at hb; cases hb
  current q := by
    constructor
    · intro h
      cases h
      exact ⟨l, text, ht, worth_eq_current.mp hw⟩
    · rintro ⟨l', text', ht', hd⟩
      obtain ⟨-, rfl⟩ := ht.unique ht'
      rw [← hw, worth_eq_current.mpr hd]
  stale := iff_of_false nofun fun ⟨_, _, ht', hne⟩ => by
    obtain ⟨-, rfl⟩ := ht.unique ht'
    obtain ⟨hd, hc⟩ := worth_eq_current.mp hw
    exact hne p hd hc
  error := iff_of_false nofun fun h => h (.inr ⟨l, text, ht⟩)
  deleted := nofun
  kept _ := rfl
  again := by rw [check_text ht, hw]; rfl

theorem judged_stale (ht : s.HoldsText t step l text) {stored : String}
    (hw : worth r text = .stale stored) : s.Judged step r t (.ok (.stale stored)) (t.erase l) where
  missing := iff_of_false nofun fun hn => by
    obtain ⟨b, hb, -⟩ := ht
    rw [hn] at hb; cases hb
  current q := iff_of_false nofun fun ⟨_, _, ht', hd⟩ => by
    obtain ⟨-, rfl⟩ := ht.unique ht'
    rw [worth_eq_current.mpr hd] at hw
    cases hw
  stale := iff_of_true ⟨_, rfl⟩ ⟨l, text, ht, fun p hd hc => by
    rw [worth_eq_current.mpr ⟨hd, hc⟩] at hw
    cases hw⟩
  error := iff_of_false nofun fun h => h (.inr ⟨l, text, ht⟩)
  deleted _ _ := ⟨l, text, ht, rfl⟩
  kept h := absurd rfl (h stored)
  again := by
    obtain ⟨b, hb, -⟩ := ht
    exact check_nothing (FileTree.find?_erase hb) r

theorem judged (s : ProofStore) (step : String) (r : Revision) (t : FileTree) :
    s.Judged step r t (s.check step r t).1 (s.check step r t).2 := by
  by_cases hl : s.Legible t step
  · rcases hl with hn | ⟨l, text, ht⟩
    · rw [check_nothing hn]
      exact judged_nothing hn r
    · rw [check_text ht]
      rcases worth_cases r text with ⟨p, hw⟩ | ⟨stored, hw⟩ <;> rw [hw]
      · exact judged_current ht hw
      · exact judged_stale ht hw
  · obtain ⟨i, hc⟩ := check_of_not_legible hl r
    rw [hc]
    exact {
      missing := iff_of_false nofun fun hn => hl (.inl hn)
      current := fun _ => iff_of_false nofun fun ⟨l, text, ht, _⟩ => hl (.inr ⟨l, text, ht⟩)
      stale := iff_of_false nofun fun ⟨l, text, ht, _⟩ => hl (.inr ⟨l, text, ht⟩)
      error := iff_of_true ⟨_, rfl⟩ hl
      deleted := nofun
      kept := fun _ => rfl
      again := hc }

end Readiness.ProofStore

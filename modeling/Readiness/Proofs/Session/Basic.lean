import Readiness.Proofs.Workspace.Verify
import Readiness.Proofs.Workspace.Status

/-!
# Session — commands one after the other

A session is a sequence of commands on one workspace.  Between commands, and only then, the work
tree is edited and HEAD moves; whatever a command sees of the world beside the files is its
`Occasion`.

* `Session`: the commands in their order, each with the files it was given.
* `Moment.AllPass`, `Moment.Passes`: a command was a verification in which every check passed, and
  one that was completed besides.
* `Act.stored_after`: a proof comes from such a verification or was there before.
-/

namespace Readiness

/-- What a verification sees of the world beside the files. -/
structure Occasion (σ : Type) where
  stack : Stack
  vcs : Vcs
  host : Host σ
  inner : σ
  stamp : Stamp

/-- A command on the proofs of a workspace. -/
inductive Act (σ : Type) where
  | verify (o : Occasion σ) (step : String)
  | status (vcs : Vcs)
  | reset (step : Option String)

/-- A command and the files it was given. -/
structure Moment (σ : Type) where
  files : FileTree
  act : Act σ

variable {σ : Type}

/-- The workspace as it is found on an occasion: its stack is detected anew. -/
def Workspace.during (w : Workspace) (o : Occasion σ) : Workspace := { w with stack := o.stack }

/-- The answer of a verification and what it leaves. -/
def Occasion.verify (o : Occasion σ) (w : Workspace) (step : String) (t : FileTree) :
    Except Failure (StepPlan × StepRun) × Scene σ :=
  (w.during o).verify o.vcs o.host step o.stamp ⟨o.inner, t⟩

/-- The files after a command. -/
def Act.after (w : Workspace) (t : FileTree) : Act σ → FileTree
  | .verify o step => (o.verify w step t).2.files
  | .status vcs => (w.proofStates vcs t).2
  | .reset step => (w.reset step t).2

/-- The commands so far and the files now, from the files `start` on.  `Edit` is what may happen to
the files between commands. -/
inductive Session (w : Workspace) (Edit : FileTree → FileTree → Prop) (start : FileTree) :
    List (Moment σ) → FileTree → Prop
  | start : Session w Edit start [] start
  | act {ms : List (Moment σ)} {t : FileTree} (a : Act σ) : Session w Edit start ms t →
      Session w Edit start (ms ++ [⟨t, a⟩]) (a.after w t)
  | edit {ms : List (Moment σ)} {t t' : FileTree} : Session w Edit start ms t → Edit t t' →
      Session w Edit start ms t'

/-- An edit that touches no proof. -/
def ProofStore.Spares (s : ProofStore) (t t' : FileTree) : Prop :=
  ∀ step, t'.get? (s.place step) = t.get? (s.place step)

/-- An edit that touches neither a proof nor the directory they are in. -/
structure ProofStore.LeavesAlone (s : ProofStore) (t t' : FileTree) : Prop where
  spares : s.Spares t t'
  isDirectory : t.isDirectory s.dir = true → t'.isDirectory s.dir = true

theorem ProofStore.Orderly.of_leavesAlone {s : ProofStore} {t t' : FileTree} (ho : s.Orderly t)
    (he : s.LeavesAlone t t') : s.Orderly t' :=
  ho.of_fewer he.isDirectory fun {a b} h => by rwa [he.spares a] at h

theorem ProofStore.Free.of_leavesAlone {s : ProofStore} {t t' : FileTree} (hf : s.Free t)
    (he : s.LeavesAlone t t') : s.Free t' :=
  ⟨hf.ready.imp_left he.isDirectory, fun a => by rw [he.spares]; exact hf.ne a⟩

namespace Moment

/-- The command was a verification of the step while HEAD was at the commit, and every check of the
step's plan was answered with a pass. -/
def AllPass (w : Workspace) (m : Moment σ) (step commit : String) : Prop :=
  ∃ o, m.act = .verify o step ∧ (∃ r, o.vcs.head = .ok r ∧ r.id = commit) ∧
    (w.during o).AllPass o.vcs o.host step ⟨o.inner, m.files⟩

/-- The command was a verification that ended in a fault of the file system. -/
def Broken (w : Workspace) (m : Moment σ) : Prop :=
  ∃ o step i, m.act = .verify o step ∧ (o.verify w step m.files).1 = .error (.io i)

/-- The command was a verification of the step while HEAD was at the commit; it was completed, and
every check of the step's plan was answered with a pass. -/
def Passes (w : Workspace) (m : Moment σ) (step commit : String) : Prop :=
  ∃ o, m.act = .verify o step ∧ (∃ r, o.vcs.head = .ok r ∧ r.id = commit) ∧
    (w.during o).Passed o.vcs o.host step o.stamp ⟨o.inner, m.files⟩

theorem passes_verify {w : Workspace} {t : FileTree} {o : Occasion σ} {b step commit : String} :
    Passes w ⟨t, .verify o b⟩ step commit ↔ b = step ∧ (∃ r, o.vcs.head = .ok r ∧ r.id = commit) ∧
      (w.during o).Passed o.vcs o.host b o.stamp ⟨o.inner, t⟩ := by
  constructor
  · rintro ⟨o', h, hr, hp⟩
    cases h
    exact ⟨rfl, hr, hp⟩
  · rintro ⟨rfl, hr, hp⟩
    exact ⟨o, rfl, hr, hp⟩

theorem passes_iff {w : Workspace} {m : Moment σ} {step commit : String} :
    m.Passes w step commit ↔ m.AllPass w step commit ∧ ¬ m.Broken w := by
  constructor
  · rintro ⟨o, ha, hr, hp⟩
    obtain ⟨hall, hio⟩ := Workspace.passed_iff_allPass.mp hp
    refine ⟨⟨o, ha, hr, hall⟩, ?_⟩
    rintro ⟨o', step', i, ha', hi⟩
    cases ha.symm.trans ha'
    exact hio i hi
  · rintro ⟨⟨o, ha, hr, hall⟩, hb⟩
    exact ⟨o, ha, hr, Workspace.passed_iff_allPass.mpr ⟨hall, fun i hi => hb ⟨o, step, i, ha, hi⟩⟩⟩

end Moment

/-! ### What a command does to the files -/

variable {w : Workspace} {t t' : FileTree}

/-- A proof that is there after a command was there before, or the command was a verification in
which every check passed. -/
theorem Act.stored_after (hv : w.rulebook.validate = .ok ()) (a : Act σ) {step : String}
    {p : ProofToken} (h : w.proofs.Stored (a.after w t) step p) :
    w.proofs.Stored t step p ∨ Moment.Passes w ⟨t, a⟩ step p.commit := by
  cases a with
  | verify o b =>
      rcases Workspace.stored_verify (w := w.during o) hv h with h | ⟨rfl, hp, hr⟩
      · exact .inl h
      · exact .inr ⟨o, rfl, hr, hp⟩
  | status vcs => exact .inl (h.of_loses (w.proofStates_loses vcs t))
  | reset b => exact .inl (h.of_loses (w.reset_loses b t))

/-! ### A small workspace -/

namespace Session.Small

/-- A host that is at hand and answers nothing. -/
def host : Host Unit := ⟨fun s => (true, s), fun _ s => (.error (.ofCause "offline"), s)⟩

def revision : Revision := ⟨"c0", "c0"⟩

def vcs : Vcs := ⟨.ok revision, none, fun _ => .ok [], fun _ => true⟩

def occasion : Occasion Unit := ⟨.unknown, vcs, host, (), ⟨"t", "t", "n"⟩⟩

def stepDef (name : String) : StepDef :=
  ⟨name, none, none, false, [⟨"Remote configured", none, .gitRemote "origin"⟩]⟩

/-- Two steps, the first of which gates the second. -/
def workspace : Workspace :=
  ⟨"/", ⟨.standard, [stepDef "a", stepDef "b"]⟩, ⟨"/p"⟩, .unknown⟩

/-- An empty proof directory. -/
def start : FileTree := ⟨[(["p"], .directory)]⟩

/-- The files after the first step was verified. -/
def between : FileTree := (Act.verify occasion "a").after workspace start

/-- The files after both steps were verified. -/
def done : FileTree := (Act.verify occasion "b").after workspace between

def moments : List (Moment Unit) :=
  [⟨start, .verify occasion "a"⟩, ⟨between, .verify occasion "b"⟩]

theorem session (Edit : FileTree → FileTree → Prop) :
    Session workspace Edit start moments done := .act _ (.act _ .start)

theorem validate_rulebook : workspace.rulebook.validate = .ok () := by rfl

theorem start_none (a : String) : start.get? (workspace.proofs.place a) = none := by
  have hh : workspace.proofs.home = ["p"] := by decide
  rw [ProofStore.place, hh]
  simp [FileTree.get?, start]

end Session.Small

end Readiness

import Readiness.Proofs.CommandLine.Verify
import Readiness.Proofs.Proof.Clearing
import Readiness.Proofs.Workspace.Footprint

/-!
# CommandLine — the footprint of the commands

What each command but `init` may do to the files, location by location.

* `files_run`, `files_of_not_opened`: the files a command leaves; without a workspace these are the
  files it found.
* `files_status`, `files_reset`, `files_verify`: in a workspace they are what the workspace's own
  command leaves; `status_loses`, `reset_loses`, `reset_all`, `verify_change`: so they differ from
  those found in proofs, and in what the proof directory is furnished with.
* `outside_iff`: no file outside the proof directory changes.
* `run_footprint`: each command changes no more than it is there for, and `reset` without a step
  deletes every proof file and says how many.
-/

namespace Readiness

open FileTree (LosesFiles)

/-! ### The proof directory of a workspace -/

theorem Path.join_ne_empty {base p : String} (h : base ≠ "") : join base p ≠ "" := by
  rw [join]
  split
  · rename_i ha
    rintro rfl
    cases ha
  · split <;> simp [h]

theorem Workspace.dir_ne_empty {t : FileTree} {cwd : Location} {dir : String} {w : Workspace}
    (h : openAt t cwd dir = .ok w) : w.proofs.dir ≠ "" := by
  have hroot : ∀ names, Path.ofNames names ≠ "" := fun names => by simp [Path.ofNames]
  rw [openAt, Repository.discover] at h
  split at h
  · cases h
  · rename_i root hd
    split at hd
    · split at hd
      · split at hd
        · cases hd
        · cases hd
          rw [load] at h
          cases hl : Rulebook.load t (Path.ofNames _) with
          | error f => rw [hl] at h; cases h
          | ok r =>
              rw [hl] at h
              cases h
              exact Path.join_ne_empty (hroot _)
      · cases hd
    · cases hd

namespace CommandLine

variable {σ : Type} {e : Surroundings} {host : Host σ} {json : Bool} {dir : String} {s : Scene σ}
  {w : Workspace} {t t' : FileTree}

/-! ### The files that are left -/

theorem files_run (e : Surroundings) (host : Host σ) (i : Invocation) (s : Scene σ) :
    (run e host i s).2 = (carryOut e host i s).2 := by
  rw [run]
  generalize carryOut e host i s = x
  obtain ⟨_ | _, _⟩ := x <;> rfl

section

-- what these come to is said by lemmas
attribute [local irreducible] Workspace.verify Workspace.proofStates Workspace.reset

/-- Without a workspace no command but `init` touches the files. -/
theorem files_of_not_opened {f : Failure} (ho : Workspace.openAt s.files e.cwd dir = .error f)
    {c : Command} (hc : ∀ force, c ≠ .init force) :
    (run e host ⟨json, dir, c⟩ s).2.files = s.files := by
  rw [files_run]
  cases c with
  | init force => exact absurd rfl (hc force)
  | verify step => simp only [carryOut, verify, ho]
  | status => simp only [carryOut, locally, status, ho]
  | steps => rfl
  | reset step => simp only [carryOut, locally, reset, ho]
  | merge number method => simp only [carryOut, merge, ho]

theorem files_steps : (run e host ⟨json, dir, .steps⟩ s).2.files = s.files := by
  rw [files_run]
  rfl

theorem files_merge (number : Nat) (method : MergeMethod) :
    (run e host ⟨json, dir, .merge number method⟩ s).2.files = s.files := by
  rw [files_run]
  simp only [carryOut, merge]
  split
  · rfl
  · generalize host.isAvailable s.inner = x
    obtain ⟨_ | _, inner⟩ := x <;> rfl

variable (host json) (ho : Workspace.openAt s.files e.cwd dir = .ok w)

include ho

theorem files_status : (run e host ⟨json, dir, .status⟩ s).2.files =
    (w.proofStates (Vcs.ofTree s.files e.graph w.root) s.files).2 := by
  rw [files_run]
  simp only [carryOut, locally, status, ho]
  cases hh : (Vcs.ofTree s.files e.graph w.root).head with
  | error f =>
      unfold Workspace.proofStates
      rw [hh]
  | ok r =>
      dsimp only
      generalize w.proofStates (Vcs.ofTree s.files e.graph w.root) s.files = x
      obtain ⟨_ | _, _⟩ := x <;> rfl

theorem files_verify (step : String) : (run e host ⟨json, dir, .verify step⟩ s).2.files =
    (w.verify (Vcs.ofTree s.files e.graph w.root) host step e.stamp s).2.files := by
  rw [files_run]
  simp only [carryOut, verify, ho]
  generalize w.verify (Vcs.ofTree s.files e.graph w.root) host step e.stamp s = x
  obtain ⟨_ | ⟨plan, r⟩, s'⟩ := x
  · rfl
  · dsimp only
    split <;> rfl

theorem files_reset (step : Option String) : (run e host ⟨json, dir, .reset step⟩ s).2.files =
    (w.reset step s.files).2 := by
  rw [files_run]
  simp only [carryOut, locally, reset, ho]
  generalize w.reset step s.files = x
  obtain ⟨_ | _, _⟩ := x <;> rfl

/-- What `reset` says of a reset. -/
theorem reply_reset (step : Option String) : (run e host ⟨json, dir, .reset step⟩ s).1 =
    match (w.reset step s.files).1 with
    | .error f => failed e f.toTrouble
    | .ok n => succeeded ((resetNotice step n).render (layout e json)) := by
  simp only [run, carryOut, locally, reset, ho]
  generalize w.reset step s.files = x
  obtain ⟨_ | _, _⟩ := x <;> rfl

end

/-! ### Outside the proof directory -/

theorem outside_of_loses {P : Location → Prop} (hl : LosesFiles P t t')
    (hP : ∀ l, P l → w.proofs.home <+: l) {l : Location} (hn : ¬ w.proofs.home <+: l) :
    t'.get? l = t.get? l :=
  (hl l).resolve_right fun h => hn (hP l h.1)

theorem outside_of_gone {gone : List String} (hg : w.proofs.Gone gone t t') {l : Location}
    (hn : ¬ w.proofs.home <+: l) : t'.get? l = t.get? l := by
  rw [hg l, if_neg]
  intro hl
  obtain ⟨a, -, rfl⟩ := List.mem_map.mp hl
  exact hn (List.prefix_append _ _)

theorem outside_of_change {vcs : Vcs} {step : String} {stamp : Stamp} {l : Location}
    {x x' : Option Entry} (h : w.Change vcs host step stamp s l x x')
    (hn : ¬ w.proofs.home <+: l) (bytes : ByteArray) :
    x' = some (.file bytes) ↔ x = some (.file bytes) := by
  cases h with
  | same => exact Iff.rfl
  | own _ hl => exact absurd (hl ▸ List.prefix_append _ _) hn
  | gate _ ho =>
      obtain ⟨a, -, hl, -⟩ := ho
      exact absurd (hl ▸ List.prefix_append _ _) hn
  | made _ hf =>
      rcases hf with ⟨-, rfl⟩ | ⟨hl, -⟩
      · simp
      · exact absurd (hl ▸ List.prefix_append _ _) hn

/-! ### The footprint -/

section Opened

variable (host : Host σ) (json : Bool) (ho : Workspace.openAt s.files e.cwd dir = .ok w)

include ho

/-- `status` deletes proof files of steps of the rulebook that are not current. -/
theorem status_loses : LosesFiles
    (fun l => ∃ r, (Vcs.ofTree s.files e.graph w.root).head = .ok r ∧
      w.proofs.Outdated s.files r.id w.rulebook.names l)
    s.files (run e host ⟨json, dir, .status⟩ s).2.files := by
  rw [files_status host json ho]
  exact Workspace.proofStates_outdated (validate_of_openAt ho) _ s.files

/-- `reset` with a step deletes its proof file, if the rulebook has the step. -/
theorem reset_loses (a : String) :
    LosesFiles (fun l => a ∈ w.rulebook.names ∧ l = w.proofs.place a) s.files
      (run e host ⟨json, dir, .reset (some a)⟩ s).2.files := by
  rw [files_reset host json ho]
  exact Workspace.reset_own (validate_of_openAt ho) a s.files

/-- What a `reset` of all proofs comes to.  Where a regular file stands in the place of the proof
directory nothing changes; else every proof file goes that its path leads to, and the reply says how
many. -/
theorem reset_all (hf : w.proofs.HoldsFiles s.files) :
    let reply := (run e host ⟨json, dir, .reset none⟩ s).1
    let left := (run e host ⟨json, dir, .reset none⟩ s).2.files
    s.files.isFile w.proofs.dir = true ∧
        reply = failed e (Failure.toTrouble (.io .notDirectory)) ∧ left = s.files ∨
      ∃ gone, gone.Nodup ∧ (∀ a, a ∈ gone ↔ a ≠ "" ∧ w.proofs.Reaches s.files a) ∧
        w.proofs.Gone gone s.files left ∧
        reply = succeeded ((resetNotice none gone.length).render (layout e json)) := by
  intro reply left
  have hreply := reply_reset host json ho none
  have hleft := files_reset host json ho none
  have hreset : w.reset none s.files = w.proofs.clear s.files := rfl
  rcases ProofStore.clear_gone (Workspace.dir_ne_empty ho) hf with
    ⟨hfile, hc⟩ | ⟨gone, t', hc, hnd, hm, hg⟩
  · rw [hreset, hc] at hreply hleft
    exact .inl ⟨hfile, hreply, hleft⟩
  · rw [hreset, hc] at hreply hleft
    refine .inr ⟨gone, hnd, hm, ?_, hreply⟩
    rw [show left = t' from hleft]
    exact hg

theorem verify_change (step : String) (l : Location) :
    w.Change (Vcs.ofTree s.files e.graph w.root) host step e.stamp s l (s.files.get? l)
      ((run e host ⟨json, dir, .verify step⟩ s).2.files.get? l) := by
  rw [files_verify host json ho]
  exact Workspace.verify_changes (validate_of_openAt ho) _ host step e.stamp s l

/-- No command but `init` changes a file outside the proof directory. -/
theorem outside_iff (hf : w.proofs.HoldsFiles s.files) {c : Command}
    (hc : ∀ force, c ≠ .init force) {l : Location} (hn : ¬ w.proofs.home <+: l)
    (bytes : ByteArray) :
    (run e host ⟨json, dir, c⟩ s).2.files.get? l = some (.file bytes) ↔
      s.files.get? l = some (.file bytes) := by
  cases c with
  | init force => exact absurd rfl (hc force)
  | steps => rw [files_steps]
  | merge number method => rw [files_merge]
  | status =>
      rw [outside_of_loses (status_loses host json ho) ?_ hn]
      rintro k ⟨r, -, a, -, rfl, -⟩
      exact List.prefix_append _ _
  | reset step =>
      cases step with
      | none =>
          rcases reset_all host json ho hf with ⟨-, -, h⟩ | ⟨gone, -, -, hg, -⟩
          · rw [h]
          · rw [outside_of_gone hg hn]
      | some a =>
          rw [outside_of_loses (reset_loses host json ho a) ?_ hn]
          rintro k ⟨-, rfl⟩
          exact List.prefix_append _ _
  | verify step => exact outside_of_change (verify_change host json ho step l) hn bytes

end Opened

/-- Every command but `init` changes no more than it is there for.  Without a workspace, and by
`steps` and `merge` in any case, the files stay as they are.  In a workspace whose proof directory
holds regular files only, `status` deletes proof files of steps of the rulebook that are not
current; `reset` with a step deletes the proof file of that step, if the rulebook has it; `reset`
without one deletes every proof file its path leads to, and says how many; `verify` changes what
`Workspace.Change` says.  No file outside the proof directory changes. -/
theorem run_footprint (e : Surroundings) (host : Host σ) (json : Bool) (dir : String)
    (s : Scene σ) :
    let reply := fun c => (run e host ⟨json, dir, c⟩ s).1
    let left := fun c => (run e host ⟨json, dir, c⟩ s).2.files
    left .steps = s.files ∧ (∀ number method, left (.merge number method) = s.files) ∧
    (∀ f, Workspace.openAt s.files e.cwd dir = .error f →
      ∀ c, (∀ force, c ≠ .init force) → left c = s.files) ∧
    ∀ w, Workspace.openAt s.files e.cwd dir = .ok w → w.proofs.HoldsFiles s.files →
      let vcs := Vcs.ofTree s.files e.graph w.root
      LosesFiles
        (fun l => ∃ r, vcs.head = .ok r ∧ w.proofs.Outdated s.files r.id w.rulebook.names l)
        s.files (left .status) ∧
      (∀ a, LosesFiles (fun l => a ∈ w.rulebook.names ∧ l = w.proofs.place a) s.files
        (left (.reset (some a)))) ∧
      (s.files.isFile w.proofs.dir = true ∧
          reply (.reset none) = failed e (Failure.toTrouble (.io .notDirectory)) ∧
          left (.reset none) = s.files ∨
        ∃ gone, gone.Nodup ∧ (∀ a, a ∈ gone ↔ a ≠ "" ∧ w.proofs.Reaches s.files a) ∧
          w.proofs.Gone gone s.files (left (.reset none)) ∧
          reply (.reset none) =
            succeeded ((resetNotice none gone.length).render (layout e json))) ∧
      (∀ step l, w.Change vcs host step e.stamp s l (s.files.get? l)
        ((left (.verify step)).get? l)) ∧
      ∀ c, (∀ force, c ≠ .init force) → ∀ l, ¬ w.proofs.home <+: l → ∀ bytes,
        (left c).get? l = some (.file bytes) ↔ s.files.get? l = some (.file bytes) := by
  intro reply left
  refine ⟨files_steps, files_merge, fun f ho c hc => files_of_not_opened ho hc, ?_⟩
  intro w ho hf vcs
  exact ⟨status_loses host json ho, reset_loses host json ho, reset_all host json ho hf,
    verify_change host json ho, fun c hc l hn bytes => outside_iff host json ho hf hc hn bytes⟩

end CommandLine

/-! ### Small runs -/

namespace Workspace.Small

/-- A work tree without a rulebook, and a file that is named like a proof. -/
def checkout : FileTree :=
  ⟨[([".git"], .directory), ([".git", "HEAD"], .file "ref: refs/heads/main\n".toUTF8),
    ([".git", "objects"], .directory), ([".git", "refs"], .directory),
    ([".shipcheck"], .directory), ([".shipcheck", "proofs"], .directory),
    ([".shipcheck", "proofs", "verify-x.proof"], .file .empty)]⟩

def opened : Workspace := ⟨"/", .standard, proofsOf "/" .standard, .unknown⟩

def surroundings : Surroundings := ⟨[], .empty, false, stamp⟩

theorem holdsFiles_checkout : opened.proofs.HoldsFiles checkout := by
  refine ProofStore.holdsFiles_of_children ?_
  rw [show checkout.children opened.proofs.home = ["verify-x.proof"] by decide +kernel,
    List.forall_mem_singleton]
  exact ⟨by decide +kernel, .empty, by decide +kernel⟩

end Workspace.Small

namespace CommandLine

open Workspace.Small (checkout opened)

/-- Verifying a step whose name leads out of the proof directory leaves the file there alone. -/
theorem run_footprint_small :
    Workspace.openAt checkout [] "/" = .ok opened ∧ opened.proofs.HoldsFiles checkout ∧
      (run Workspace.Small.surroundings Workspace.Small.host
          ⟨false, "/", .verify "/../../.git/HEAD"⟩ ⟨(), checkout⟩).2.files.get? [".git", "HEAD"] =
        some (.file "ref: refs/heads/main\n".toUTF8) := by
  have ho : Workspace.openAt checkout [] "/" = .ok opened := by decide +kernel
  have hn : ¬ opened.proofs.home <+: [".git", "HEAD"] := by decide +kernel
  have hf := Workspace.Small.holdsFiles_checkout
  obtain ⟨-, -, -, h⟩ := run_footprint Workspace.Small.surroundings Workspace.Small.host false "/"
    ⟨(), checkout⟩
  obtain ⟨-, -, -, -, houtside⟩ := h opened ho hf
  exact ⟨ho, hf, (houtside (.verify _) nofun _ hn _).mpr (by decide +kernel)⟩

end CommandLine

namespace Workspace.Small

/-- The path of `/p`, with this many slashes. -/
def slashed (n : Nat) : String := String.ofList (List.replicate n '/' ++ ['p'])

/-- A workspace whose proofs have longer paths than the file system follows.  The path of their
directory is short enough. -/
def winding : Workspace := { workspace with proofs := ⟨slashed 4090⟩ }

/-- The first step has a proof file. -/
def proven : FileTree := ⟨[(["p"], .directory), (["p", "verify-a.proof"], .file .empty)]⟩

/-- A workspace whose proof directory is reached through the place of a proof. -/
def looped : Workspace := { workspace with proofs := ⟨"/p/verify-a.proof/.."⟩ }

theorem segments_slashed (n : Nat) : Path.segments (slashed n) = List.replicate n "" ++ ["p"] := by
  rw [Path.segments, slashed, Text.split, String.toList_ofList]
  induction n with
  | zero => rfl
  | succ n ih =>
      rw [List.replicate_succ, List.cons_append, Text.pieces_cons_self, List.map_cons, ih]
      rfl

theorem utf8ByteSize_slashed (n : Nat) : (slashed n).utf8ByteSize = n + 1 := by
  have hs : FileTree.span (List.replicate n "") = n := by
    induction n with
    | zero => rfl
    | succ n ih =>
        rw [List.replicate_succ, FileTree.span, ih, String.utf8ByteSize_empty]
        omega
  have h := FileTree.span_segments (slashed n)
  rw [segments_slashed, FileTree.span_append, hs, show FileTree.span ["p"] = 2 by decide] at h
  omega

theorem isUsable_slashed {n : Nat} (h : n < FileTree.pathMax) : FileTree.IsUsable (slashed n) := by
  refine ⟨fun hm => ?_, fun he => ?_, by rw [utf8ByteSize_slashed]; exact h⟩
  · rw [slashed, String.toList_ofList, List.mem_append] at hm
    rcases hm with hm | hm
    · cases List.eq_of_mem_replicate hm
    · cases List.mem_singleton.mp hm
  · have := utf8ByteSize_slashed n
    rw [he, String.utf8ByteSize_empty] at this
    omega

theorem walk_slashed (n : Nat) :
    proven.walk [] (Path.segments (slashed n)) = .ok (.found ["p"] .directory) := by
  have hb : (List.replicate n "").all (· == "") = true :=
    List.all_eq_true.mpr fun s hs => beq_iff_eq.mpr (List.eq_of_mem_replicate hs)
  rw [segments_slashed, FileTree.walk_append (FileTree.walk_blank hb proven [])]
  rfl

theorem isDirectory_slashed {n : Nat} (h : n < FileTree.pathMax) :
    proven.isDirectory (slashed n) = true :=
  FileTree.isDirectory_iff.mpr ⟨isUsable_slashed h, FileTree.leads_of_walk (walk_slashed n)⟩

theorem home_winding : winding.proofs.home = ["p"] :=
  (FileTree.walk_place (walk_slashed 4090)).1.symm

theorem holdsFiles_winding : winding.proofs.HoldsFiles proven := by
  refine ProofStore.holdsFiles_of_children ?_
  rw [home_winding, show proven.children ["p"] = ["verify-a.proof"] by decide,
    List.forall_mem_singleton]
  exact ⟨by decide, .empty, by decide⟩

theorem not_reaches_winding (a : String) : ¬ winding.proofs.Reaches proven a := by
  rintro ⟨⟨⟨-, -, hlen⟩, -, -⟩, bytes, hb⟩
  obtain ⟨mid, hj⟩ := FileTree.join_eq_append winding.proofs.dir
  have hname := ProofFile.utf8ByteSize_ignore_le a
  rw [hj (holdsFiles_winding.no_slash hb), String.utf8ByteSize_append, String.utf8ByteSize_append,
    show winding.proofs.dir = slashed 4090 from rfl, utf8ByteSize_slashed, FileTree.pathMax] at hlen
  rw [show (".gitignore" : String).utf8ByteSize = 10 by decide] at hname
  omega

end Workspace.Small

namespace CommandLine

open Workspace.Small (winding looped proven workspace)

/-- Where the paths of proof files are too long, `reset` neither deletes nor counts them.  A
verification whose proof cannot be written has made the directory and its rule by then.  A regular
file in the place of the directory ends a `reset`. -/
theorem run_footprint_exceptions :
    let cleared := winding.reset none proven
    let verified := looped.verify Workspace.Small.vcs Workspace.Small.host "a" Workspace.Small.stamp
      ⟨(), .empty⟩
    (winding.proofs.HoldsFiles proven ∧ proven.isDirectory winding.proofs.dir = true ∧
      cleared.1 = .ok 0 ∧
      cleared.2.get? ["p", "verify-a.proof"] = some (.file .empty)) ∧
    (verified.1 = .error (.io .isDirectory) ∧
      verified.2.files.get? ["p"] = some .directory ∧
      verified.2.files.get? ["p", ".gitignore"] = some (.file ProofStore.ignoreRule.toUTF8)) ∧
    (workspace.reset none ⟨[(["p"], .file .empty)]⟩).1 = .error (.io .notDirectory) := by
  intro cleared verified
  have hd := Workspace.Small.isDirectory_slashed (n := 4090) (by decide)
  have hf := Workspace.Small.holdsFiles_winding
  refine ⟨⟨hf, hd, ?_⟩, ⟨by decide +kernel, by decide +kernel, by decide +kernel⟩,
    by decide +kernel⟩
  have hne : winding.proofs.dir ≠ "" := (FileTree.isDirectory_iff.mp hd).1.2.1
  have hr : cleared = winding.proofs.clear proven := rfl
  rcases ProofStore.clear_gone hne hf with ⟨hfile, -⟩ | ⟨gone, t', hc, -, hm, hg⟩
  · -- what is a directory is no regular file
    have hs : proven.stat? winding.proofs.dir = some .directory := beq_iff_eq.mp hd
    rw [FileTree.isFile, hs] at hfile
    cases hfile
  · obtain rfl : gone = [] :=
      List.eq_nil_iff_forall_not_mem.mpr fun a ha =>
        Workspace.Small.not_reaches_winding a ((hm a).mp ha).2
    rw [hr, hc]
    exact ⟨rfl, (hg _).trans (by decide)⟩

end CommandLine

end Readiness

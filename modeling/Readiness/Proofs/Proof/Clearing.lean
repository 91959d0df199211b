import Readiness.Proofs.Proof.Contents
import Readiness.Proofs.Proof.Directory

/-!
# Proof — deleting every proof

What `clear` takes away, and how many files it counts, in a directory that holds regular files
only.  The files may say anything, and the steps they are named for need not be well formed.

* `HoldsFiles`: the directory holds regular files only.
* `Reaches`: a step has a proof file, and its path leads there; `remove_of_reaches`,
  `remove_of_not_reaches`: what deleting it comes to.
* `Gone`, `removeEach_gone`: which files are gone after several have been deleted.
* `clear_gone`: every proof file is gone that its path leads to, and these are counted.
-/

namespace Readiness.ProofStore

variable {s : ProofStore} {t t' : FileTree} {a b : String}

/-- What stands right in the directory are regular files, under names that a file can have. -/
structure HoldsFiles (s : ProofStore) (t : FileTree) : Prop where
  isFile : ∀ {name e}, t.get? (s.home ++ [name]) = some e → ∃ bytes, e = .file bytes
  no_slash : ∀ {name e}, t.get? (s.home ++ [name]) = some e → '/' ∉ name.toList

theorem holdsFiles_of_children (h : ∀ name ∈ t.children s.home,
    '/' ∉ name.toList ∧ ∃ bytes, t.get? (s.home ++ [name]) = some (.file bytes)) :
    s.HoldsFiles t where
  isFile he := by
    obtain ⟨-, bytes, hb⟩ := h _ (FileTree.mem_children_iff.mpr ⟨_, he⟩)
    exact ⟨bytes, Option.some.inj (he.symm.trans hb)⟩
  no_slash he := (h _ (FileTree.mem_children_iff.mpr ⟨_, he⟩)).1

theorem HoldsFiles.ne_directory (hf : s.HoldsFiles t) (a : String) :
    t.get? (s.place a) ≠ some .directory := fun h => by
  obtain ⟨bytes, hb⟩ := hf.isFile h
  cases hb

theorem HoldsFiles.erase (hf : s.HoldsFiles t) (l : Location) : s.HoldsFiles (t.erase l) :=
  have hx := FileTree.extends_erase t l
  ⟨fun h => hf.isFile (hx.get? _ _ h), fun h => hf.no_slash (hx.get? _ _ h)⟩

/-! ### One proof -/

/-- The step has a proof file, and its path leads there. -/
def Reaches (s : ProofStore) (t : FileTree) (a : String) : Prop :=
  s.Opens t a ∧ ∃ bytes, t.get? (s.place a) = some (.file bytes)

theorem remove_of_reaches (ha : '/' ∉ a.toList) (h : s.Reaches t a) :
    s.remove a t = (.ok true, t.erase (s.place a)) := by
  obtain ⟨ho, bytes, hb⟩ := h
  have hf : t.find? (s.pathFor a) = (t.get? (s.place a)).map fun e => (s.place a, e) :=
    FileTree.find?_join (ProofFile.isSimple_name_of_no_slash ha) ho
  rw [hb] at hf
  exact remove_of_find? hf

theorem remove_of_not_reaches (ha : '/' ∉ a.toList) (hd : t.get? (s.place a) ≠ some .directory)
    (h : ¬ s.Reaches t a) : s.remove a t = (.ok false, t) := by
  have hs := ProofFile.isSimple_name_of_no_slash ha
  have hn : t.stat? (s.pathFor a) = none := by
    by_cases ho : s.Opens t a
    · have hg : t.stat? (s.pathFor a) = t.get? (s.place a) := FileTree.stat?_join hs ho
      rw [hg]
      cases he : t.get? (s.place a) with
      | none => rfl
      | some e =>
          cases e with
          | file bytes => exact absurd ⟨ho, bytes, he⟩ h
          | directory => exact absurd he hd
    · exact FileTree.stat?_join_of_not_opens hs ho
  exact remove_of_not_exists <| by rw [FileTree.exists?, hn]; rfl

/-- Once a proof is deleted, those of the other steps are reached as before. -/
theorem reaches_erase (hd : t.get? (s.place a) ≠ some .directory) :
    s.Reaches (t.erase (s.place a)) b ↔ s.Reaches t b ∧ b ≠ a := by
  have ho : s.Opens (t.erase (s.place a)) b ↔ s.Opens t b :=
    ⟨Opens.mono (FileTree.extends_erase t _).keepsDirectories,
      Opens.mono (FileTree.keepsDirectories_erase hd)⟩
  rw [Reaches, Reaches, ho, get?_erase_place]
  by_cases hb : b = a
  · simp [hb]
  · simp [hb]

/-! ### Several -/

/-- The proof files of these steps are gone, and nothing else has changed. -/
def Gone (s : ProofStore) (gone : List String) (t t' : FileTree) : Prop :=
  ∀ l, t'.get? l = if l ∈ gone.map s.place then none else t.get? l

theorem Gone.cons {gone : List String} (h : s.Gone gone (t.erase (s.place a)) t') :
    s.Gone (a :: gone) t t' := by
  intro l
  rw [h l, FileTree.get?_erase]
  by_cases hl : l = s.place a
  · simp [hl, place_ne_nil]
  · simp [hl]

/-- Of several proofs those are gone that are reached, and these are counted. -/
theorem removeEach_gone (n : Nat) {steps : List String} (hs : ∀ a ∈ steps, '/' ∉ a.toList)
    (hf : s.HoldsFiles t) :
    ∃ gone t', s.removeEach n steps t = (.ok (n + gone.length), t') ∧ gone.Nodup ∧
      (∀ a, a ∈ gone ↔ a ∈ steps ∧ s.Reaches t a) ∧ s.Gone gone t t' := by
  induction steps generalizing n t with
  | nil => exact ⟨[], t, rfl, List.nodup_nil, by simp, fun l => by simp⟩
  | cons b steps ih =>
      have hb := hs b List.mem_cons_self
      have hs := fun a ha => hs a (List.mem_cons_of_mem b ha)
      by_cases hr : s.Reaches t b
      · obtain ⟨gone, t', hk, hnd, hm, hg⟩ := ih (n + 1) hs (hf.erase (s.place b))
        have hm' : ∀ a, a ∈ gone ↔ a ∈ steps ∧ s.Reaches t a ∧ a ≠ b := fun a => by
          rw [hm, reaches_erase (hf.ne_directory b)]
        refine ⟨b :: gone, t', ?_, List.nodup_cons.mpr ⟨fun h => ((hm' b).mp h).2.2 rfl, hnd⟩,
          fun a => ?_, hg.cons⟩
        · rw [removeEach_of_remove (remove_of_reaches hb hr), hk, List.length_cons]
          exact congrArg (fun k => (Except.ok k, t')) (by omega)
        · rw [List.mem_cons, List.mem_cons, hm']
          by_cases hab : a = b
          · simp [hab, hr]
          · simp [hab]
      · obtain ⟨gone, t', hk, hnd, hm, hg⟩ := ih n hs hf
        refine ⟨gone, t', ?_, hnd, fun a => ?_, hg⟩
        · rw [removeEach_cons, remove_of_not_reaches hb (hf.ne_directory b) hr]
          exact hk
        · rw [hm, List.mem_cons]
          constructor
          · exact fun h => ⟨.inr h.1, h.2⟩
          · rintro ⟨rfl | ha, hra⟩
            · exact absurd hra hr
            · exact ⟨ha, hra⟩

/-! ### All of them -/

/-- A step whose file is reached has a directory. -/
theorem Reaches.isDirectory (hd : s.dir ≠ "") (ha : '/' ∉ a.toList) (h : s.Reaches t a) :
    t.isDirectory s.dir = true :=
  FileTree.isDirectory_iff.mpr ⟨FileTree.isUsable_of_join hd
    (ProofFile.isSimple_name_of_no_slash ha).no_slash h.1.usable, h.1.leads⟩

/-- What there is to list: nothing, a directory, or a regular file in its place. -/
theorem list_cases (s : ProofStore) (t : FileTree) :
    t.exists? s.dir = false ∧ s.list t = .ok [] ∨ t.isDirectory s.dir = true ∨
      t.isFile s.dir = true ∧ s.list t = .error (.io .notDirectory) := by
  cases hf : t.find? s.dir with
  | none =>
      have hx : t.exists? s.dir = false := by rw [FileTree.exists?, FileTree.stat?, hf]; rfl
      exact .inl ⟨hx, by rw [list, hx]; rfl⟩
  | some x =>
      obtain ⟨l, e⟩ := x
      have hst : t.stat? s.dir = some e := by rw [FileTree.stat?, hf]; rfl
      cases e with
      | directory => exact .inr (.inl (by rw [FileTree.isDirectory, hst]; rfl))
      | file bytes =>
          refine .inr (.inr ⟨by rw [FileTree.isFile, hst], ?_⟩)
          rw [list, FileTree.exists?, hst, FileTree.names, FileTree.find?_eq_some.mp hf]
          rfl

/-- Every proof file is deleted that its path leads to, and these are counted.  Where a regular
file stands in the place of the directory nothing changes, and the file system is to blame. -/
theorem clear_gone (hd : s.dir ≠ "") (hf : s.HoldsFiles t) :
    t.isFile s.dir = true ∧ s.clear t = (.error (.io .notDirectory), t) ∨
      ∃ gone t', s.clear t = (.ok gone.length, t') ∧ gone.Nodup ∧
        (∀ a, a ∈ gone ↔ a ≠ "" ∧ s.Reaches t a) ∧ s.Gone gone t t' := by
  have no_slash : ∀ {a e}, t.get? (s.place a) = some e → '/' ∉ a.toList := fun h =>
    (ProofFile.not_mem_name_iff (by decide)).mp (hf.no_slash h)
  rcases list_cases s t with ⟨hx, hl⟩ | hdir | ⟨hfile, hl⟩
  · refine .inr ⟨[], t, by rw [clear, hl]; rfl, List.nodup_nil, fun a => ?_, fun l => by simp⟩
    refine iff_of_false List.not_mem_nil ?_
    rintro ⟨-, hr⟩
    -- a file that is reached would be in a directory
    have hdir := hr.isDirectory hd (no_slash hr.2.choose_spec)
    rw [FileTree.isDirectory, beq_iff_eq] at hdir
    rw [FileTree.exists?, hdir] at hx
    cases hx
  · obtain ⟨steps, hl, hm⟩ := list_of_isDirectory hdir
    obtain ⟨gone, t', hk, hnd, hgone, hg⟩ := removeEach_gone 0
      (fun a ha => no_slash ((hm a).mp ha).2.choose_spec) hf
    refine .inr ⟨gone, t', ?_, hnd, fun a => ?_, hg⟩
    · rw [clear, hl]
      exact hk.trans (by rw [Nat.zero_add])
    · rw [hgone, hm, and_assoc, and_congr_right_iff]
      intro _
      refine and_iff_right_of_imp ?_
      rintro ⟨-, bytes, hb⟩
      exact ⟨_, hb⟩
  · exact .inl ⟨hfile, by rw [clear, hl]⟩

end Readiness.ProofStore

import Mathlib.Data.List.Nodup
import Readiness.Proof.FileName
import Readiness.Rulebook.Basic
import Readiness.Proofs.FileTree.Walk

/-!
# Proof — the names of proof files

* `ProofFile.name_injective`: two steps have two files.
* `ProofFile.step?_eq_some`: the step of a file name is the one whose file has this name.
* `ProofFile.names_exact`: the names are an exact code of the steps.
* `ProofFile.isSimple_name`: the file of a well-formed step name stands for itself in a path.
-/

namespace Readiness.ProofFile

theorem toList_name (step : String) :
    (name step).toList = start.toList ++ (step.toList ++ ('.' :: extension.toList)) := by
  rw [name, String.toList_append, String.toList_append, String.toList_append, List.append_assoc,
    List.append_assoc]
  rfl

/-- Two steps have two files. -/
theorem name_injective {s s' : String} (h : name s = name s') : s = s' := by
  have h := congrArg String.toList h
  rw [toList_name, toList_name, List.append_cancel_left_eq, List.append_cancel_right_eq] at h
  exact String.toList_inj.mp h

/-- The step of a file name is the one whose file has this name. -/
theorem step?_eq_some {n s : String} : step? n = some s ↔ n = name s ∧ s ≠ "" := by
  simp only [step?, Option.bind_eq_bind, Option.bind_eq_some_iff, Text.stripStart?_eq_some,
    Text.stripEnd?_eq_some]
  constructor
  · rintro ⟨_, rfl, _, rfl, r, rfl, h⟩
    split at h
    · cases h
    · cases h
      rename_i hr
      exact ⟨by simp [name, String.append_assoc], hr⟩
  · rintro ⟨rfl, hs⟩
    exact ⟨s ++ "." ++ extension, by simp [name, String.append_assoc], s ++ ".", rfl, s, rfl,
      if_neg hs⟩

/-- Files with different names are those of different steps. -/
theorem nodup_steps {fs : List String} (h : fs.Nodup) : (fs.filterMap step?).Nodup := by
  refine List.Nodup.filterMap (fun f g s hf hg => ?_) h
  rw [(step?_eq_some.mp hf).1, (step?_eq_some.mp hg).1]

theorem mem_steps {fs : List String} {s : String} :
    s ∈ fs.filterMap step? ↔ name s ∈ fs ∧ s ≠ "" := by
  rw [List.mem_filterMap]
  constructor
  · rintro ⟨f, hf, h⟩
    obtain ⟨rfl, hs⟩ := step?_eq_some.mp h
    exact ⟨hf, hs⟩
  · rintro ⟨hf, hs⟩
    exact ⟨name s, hf, step?_eq_some.mpr ⟨rfl, hs⟩⟩

theorem name_ne {s t : String} (ht : t.toList.head? ≠ some 'v') : name s ≠ t := by
  rintro rfl
  rw [toList_name] at ht
  exact ht rfl

/-- The ignore rule is no proof. -/
theorem name_ne_ignore (s : String) : name s ≠ ".gitignore" := name_ne (by decide)

/-- The names of proof files are an exact code of the steps.  A name is read as the one step it was
made of, and as none where there is no step; different files are read as different steps; and a step
may have in its own name what is put around it. -/
theorem names_exact :
    (∀ s, name s = "verify-" ++ s ++ ".proof") ∧
    (∀ s, s ≠ "" → step? (name s) = some s) ∧
    (∀ f s, step? f = some s → f = name s ∧ s ≠ "") ∧
    (∀ s t, name s = name t → s = t) ∧
    (∀ fs : List String, fs.Nodup → (fs.filterMap step?).Nodup ∧
      ∀ s, s ∈ fs.filterMap step? ↔ name s ∈ fs ∧ s ≠ "") ∧
    step? ".gitignore" = none ∧
    ∀ part ∈ ["verify-", ".proof", "."], ∀ a b,
      step? (name (a ++ part ++ b)) = some (a ++ part ++ b) := by
  have read : ∀ s, s ≠ "" → step? (name s) = some s := fun s hs => step?_eq_some.mpr ⟨rfl, hs⟩
  refine ⟨fun s => ?_, read, fun f s => step?_eq_some.mp, fun s t => name_injective,
    fun fs h => ⟨nodup_steps h, fun s => mem_steps⟩, ?_, fun part hp a b => read _ fun he => ?_⟩
  · rw [name, String.append_assoc]
    rfl
  · rw [Option.eq_none_iff_forall_ne_some]
    exact fun s h => name_ne_ignore s (step?_eq_some.mp h).1.symm
  · have hn : ∀ part ∈ ["verify-", ".proof", "."], part ≠ "" := by decide
    rw [String.append_eq_empty_iff, String.append_eq_empty_iff] at he
    exact hn part hp he.1.2

/-- A step that is called like a proof file and a bit more, and a file that is none though it begins
and ends like one. -/
theorem names_exact_nested :
    step? "verify-verify-a.proof..proof" = some "verify-a.proof." ∧
      name "verify-a.proof." = "verify-verify-a.proof..proof" ∧ step? "verify-.proof" = none := by
  obtain ⟨hname, hread, -, -, hlist, -, hpart⟩ := names_exact
  have hn : name "verify-a.proof." = "verify-verify-a.proof..proof" := hname _
  refine ⟨?_, hn, ?_⟩
  · rw [← hn]
    exact hpart ".proof" (by decide) "verify-a" "."
  · -- its step would be the empty text, which is read off no list of files
    have hempty := (hlist ["verify-.proof"] (by decide)).2
    rw [Option.eq_none_iff_forall_ne_some]
    intro s hs
    obtain ⟨hm, hne⟩ := (hempty s).mp (List.mem_filterMap.mpr ⟨_, List.mem_singleton.mpr rfl, hs⟩)
    have h : name s = name "" := (List.mem_singleton.mp hm).trans (hname "").symm
    exact hne (name_injective h)

/-- No proof file has a shorter name than the ignore rule's. -/
theorem utf8ByteSize_ignore_le (s : String) :
    (".gitignore" : String).utf8ByteSize ≤ (name s).utf8ByteSize := by
  rw [name, String.utf8ByteSize_append, String.utf8ByteSize_append, String.utf8ByteSize_append,
    show start.utf8ByteSize = 7 by decide, show extension.utf8ByteSize = 5 by decide,
    show (".gitignore" : String).utf8ByteSize = 10 by decide]
  omega

theorem mem_name {s : String} {c : Char} (hc : c ∈ (name s).toList) :
    c ∈ s.toList ∨ c ∈ (start ++ "." ++ extension).toList := by
  rw [toList_name, List.mem_append, List.mem_append] at hc
  rcases hc with hc | hc | hc
  · exact .inr (by simp [String.toList_append, hc])
  · exact .inl hc
  · refine .inr ?_
    rw [String.toList_append, String.toList_append, List.append_assoc, List.mem_append]
    exact .inr hc

/-- No character of a step name is a slash or a NUL. -/
theorem not_mem_of_isName {s : String} (h : Rulebook.isName s = true) {c : Char}
    (hc : Rulebook.isNameChar c = false) : c ∉ s.toList := by
  rw [Rulebook.isName, Bool.and_eq_true, List.all_eq_true] at h
  intro hm
  rw [h.2 c hm] at hc
  cases hc

theorem not_mem_name_iff {s : String} {c : Char} (hd : c ∉ (start ++ "." ++ extension).toList) :
    c ∉ (name s).toList ↔ c ∉ s.toList := by
  refine ⟨fun h hm => h ?_, fun h hm => (mem_name hm).elim h hd⟩
  rw [toList_name, List.mem_append, List.mem_append]
  exact .inr (.inl hm)

/-- The file of a step whose name has no slash stands for itself in a path. -/
theorem isSimple_name_of_no_slash {s : String} (h : '/' ∉ s.toList) :
    FileTree.IsSimple (name s) where
  ne_empty := name_ne (by decide)
  ne_dot := name_ne (by decide)
  ne_up := name_ne (by decide)
  no_slash := (not_mem_name_iff (by decide)).mpr h

/-- The file of a well-formed step name stands for itself in a path. -/
theorem isSimple_name {s : String} (h : Rulebook.isName s = true) :
    FileTree.IsSimple (name s) :=
  isSimple_name_of_no_slash (not_mem_of_isName h (by decide))

theorem ne_empty_of_isName {s : String} (h : Rulebook.isName s = true) : s ≠ "" := by
  rw [Rulebook.isName, Bool.and_eq_true] at h
  simpa using h.1

theorem isSimple_ignore : FileTree.IsSimple ".gitignore" := by
  constructor <;> decide

end Readiness.ProofFile

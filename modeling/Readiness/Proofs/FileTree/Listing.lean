import Readiness.Proofs.FileTree.Growth

/-!
# FileTree — names are listed once

* `makeDirectories_puts`: what putting a directory where nothing is keeps, making a directory with
  its ancestors keeps.
* `isDirectory_of_names`: only a directory has names.
* `nodup_children_put`, `nodup_children_erase`: names in a directory that are listed once stay so.
-/

namespace Readiness.FileTree

section Puts

variable {P : FileTree → Prop} (hp : ∀ t l, t.get? l = none → P t → P (t.put l .directory))

include hp

theorem makeDirectory_puts {t t' : FileTree} {p : String} (ht : P t)
    (h : t.makeDirectory p = .ok t') : P t' := by
  rw [makeDirectory] at h
  split at h
  · rename_i hr
    cases h
    exact hp _ _ (resolve_place hr).2 ht
  all_goals cases h

theorem ensureDirectory_puts {t : FileTree} (ht : P t) (p : String) :
    P (t.ensureDirectory p).2 := by
  rw [ensureDirectory]
  cases h : t.makeDirectory p with
  | ok t' => exact makeDirectory_puts hp ht h
  | error e => exact ht

theorem makeWithAncestors_puts (up : List String) {t : FileTree} (ht : P t) (p : String) :
    P (t.makeWithAncestors p up).2 := by
  induction up generalizing t p with
  | nil => exact ensureDirectory_puts hp ht p
  | cons u up ih =>
      rw [makeWithAncestors]
      cases h : t.makeDirectory p with
      | ok t' => exact makeDirectory_puts hp ht h
      | error e =>
          cases e with
          | noEntry =>
              have ih := ih ht (Path.ofNames up.reverse)
              dsimp only
              revert ih
              generalize t.makeWithAncestors (Path.ofNames up.reverse) up = r
              obtain ⟨_ | _, t'⟩ := r
              · exact id
              · exact fun ih => ensureDirectory_puts hp ih p
          | _ => exact ht

/-- What putting a directory where nothing is keeps, making a directory with its ancestors keeps. -/
theorem makeDirectories_puts {t : FileTree} (ht : P t) (p : String) :
    P (t.makeDirectories p).2 :=
  makeWithAncestors_puts hp _ ht p

end Puts

/-! ### The names in a directory -/

variable {t : FileTree} {l : Location}

/-- Only a directory has names. -/
theorem isDirectory_of_names {p : String} {ns : List String} (h : t.names p = .ok ns) :
    t.isDirectory p = true := by
  rw [names] at h
  split at h
  · rename_i hr
    rw [isDirectory, stat?, find?, hr]
    rfl
  all_goals cases h

theorem children_erase_sublist (t : FileTree) (k l : Location) :
    ((t.erase k).children l).Sublist (t.children l) :=
  List.filter_sublist.filterMap _

theorem nodup_children_erase (k : Location) (h : (t.children l).Nodup) :
    ((t.erase k).children l).Nodup := h.sublist (children_erase_sublist t k l)

/-- What is put over an entry replaces it. -/
theorem put_put (t : FileTree) (l : Location) (e e' : Entry) :
    (t.put l e).put l e' = t.put l e' := by
  rw [put, put, put, erase, erase]
  simp [List.filter_append]

theorem children_put (t : FileTree) (k l : Location) (e : Entry) :
    (t.put k e).children l = (t.erase k).children l ++
      if k ≠ [] ∧ k.dropLast = l then k.getLast?.toList else [] := by
  rw [put, children, List.filterMap_append]
  congr 1
  cases hk : k.getLast? with
  | none => simp [List.getLast?_eq_none_iff.mp hk]
  | some name =>
      have hne : k ≠ [] := fun h => by rw [h] at hk; cases hk
      by_cases hl : k.dropLast = l <;> simp [hk, hl, hne]

/-- Names that are listed once stay so when an entry is put. -/
theorem nodup_children_put (k : Location) (e : Entry) (h : (t.children l).Nodup) :
    ((t.put k e).children l).Nodup := by
  rw [children_put]
  split
  · rename_i hk
    obtain ⟨name, hn⟩ := Option.ne_none_iff_exists'.mp
      (fun h => hk.1 (List.getLast?_eq_none_iff.mp h))
    obtain ⟨ks, rfl⟩ := List.getLast?_eq_some_iff.mp hn
    have hgone : name ∉ (t.erase (ks ++ [name])).children l := by
      -- nothing is left of an entry that is replaced
      rw [← hk.2, List.dropLast_concat, mem_children_iff]
      rintro ⟨e', he⟩
      rw [get?_erase, if_pos ⟨rfl, by simp⟩] at he
      cases he
    rw [hn, Option.toList_some, List.nodup_append]
    refine ⟨nodup_children_erase _ h, by simp, ?_⟩
    rintro a ha b hb rfl
    exact hgone (List.mem_singleton.mp hb ▸ ha)
  · rw [List.append_nil]
    exact nodup_children_erase _ h

end Readiness.FileTree

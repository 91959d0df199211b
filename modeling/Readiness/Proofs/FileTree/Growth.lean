import Mathlib.Tactic.ByContra
import Readiness.Proofs.FileTree.Walk

/-!
# FileTree — what reading and writing a path do

Reading, writing and deleting a name in a directory, said of the entry at its location; and making
a directory with its ancestors.

* `stat?_join`, `readBytes_join`, `writeFile_join`, `removeFile_join`: one name in a directory.
* `mem_children_iff`: the names in a directory are those with an entry.
* `LosesFiles`, `AddsDirectories`: a tree loses files, or gains directories, and nothing else.
* `makeDirectories_adds`, `makeDirectories_ok`: making a directory does just that, and in the end
  the directory is there.
-/

namespace Readiness.FileTree

/-! ### One name in a directory -/

section Name

variable {t : FileTree} {dir name : String}

theorem find?_join (h : IsSimple name) (ho : t.Opens dir name) :
    t.find? (Path.join dir name) =
      (t.get? (locate dir ++ [name])).map fun e => (locate dir ++ [name], e) := by
  rw [find?, resolve_join h ho]
  cases t.get? (locate dir ++ [name]) <;> rfl

theorem find?_join_of_not_opens (h : IsSimple name) (ho : ¬ t.Opens dir name) :
    t.find? (Path.join dir name) = none := by
  obtain ⟨e, he⟩ := resolve_join_error h ho
  rw [find?, he]

theorem stat?_join (h : IsSimple name) (ho : t.Opens dir name) :
    t.stat? (Path.join dir name) = t.get? (locate dir ++ [name]) := by
  rw [stat?, find?_join h ho]
  cases t.get? (locate dir ++ [name]) <;> rfl

theorem stat?_join_of_not_opens (h : IsSimple name) (ho : ¬ t.Opens dir name) :
    t.stat? (Path.join dir name) = none := by
  rw [stat?, find?_join_of_not_opens h ho]; rfl

theorem readBytes_join (h : IsSimple name) (ho : t.Opens dir name) :
    t.readBytes (Path.join dir name) = match t.get? (locate dir ++ [name]) with
      | some (.file c) => .ok c
      | some .directory => .error .isDirectory
      | none => .error .noEntry := by
  rw [readBytes, resolve_join h ho]
  rcases t.get? (locate dir ++ [name]) with _ | _ | _ <;> rfl

theorem writeFile_join (h : IsSimple name) (ho : t.Opens dir name) (c : ByteArray) :
    t.writeFile (Path.join dir name) c =
      if t.get? (locate dir ++ [name]) = some .directory then .error .isDirectory
      else .ok (t.put (locate dir ++ [name]) (.file c)) := by
  rw [writeFile, resolve_join h ho]
  rcases t.get? (locate dir ++ [name]) with _ | _ | _ <;> rfl

theorem writeFile_join_of_not_opens (h : IsSimple name) (ho : ¬ t.Opens dir name)
    (c : ByteArray) : ∃ e, t.writeFile (Path.join dir name) c = .error e := by
  obtain ⟨e, he⟩ := resolve_join_error h ho
  exact ⟨e, by rw [writeFile, he]⟩

theorem removeFile_join (h : IsSimple name) (ho : t.Opens dir name) :
    t.removeFile (Path.join dir name) = match t.get? (locate dir ++ [name]) with
      | some (.file _) => .ok (t.erase (locate dir ++ [name]))
      | some .directory => .error .isDirectory
      | none => .error .noEntry := by
  rw [removeFile, resolve_join h ho]
  rcases t.get? (locate dir ++ [name]) with _ | _ | _ <;> rfl

end Name

/-! ### The names in a directory -/

theorem mem_children {t : FileTree} {l : Location} {n : String} :
    n ∈ t.children l ↔ ∃ e, (l ++ [n], e) ∈ t.entries := by
  simp only [children, List.mem_filterMap]
  constructor
  · rintro ⟨⟨k, e⟩, hm, hk⟩
    split at hk
    · rename_i name hl
      split at hk
      · rename_i hd
        cases hk
        obtain ⟨ys, rfl⟩ := List.getLast?_eq_some_iff.mp hl
        rw [List.dropLast_concat] at hd
        exact ⟨e, hd ▸ hm⟩
      · cases hk
    · cases hk
  · rintro ⟨e, hm⟩
    exact ⟨(l ++ [n], e), hm, by simp⟩

/-- The names in a directory are those with an entry. -/
theorem mem_children_iff {t : FileTree} {l : Location} {n : String} :
    n ∈ t.children l ↔ ∃ e, t.get? (l ++ [n]) = some e := by
  rw [mem_children]
  have hne : l ++ [n] ≠ [] := by simp
  simp only [get?, if_neg hne]
  constructor
  · rintro ⟨e, hm⟩
    cases h : t.entries.lookup (l ++ [n]) with
    | some e => exact ⟨e, rfl⟩
    | none => exact absurd (List.lookup_eq_none_iff.mp h _ hm) (by simp)
  · rintro ⟨e, he⟩
    obtain ⟨l₁, l₂, h, -⟩ := List.lookup_eq_some_iff.mp he
    exact ⟨e, by rw [h]; simp⟩

theorem names_of_isDirectory {t : FileTree} {p : String} (h : t.isDirectory p = true) :
    t.names p = .ok (t.children (locate p)) := by
  obtain ⟨hu, hl⟩ := isDirectory_iff.mp h
  rw [names, resolve_eq_walk hu, hl]

theorem names_ok {t : FileTree} {p : String} {ns : List String} (h : t.names p = .ok ns) :
    ns = t.children (locate p) := by
  rw [names] at h
  split at h
  · rename_i l hr
    obtain rfl : l = locate p := (resolve_place hr).1
    cases h; rfl
  all_goals cases h

/-! ### Directories that stay -/

theorem keepsDirectories_erase {t : FileTree} {l : Location}
    (h : t.get? l ≠ some .directory) : KeepsDirectories t (t.erase l) := by
  intro k hk
  rw [get?_erase, if_neg]
  · exact hk
  · rintro ⟨rfl, -⟩; exact h hk

theorem keepsDirectories_put {t : FileTree} {l : Location} (e : Entry)
    (h : t.get? l ≠ some .directory) : KeepsDirectories t (t.put l e) := by
  intro k hk
  rw [get?_put, if_neg]
  · exact hk
  · rintro ⟨rfl, -⟩; exact h hk

/-! ### Files that go -/

/-- `t'` is `t` without some of its files, at locations of which `P` holds. -/
def LosesFiles (P : Location → Prop) (t t' : FileTree) : Prop :=
  ∀ l, t'.get? l = t.get? l ∨ (P l ∧ (∃ c, t.get? l = some (.file c)) ∧ t'.get? l = none)

namespace LosesFiles

variable {P : Location → Prop}

theorem refl (t : FileTree) : LosesFiles P t t := fun _ => .inl rfl

theorem trans {t₁ t₂ t₃ : FileTree} (h₁ : LosesFiles P t₁ t₂) (h₂ : LosesFiles P t₂ t₃) :
    LosesFiles P t₁ t₃ := by
  intro l
  rcases h₂ l with e₂ | ⟨p, f, e₂⟩
  · rw [e₂]; exact h₁ l
  · rcases h₁ l with e₁ | ⟨-, -, e₁⟩
    · exact .inr ⟨p, e₁ ▸ f, e₂⟩
    · obtain ⟨c, hc⟩ := f
      rw [e₁] at hc; cases hc

theorem mono {Q : Location → Prop} (hPQ : ∀ l, P l → Q l) {t t' : FileTree}
    (h : LosesFiles P t t') : LosesFiles Q t t' := fun l =>
  (h l).imp_right fun ⟨p, f, e⟩ => ⟨hPQ l p, f, e⟩

theorem keepsDirectories {t t' : FileTree} (h : LosesFiles P t t') : KeepsDirectories t t' := by
  intro l hl
  rcases h l with e | ⟨-, ⟨c, hc⟩, -⟩
  · rw [e]; exact hl
  · rw [hl] at hc; cases hc

/-- What is left was there. -/
theorem get?_of_some {t t' : FileTree} (h : LosesFiles P t t') {l : Location} {e : Entry}
    (hl : t'.get? l = some e) : t.get? l = some e := by
  rcases h l with e' | ⟨-, -, n⟩
  · exact e' ▸ hl
  · rw [n] at hl; cases hl

end LosesFiles

theorem losesFiles_erase {t : FileTree} {l : Location} {c : ByteArray}
    (h : t.get? l = some (.file c)) : LosesFiles (· = l) t (t.erase l) := by
  intro k
  rw [get?_erase]
  by_cases hk : k = l ∧ k ≠ []
  · rw [if_pos hk, hk.1]; exact .inr ⟨rfl, ⟨c, h⟩, rfl⟩
  · rw [if_neg hk]; exact .inl rfl

/-- Deleting a file takes one file away, at the location of its path. -/
theorem removeFile_loses {t t' : FileTree} {p : String} (h : t.removeFile p = .ok t') :
    LosesFiles (· = locate p) t t' := by
  rw [removeFile] at h
  split at h
  · rename_i l c hr
    obtain ⟨hl, hs⟩ := resolve_place hr
    obtain rfl : l = locate p := hl
    cases h
    exact losesFiles_erase hs
  all_goals cases h

/-! ### New directories -/

/-- `t'` is `t` with new directories, at locations of which `P` holds. -/
def AddsDirectories (P : Location → Prop) (t t' : FileTree) : Prop :=
  ∀ l, t'.get? l = t.get? l ∨ (P l ∧ t.get? l = none ∧ t'.get? l = some .directory)

namespace AddsDirectories

variable {P : Location → Prop}

theorem refl (t : FileTree) : AddsDirectories P t t := fun _ => .inl rfl

theorem trans {t₁ t₂ t₃ : FileTree} (h₁ : AddsDirectories P t₁ t₂)
    (h₂ : AddsDirectories P t₂ t₃) : AddsDirectories P t₁ t₃ := by
  intro l
  rcases h₁ l with e₁ | ⟨p, n, e₁⟩
  · rw [← e₁]; exact h₂ l
  · rcases h₂ l with e₂ | ⟨-, n₂, -⟩
    · exact .inr ⟨p, n, e₂.trans e₁⟩
    · rw [e₁] at n₂; cases n₂

theorem mono {Q : Location → Prop} (hPQ : ∀ l, P l → Q l) {t t' : FileTree}
    (h : AddsDirectories P t t') : AddsDirectories Q t t' := fun l =>
  (h l).imp_right fun ⟨p, n, e⟩ => ⟨hPQ l p, n, e⟩

theorem keepsDirectories {t t' : FileTree} (h : AddsDirectories P t t') :
    KeepsDirectories t t' := by
  intro l hl
  rcases h l with e | ⟨-, n, -⟩
  · rw [e]; exact hl
  · rw [n] at hl; cases hl

/-- The files are the same with the new directories. -/
theorem get?_file_iff {t t' : FileTree} (h : AddsDirectories P t t') {l : Location}
    {c : ByteArray} : t'.get? l = some (.file c) ↔ t.get? l = some (.file c) := by
  rcases h l with e | ⟨-, n, e⟩
  · rw [e]
  · rw [e, n]; simp

end AddsDirectories

/-- A vacant place, once it is a directory, is found. -/
theorem walk_put_directory {t : FileTree} {l k : Location} {ss : List String}
    (h : t.walk l ss = .ok (.vacant k)) :
    (t.put k .directory).walk l ss = .ok (.found k .directory) := by
  have hv : t.get? k = none := (walk_place h).2
  have hk : KeepsDirectories t (t.put k .directory) :=
    keepsDirectories_put _ (by rw [hv]; simp)
  fun_induction walk t l ss with
  | case1 | case4 | case6 | case7 | case9 => cases h
  | case2 l s ss hs ih => rw [walk, if_pos hs]; exact ih h
  | case3 l ss hs ih => rw [walk, if_neg hs, if_pos rfl]; exact ih h
  | case5 l s ss hs hup hn hd ih =>
      rw [walk, if_neg hs, if_neg hup, if_neg hn, hk _ hd]
      exact ih h
  | case8 l s ss hs hup hn _ hb =>
      cases h
      have hd : (t.put (l ++ [s]) .directory).get? (l ++ [s]) = some .directory := by
        rw [get?_put, if_pos ⟨rfl, by simp⟩]
      rw [walk, if_neg hs, if_neg hup, if_neg hn, hd]
      exact walk_blank hb _ _

theorem makeDirectory_ok {t t' : FileTree} {p : String} (h : t.makeDirectory p = .ok t') :
    AddsDirectories (· = locate p) t t' ∧ t'.isDirectory p = true := by
  rw [makeDirectory] at h
  split at h
  · rename_i l hr
    obtain ⟨hl, hv⟩ := resolve_place hr
    obtain rfl : l = locate p := hl
    cases h
    have hu : IsUsable p := by
      by_contra hu
      obtain ⟨e, he⟩ := resolve_error hu t
      rw [he] at hr; cases hr
    refine ⟨fun k => ?_, isDirectory_iff.mpr ⟨hu, ?_⟩⟩
    · by_cases hk : k = locate p
      · have hne : k ≠ [] := fun h0 => by
          rw [← hk, h0] at hv
          exact absurd hv (by simp [Place.Stands, get?])
        exact .inr ⟨hk, by rw [hk]; exact hv, by rw [get?_put, if_pos ⟨hk, hne⟩]⟩
      · exact .inl (by rw [get?_put, if_neg fun h => hk h.1])
    · rw [resolve_eq_walk hu] at hr
      exact leads_of_walk (walk_put_directory hr)
  all_goals cases h

theorem makeDirectory_of_isDirectory {t : FileTree} {p : String}
    (h : t.isDirectory p = true) : t.makeDirectory p = .error .alreadyExists := by
  obtain ⟨hu, hl⟩ := isDirectory_iff.mp h
  rw [makeDirectory, resolve_eq_walk hu, hl]

theorem ensureDirectory_adds (t : FileTree) (p : String) :
    AddsDirectories (· = locate p) t (t.ensureDirectory p).2 := by
  rw [ensureDirectory]
  cases h : t.makeDirectory p with
  | ok t' => exact (makeDirectory_ok h).1
  | error e => exact .refl t

theorem ensureDirectory_ok {t t' : FileTree} {p : String} (h : t.ensureDirectory p = (.ok (), t')) :
    t'.isDirectory p = true := by
  rw [ensureDirectory] at h
  cases hm : t.makeDirectory p with
  | ok t₁ => rw [hm] at h; cases h; exact (makeDirectory_ok hm).2
  | error e =>
      rw [hm] at h
      by_cases hd : t.isDirectory p = true
      · rw [← (Prod.mk.inj h).2]; exact hd
      · simp [hd] at h

/-- The recursion over the ancestors, whose names are given in reverse. -/
theorem makeWithAncestors_adds {P : Location → Prop} (up : List String) (t : FileTree)
    (p : String) (hp : P (locate p))
    (hup : ∀ us, us <:+ up.tail → P (locate (Path.ofNames us.reverse))) :
    AddsDirectories P t (t.makeWithAncestors p up).2 := by
  have one : ∀ (q : String), P (locate q) → ∀ l, l = locate q → P l := fun q hq l hl => hl ▸ hq
  induction up generalizing t p with
  | nil => exact (ensureDirectory_adds t p).mono (one p hp)
  | cons u up ih =>
      rw [makeWithAncestors]
      cases h : t.makeDirectory p with
      | ok t' => exact (makeDirectory_ok h).1.mono (one p hp)
      | error e =>
          have ih := ih t (Path.ofNames up.reverse) (hup up (List.suffix_refl up))
            fun us hus => hup us (hus.trans (List.tail_suffix up))
          cases e with
          | noEntry =>
              -- the ancestors first, and then the directory itself
              dsimp only
              revert ih
              generalize t.makeWithAncestors (Path.ofNames up.reverse) up = r
              obtain ⟨_ | _, t'⟩ := r
              · exact fun ih => ih
              · exact fun ih => ih.trans ((ensureDirectory_adds t' p).mono (one p hp))
          | _ => exact .refl t

theorem makeWithAncestors_ok (up : List String) {t t' : FileTree} {p : String}
    (h : t.makeWithAncestors p up = (.ok (), t')) : t'.isDirectory p = true := by
  cases up with
  | nil => exact ensureDirectory_ok h
  | cons u up =>
      rw [makeWithAncestors] at h
      cases hm : t.makeDirectory p with
      | ok t₁ => rw [hm] at h; cases h; exact (makeDirectory_ok hm).2
      | error e =>
          rw [hm] at h
          by_cases he : e = .noEntry
          · subst he
            dsimp only at h
            cases hr : t.makeWithAncestors (Path.ofNames up.reverse) up with
            | mk r t₁ =>
                rw [hr] at h
                cases r with
                | ok _ => exact ensureDirectory_ok h
                | error e => cases h
          · by_cases hd : t.isDirectory p = true
            · cases e <;> simp_all
            · cases e <;> simp_all

theorem makeWithAncestors_of_isDirectory {t : FileTree} {p : String} (up : List String)
    (h : t.isDirectory p = true) : t.makeWithAncestors p up = (.ok (), t) := by
  cases up with
  | nil => rw [makeWithAncestors, ensureDirectory, makeDirectory_of_isDirectory h]; simp [h]
  | cons u up => rw [makeWithAncestors, makeDirectory_of_isDirectory h]; simp [h]

/-- A directory that is there is left alone. -/
theorem makeDirectories_of_isDirectory {t : FileTree} {p : String}
    (h : t.isDirectory p = true) : t.makeDirectories p = (.ok (), t) :=
  makeWithAncestors_of_isDirectory _ h

theorem makeDirectories_ok {t t' : FileTree} {p : String}
    (h : t.makeDirectories p = (.ok (), t')) : t'.isDirectory p = true :=
  makeWithAncestors_ok _ h

/-- The segments of a path that was made from names: a blank one, and the names. -/
theorem segments_ofNames {names : List String} (hs : ∀ n ∈ names, '/' ∉ n.toList) :
    Path.segments (Path.ofNames names) = "" :: names ∨
      names = [] ∧ Path.segments (Path.ofNames names) = ["", ""] := by
  have hseg : Path.segments (Path.ofNames names) = "" :: Path.segments (Text.join "/" names) := by
    rw [Path.segments, Path.ofNames, Text.split, String.toList_append,
      show ("/" : String).toList = ['/'] from rfl, List.singleton_append, Text.pieces_cons_self]
    rfl
  by_cases hn : names = []
  · exact .inr ⟨hn, by rw [hseg, hn]; rfl⟩
  · exact .inl (hseg.trans (congrArg ("" :: ·) (Text.split_join hn hs)))

theorem locate_ofNames {names : List String} (h : ∀ n ∈ names, Path.isPlain n = true)
    (hs : ∀ n ∈ names, '/' ∉ n.toList) (hup : ".." ∉ names) :
    locate (Path.ofNames names) = names := by
  rw [locate]
  rcases segments_ofNames hs with hj | ⟨rfl, hj⟩
  · rw [hj, arrive, if_pos (by decide), arrive_of_not_mem hup, List.filter_eq_self.mpr h]
    rfl
  · rw [hj]; rfl

/-- Whatever is made is the directory or one that its path names on the way. -/
theorem makeDirectories_adds (t : FileTree) (p : String) :
    AddsDirectories
      (fun l => l = locate p ∨ ∃ names, names <+: Path.plain p ∧ l = locate (Path.ofNames names)) t
      (t.makeDirectories p).2 := by
  refine makeWithAncestors_adds _ t p (.inl rfl) fun us hus => .inr ⟨us.reverse, ?_, rfl⟩
  have := List.reverse_prefix.mpr (hus.trans (List.tail_suffix _))
  rwa [List.reverse_reverse] at this

/-- Where a path never steps upwards, the directories on the way are the location's beginnings. -/
theorem locate_ofNames_prefix {p : String} (hup : ".." ∉ Path.segments p) {names : List String}
    (hn : names <+: Path.plain p) : locate (Path.ofNames names) <+: locate p := by
  have hloc : locate p = Path.plain p := by
    rw [locate, arrive_of_not_mem hup]; rfl
  have hmem : ∀ n ∈ names, n ∈ Path.segments p ∧ Path.isPlain n = true := fun n h =>
    List.mem_filter.mp (hn.subset h)
  rw [hloc, locate_ofNames (fun n h => (hmem n h).2) (fun n h => ?_) fun h => hup (hmem _ h).1]
  · exact hn
  · obtain ⟨q, hq, rfl⟩ := List.mem_map.mp (hmem n h).1
    rw [String.toList_ofList]
    exact Text.not_mem_of_mem_pieces hq

end Readiness.FileTree

import Readiness.FileTree.Access
import Readiness.Proofs.Text.Cutting

/-!
# FileTree — where a path leads

A tree has no links, so the location a path names can be read off the path alone: `arrive` follows
the segments without looking at a tree, `locate` does so for a whole path.

* `walk_place`: whatever a walk comes to, it comes to it at `arrive`.
* `walk_append`, `walk_append_error`: a longer walk goes on from the directory walked to, and fails
  where there is none.
* `Opens`, `resolve_join`: a name in a directory leads to the entry at the directory's location
  followed by the name, as soon as the path is usable and the directory is there.
* `walk_directory_mono`: a tree that keeps the directories of another leads to them as well.
-/

namespace Readiness.FileTree

/-! ### Locations read off a path -/

/-- The location that segments name, seen from `l`. -/
def arrive (l : Location) : List String → Location
  | [] => l
  | s :: ss =>
    if !Path.isPlain s then arrive l ss
    else if s = ".." then arrive l.dropLast ss
    else arrive (l ++ [s]) ss

/-- The location an absolute path names. -/
def locate (p : String) : Location := arrive [] (Path.segments p)

theorem arrive_append (l : Location) (ss ts : List String) :
    arrive l (ss ++ ts) = arrive (arrive l ss) ts := by
  induction ss generalizing l with
  | nil => rfl
  | cons s ss ih =>
      rw [List.cons_append, arrive, arrive]
      split
      · exact ih l
      · split
        · exact ih l.dropLast
        · exact ih (l ++ [s])

theorem arrive_blank {ss : List String} (h : ss.all (· == "") = true) (l : Location) :
    arrive l ss = l := by
  induction ss with
  | nil => rfl
  | cons s ss ih =>
      simp only [List.all_cons, Bool.and_eq_true, beq_iff_eq] at h
      rw [h.1, arrive, if_pos (by decide)]
      exact ih h.2

/-- Without a step upwards the segments that name something are appended. -/
theorem arrive_of_not_mem {ss : List String} (h : ".." ∉ ss) (l : Location) :
    arrive l ss = l ++ ss.filter Path.isPlain := by
  induction ss generalizing l with
  | nil => simp [arrive]
  | cons s ss ih =>
      simp only [List.mem_cons, not_or] at h
      rw [arrive]
      by_cases hs : Path.isPlain s
      · rw [if_neg (by simp [hs]), if_neg (Ne.symm h.1), ih h.2, List.filter_cons_of_pos hs]
        simp
      · rw [if_pos (by simp [hs]), ih h.2, List.filter_cons_of_neg hs]

/-! ### Walks -/

def Place.location : Place → Location
  | .found l _ | .vacant l => l

/-- The tree has at a place what the place says.  A directory may be the one the walk began in. -/
def Place.Stands (t : FileTree) : Place → Prop
  | .found l (.file c) => t.get? l = some (.file c)
  | .found _ .directory => True
  | .vacant l => t.get? l = none

/-- Whatever a walk comes to, it comes to it at `arrive`. -/
theorem walk_place {t : FileTree} {l : Location} {ss : List String} {p : Place}
    (h : t.walk l ss = .ok p) : p.location = arrive l ss ∧ p.Stands t := by
  fun_induction walk t l ss with
  | case1 l => cases h; exact ⟨rfl, trivial⟩
  | case2 l s ss hs ih => rw [arrive, if_pos hs]; exact ih h
  | case3 l ss hs ih => rw [arrive, if_neg hs, if_pos rfl]; exact ih h
  | case4 | case7 | case9 => cases h
  | case5 l s ss hs hup _ _ ih => rw [arrive, if_neg hs, if_neg hup]; exact ih h
  | case6 l s hs hup _ c hc =>
      cases h
      rw [arrive, if_neg hs, if_neg hup]
      exact ⟨rfl, hc⟩
  | case8 l s ss hs hup _ hn hb =>
      cases h
      rw [arrive, if_neg hs, if_neg hup, arrive_blank hb]
      exact ⟨rfl, hn⟩

/-- Beyond a directory a walk goes on from there. -/
theorem walk_append {t : FileTree} {l k : Location} {ss : List String}
    (h : t.walk l ss = .ok (.found k .directory)) (ts : List String) :
    t.walk l (ss ++ ts) = t.walk k ts := by
  fun_induction walk t l ss with
  | case1 l => cases h; rfl
  | case2 l s ss hs ih => rw [List.cons_append, walk, if_pos hs]; exact ih h
  | case3 l ss hs ih => rw [List.cons_append, walk, if_neg hs, if_pos rfl]; exact ih h
  | case4 | case7 | case9 => cases h
  | case5 l s ss hs hup hn hd ih =>
      rw [List.cons_append, walk, if_neg hs, if_neg hup, if_neg hn, hd]
      exact ih h
  | case6 | case8 => cases h

/-- Blank segments lead nowhere else. -/
theorem walk_blank {ss : List String} (h : ss.all (· == "") = true) (t : FileTree)
    (l : Location) : t.walk l ss = .ok (.found l .directory) := by
  induction ss with
  | nil => rfl
  | cons s ss ih =>
      simp only [List.all_cons, Bool.and_eq_true, beq_iff_eq] at h
      rw [h.1, walk, if_pos (by decide)]
      exact ih h.2

/-- Where a walk finds no directory, nothing can be named below. -/
theorem walk_append_error {t : FileTree} {l : Location} {ss : List String}
    (h : ∀ k, t.walk l ss ≠ .ok (.found k .directory)) {ts : List String}
    (hts : ts.all (· == "") = false) : ∃ e, t.walk l (ss ++ ts) = .error e := by
  have hne : ∀ rs : List String, rs ++ ts ≠ [] := fun rs hr => by
    rw [(List.append_eq_nil_iff.mp hr).2] at hts; cases hts
  fun_induction walk t l ss with
  | case1 l => exact absurd rfl (h l)
  | case2 l s ss hs ih => rw [List.cons_append, walk, if_pos hs]; exact ih h
  | case3 l ss hs ih => rw [List.cons_append, walk, if_neg hs, if_pos rfl]; exact ih h
  | case4 l s ss hs hup hn =>
      rw [List.cons_append, walk, if_neg hs, if_neg hup, if_pos hn]
      exact ⟨_, rfl⟩
  | case5 l s ss hs hup hn hd ih =>
      rw [List.cons_append, walk, if_neg hs, if_neg hup, if_neg hn, hd]
      exact ih h
  | case6 l s hs hup hn c hc =>
      rw [List.cons_append, walk, if_neg hs, if_neg hup, if_neg hn, hc]
      exact ⟨_, if_neg (hne [])⟩
  | case7 l s ss hs hup hn c hc =>
      rw [List.cons_append, walk, if_neg hs, if_neg hup, if_neg hn, hc]
      exact ⟨_, if_neg (hne ss)⟩
  | case8 l s ss hs hup hn hv | case9 l s ss hs hup hn hv =>
      rw [List.cons_append, walk, if_neg hs, if_neg hup, if_neg hn, hv]
      exact ⟨_, if_neg (by simp [List.all_append, hts])⟩

/-- Every directory of `t` is one of `t'`. -/
def KeepsDirectories (t t' : FileTree) : Prop :=
  ∀ l, t.get? l = some .directory → t'.get? l = some .directory

theorem KeepsDirectories.trans {t₁ t₂ t₃ : FileTree} (h₁ : KeepsDirectories t₁ t₂)
    (h₂ : KeepsDirectories t₂ t₃) : KeepsDirectories t₁ t₃ := fun l h => h₂ l (h₁ l h)

/-- A walk to a directory looks at directories only. -/
theorem walk_directory_mono {t t' : FileTree} (hk : KeepsDirectories t t') {l k : Location}
    {ss : List String} (h : t.walk l ss = .ok (.found k .directory)) :
    t'.walk l ss = .ok (.found k .directory) := by
  fun_induction walk t l ss with
  | case1 l => exact h
  | case2 l s ss hs ih => rw [walk, if_pos hs]; exact ih h
  | case3 l ss hs ih => rw [walk, if_neg hs, if_pos rfl]; exact ih h
  | case4 | case7 | case9 => cases h
  | case5 l s ss hs hup hn hd ih =>
      rw [walk, if_neg hs, if_neg hup, if_neg hn, hk _ hd]
      exact ih h
  | case6 | case8 => cases h

/-! ### Paths -/

/-- The path is one that can be followed at all. -/
def IsUsable (p : String) : Prop :=
  '\x00' ∉ p.toList ∧ p ≠ "" ∧ p.utf8ByteSize ≤ pathMax

theorem resolve_eq_walk {p : String} (h : IsUsable p) (t : FileTree) :
    t.resolve [] p = t.walk [] (Path.segments p) := by
  rw [resolve, if_neg (by simpa using h.1), if_neg h.2.1, if_neg (Nat.not_lt.mpr h.2.2), ite_self]

theorem resolve_error {p : String} (h : ¬ IsUsable p) (t : FileTree) :
    ∃ e, t.resolve [] p = .error e := by
  rw [resolve]
  split
  · exact ⟨_, rfl⟩
  · split
    · exact ⟨_, rfl⟩
    · split
      · exact ⟨_, rfl⟩
      · rename_i h₁ h₂ h₃
        exact absurd ⟨by simpa using h₁, h₂, Nat.not_lt.mp h₃⟩ h

theorem resolve_place {t : FileTree} {p : String} {q : Place} (h : t.resolve [] p = .ok q) :
    q.location = locate p ∧ q.Stands t := by
  by_cases hu : IsUsable p
  · rw [resolve_eq_walk hu] at h
    exact walk_place h
  · obtain ⟨e, he⟩ := resolve_error hu t
    rw [he] at h; cases h

/-- The directory at an absolute path is there. -/
def Leads (t : FileTree) (dir : String) : Prop :=
  t.walk [] (Path.segments dir) = .ok (.found (locate dir) .directory)

theorem leads_of_walk {t : FileTree} {dir : String} {k : Location}
    (h : t.walk [] (Path.segments dir) = .ok (.found k .directory)) : t.Leads dir := by
  rw [Leads, h]
  exact congrArg (fun k => Except.ok (Place.found k .directory)) (walk_place h).1

theorem isDirectory_iff {t : FileTree} {p : String} :
    t.isDirectory p = true ↔ IsUsable p ∧ t.Leads p := by
  rw [isDirectory, stat?, find?]
  by_cases hu : IsUsable p
  · rw [resolve_eq_walk hu]
    constructor
    · intro h
      refine ⟨hu, ?_⟩
      split at h
      · rename_i l e he
        obtain rfl : e = .directory := by simpa using h
        exact leads_of_walk he
      · simp at h
    · rintro ⟨-, h⟩
      rw [h]; rfl
  · obtain ⟨e, he⟩ := resolve_error hu t
    simp [he, hu]

theorem isDirectory_mono {t t' : FileTree} (hk : KeepsDirectories t t') {p : String}
    (h : t.isDirectory p = true) : t'.isDirectory p = true := by
  rw [isDirectory_iff] at h ⊢
  exact ⟨h.1, walk_directory_mono hk h.2⟩

/-! ### Names in a directory -/

/-- The name stands for itself in a path. -/
structure IsSimple (name : String) : Prop where
  ne_empty : name ≠ ""
  ne_dot : name ≠ "."
  ne_up : name ≠ ".."
  no_slash : '/' ∉ name.toList

theorem IsSimple.isPlain {name : String} (h : IsSimple name) : Path.isPlain name = true := by
  simp [Path.isPlain, h.ne_empty, h.ne_dot]

theorem isAbsolute_of_no_slash {name : String} (h : '/' ∉ name.toList) :
    Path.isAbsolute name = false := by
  rw [Path.isAbsolute, show ("/" : String) = String.ofList ['/'] from rfl,
    Text.hasStart_singleton]
  cases hc : name.toList with
  | nil => rfl
  | cons c cs =>
      rw [hc] at h
      simp only [List.mem_cons, not_or] at h
      simpa using Ne.symm h.1

/-- A name in a directory is written behind the directory. -/
theorem join_eq_append (dir : String) :
    ∃ mid, ∀ {name : String}, '/' ∉ name.toList → Path.join dir name = dir ++ mid ++ name := by
  by_cases hd : dir = "" ∨ (Text.stripEnd? dir "/").isSome
  · refine ⟨"", fun {name} h => ?_⟩
    rw [Path.join, isAbsolute_of_no_slash h, if_neg Bool.false_ne_true, if_pos hd,
      String.append_empty]
  · refine ⟨"/", fun {name} h => ?_⟩
    rw [Path.join, isAbsolute_of_no_slash h, if_neg Bool.false_ne_true, if_neg hd]

/-- Where a name in a directory makes a usable path, the directory's own path is usable. -/
theorem isUsable_of_join {dir name : String} (hd : dir ≠ "") (h : '/' ∉ name.toList)
    (hu : IsUsable (Path.join dir name)) : IsUsable dir := by
  obtain ⟨mid, hj⟩ := join_eq_append dir
  obtain ⟨hnul, -, hlen⟩ := hu
  rw [hj h, String.toList_append, String.toList_append, List.mem_append, List.mem_append, not_or,
    not_or] at hnul
  rw [hj h, String.utf8ByteSize_append, String.utf8ByteSize_append] at hlen
  exact ⟨hnul.1.1, hd, by omega⟩

/-- A name in a directory: the segments of the directory, up to a blank one, and the name. -/
theorem segments_join (dir : String) {name : String} (h : '/' ∉ name.toList) :
    ∃ ss, Path.segments (Path.join dir name) = ss ++ [name] ∧
      (Path.segments dir = ss ∨ Path.segments dir = ss ++ [""]) := by
  have hname : Text.pieces '/' name.toList = [name.toList] := Text.pieces_of_not_mem h
  rw [Path.join, if_neg (by simp [isAbsolute_of_no_slash h])]
  by_cases hdir : dir = ""
  · subst hdir
    refine ⟨[], ?_, Or.inr rfl⟩
    rw [if_pos (Or.inl rfl), show "" ++ name = name from by simp]
    exact Text.split_of_not_mem h
  · by_cases hend : (Text.stripEnd? dir "/").isSome
    · obtain ⟨r, hr⟩ := Option.isSome_iff_exists.mp hend
      obtain rfl := Text.stripEnd?_eq_some.mp hr
      refine ⟨Path.segments r, ?_, Or.inr ?_⟩
      · rw [if_pos (Or.inr hend), Path.segments, Text.split, String.toList_append,
          String.toList_append, List.append_assoc,
          show ("/" : String).toList = ['/'] from rfl, List.singleton_append,
          Text.pieces_append_cons, hname]
        simp [Path.segments, Text.split]
      · rw [Path.segments, Text.split, String.toList_append,
          show ("/" : String).toList = ['/'] from rfl, Text.pieces_append_cons]
        simp [Path.segments, Text.split, Text.pieces]
    · refine ⟨Path.segments dir, ?_, Or.inl rfl⟩
      rw [if_neg (not_or.mpr ⟨hdir, hend⟩), Path.segments, Text.split, String.toList_append,
        String.toList_append, List.append_assoc, show ("/" : String).toList = ['/'] from rfl,
        List.singleton_append, Text.pieces_append_cons, hname]
      simp [Path.segments, Text.split]

/-- A name in a directory is at the directory's location followed by the name. -/
theorem locate_join (dir : String) {name : String} (h : IsSimple name) :
    locate (Path.join dir name) = locate dir ++ [name] := by
  have one : ∀ l, arrive l [name] = l ++ [name] := fun l => by
    rw [arrive, if_neg (by simp [h.isPlain]), if_neg h.ne_up]
    rfl
  obtain ⟨ss, hj, hd⟩ := segments_join dir h.no_slash
  rw [locate, hj, arrive_append, one]
  rcases hd with hd | hd <;> rw [locate, hd]
  rw [arrive_append]
  rfl

/-- The path of a name in a directory can be followed to the end. -/
structure Opens (t : FileTree) (dir name : String) : Prop where
  usable : IsUsable (Path.join dir name)
  short : name.utf8ByteSize ≤ nameMax
  leads : t.Leads dir

/-- A shorter name in the directory opens as well. -/
theorem Opens.of_shorter {t : FileTree} {dir name shorter : String} (h : t.Opens dir name)
    (hn : IsSimple name) (hs : IsSimple shorter) (hnul : '\x00' ∉ shorter.toList)
    (hle : shorter.utf8ByteSize ≤ name.utf8ByteSize) : t.Opens dir shorter := by
  obtain ⟨mid, hj⟩ := join_eq_append dir
  obtain ⟨⟨hu, -, hl⟩, hshort, hleads⟩ := h
  rw [hj hn.no_slash, String.toList_append, List.mem_append, not_or] at hu
  rw [hj hn.no_slash, String.utf8ByteSize_append] at hl
  refine ⟨?_, Nat.le_trans hle hshort, hleads⟩
  rw [hj hs.no_slash]
  refine ⟨?_, ?_, ?_⟩
  · rw [String.toList_append, List.mem_append]
    exact not_or.mpr ⟨hu.1, hnul⟩
  · exact fun he => hs.ne_empty (String.append_eq_empty_iff.mp he).2
  · rw [String.utf8ByteSize_append]
    omega

theorem walk_simple {t : FileTree} {name : String} (h : IsSimple name)
    (hs : name.utf8ByteSize ≤ nameMax) (k : Location) :
    t.walk k [name] = .ok (match t.get? (k ++ [name]) with
      | some e => .found (k ++ [name]) e
      | none => .vacant (k ++ [name])) := by
  rw [walk, if_neg (by simp [h.isPlain]), if_neg h.ne_up, if_neg (Nat.not_lt.mpr hs)]
  cases t.get? (k ++ [name]) with
  | none => rfl
  | some e =>
      cases e with
      | file c => rfl
      | directory => rfl

/-- A walk that comes to a directory through a blank segment comes to it without. -/
theorem walk_of_append_blank {t : FileTree} {l k : Location} {ss : List String}
    (h : t.walk l (ss ++ [""]) = .ok (.found k .directory)) :
    t.walk l ss = .ok (.found k .directory) := by
  fun_induction walk t l ss with
  | case1 l => exact h
  | case2 l s ss hs ih => rw [List.cons_append, walk, if_pos hs] at h; exact ih h
  | case3 l ss hs ih => rw [List.cons_append, walk, if_neg hs, if_pos rfl] at h; exact ih h
  | case4 l s ss hs hup hn =>
      rw [List.cons_append, walk, if_neg hs, if_neg hup, if_pos hn] at h; cases h
  | case5 l s ss hs hup hn hd ih =>
      rw [List.cons_append, walk, if_neg hs, if_neg hup, if_neg hn, hd] at h
      exact ih h
  | case6 l s hs hup hn c hc | case7 l s ss hs hup hn c hc =>
      rw [List.cons_append, walk, if_neg hs, if_neg hup, if_neg hn, hc] at h
      simp at h
  | case8 l s ss hs hup hn hv hb | case9 l s ss hs hup hn hv hb =>
      rw [List.cons_append, walk, if_neg hs, if_neg hup, if_neg hn, hv] at h
      dsimp only at h
      split at h <;> simp at h

/-- The segments before the name lead to the directory when the directory's own path does. -/
theorem leads_iff {t : FileTree} {dir : String} {ss : List String}
    (hd : Path.segments dir = ss ∨ Path.segments dir = ss ++ [""]) :
    t.Leads dir ↔ t.walk [] ss = .ok (.found (locate dir) .directory) := by
  rcases hd with hd | hd
  · rw [Leads, hd]
  · rw [Leads, hd]
    constructor
    · exact walk_of_append_blank
    · intro h
      rw [walk_append h]; rfl

/-- What a name that opens leads to is the entry at its location. -/
theorem resolve_join {t : FileTree} {dir name : String} (h : IsSimple name)
    (ho : t.Opens dir name) :
    t.resolve [] (Path.join dir name) = .ok (match t.get? (locate dir ++ [name]) with
      | some e => .found (locate dir ++ [name]) e
      | none => .vacant (locate dir ++ [name])) := by
  obtain ⟨ss, hj, hd⟩ := segments_join dir h.no_slash
  rw [resolve_eq_walk ho.usable, hj, walk_append ((leads_iff hd).mp ho.leads),
    walk_simple h ho.short]

theorem resolve_join_error {t : FileTree} {dir name : String} (h : IsSimple name)
    (ho : ¬ t.Opens dir name) : ∃ e, t.resolve [] (Path.join dir name) = .error e := by
  by_cases hu : IsUsable (Path.join dir name)
  · obtain ⟨ss, hj, hd⟩ := segments_join dir h.no_slash
    rw [resolve_eq_walk hu, hj]
    -- either the directory is there and the name too long, or the directory is missing
    by_cases hl : t.Leads dir
    · have hn : nameMax < name.utf8ByteSize := Nat.not_le.mp fun hn => ho ⟨hu, hn, hl⟩
      rw [walk_append ((leads_iff hd).mp hl), walk, if_neg (by simp [h.isPlain]),
        if_neg h.ne_up, if_pos hn]
      exact ⟨_, rfl⟩
    · refine walk_append_error (fun k hk => hl ?_) (by simp [h.ne_empty])
      rw [leads_iff hd, hk]
      rcases hd with hd | hd <;> rw [locate, hd]
      · rw [← (walk_place hk).1]; rfl
      · rw [arrive_append, ← (walk_place hk).1]; rfl
  · exact resolve_error hu t

theorem Opens.mono {t t' : FileTree} (hk : KeepsDirectories t t') {dir name : String}
    (h : t.Opens dir name) : t'.Opens dir name :=
  ⟨h.usable, h.short, walk_directory_mono hk h.leads⟩

end Readiness.FileTree

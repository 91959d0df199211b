import Readiness.Proofs.Toml.Table
import Readiness.Proofs.Toml.Value

/-!
# Toml — documents

A tidy document is read back from its text.

* `Lines`: some lines have been read; `Lines.readLines` is the whole document.
* `lines_ownLines`, `lines_headed`: the two parts of a table's text.
* `Fills`, `Placed`: the text of a table fills an empty one, the text of a value adds it.
* `Tidy`: keys are different and bare, values are plain, tables or arrays of tables;
  `Tidy.read_write` is the round trip.
-/

namespace Readiness.Toml

open Table (Focus)

/-! ### Lines -/

/-- From `cs` some lines are read until `cs'` is left. -/
inductive Lines : Progress → List Char → Progress → List Char → Prop where
  | refl (p : Progress) (cs : List Char) : Lines p cs p cs
  | newline {p p' : Progress} {cs cs' : List Char} (t : Lines p cs p' cs') :
      Lines p ('\n' :: cs) p' cs'
  | line {p p₁ p' : Progress} {c : Char} {cs cs₁ cs' : List Char} (hc : Begins c)
      (h : readLine p (c :: cs) = some (p₁, cs₁)) (hl : cs₁.length ≤ cs.length)
      (t : Lines p₁ cs₁ p' cs') : Lines p (c :: cs) p' cs'

theorem Lines.trans {p p₁ p' : Progress} {cs cs₁ cs' : List Char} (h₁ : Lines p cs p₁ cs₁)
    (h₂ : Lines p₁ cs₁ p' cs') : Lines p cs p' cs' := by
  induction h₁ with
  | refl => exact h₂
  | newline _ ih => exact .newline (ih h₂)
  | line hc h hl _ ih => exact .line hc h hl (ih h₂)

theorem readLines_newline (fuel : Nat) (p : Progress) (cs : List Char) :
    readLines fuel p ('\n' :: cs) = readLines fuel p cs := by
  cases fuel with
  | zero => rfl
  | succ fuel => rfl

theorem readLines_line {p p₁ : Progress} {c : Char} {cs cs₁ : List Char} (hc : Begins c)
    (h : readLine p (c :: cs) = some (p₁, cs₁)) (fuel : Nat) :
    readLines (fuel + 1) p (c :: cs) = readLines fuel p₁ cs₁ := by
  rw [readLines, skipLines_of_begins hc]
  dsimp only
  rw [h]
  rfl

/-- Lines up to the end are a document. -/
theorem Lines.readLines {p p' : Progress} {cs : List Char} (h : Lines p cs p' []) {fuel : Nat}
    (hf : cs.length < fuel) : readLines fuel p cs = some p'.root := by
  -- a line takes at least one character, so the fuel lasts
  generalize he : ([] : List Char) = cs' at h
  induction h generalizing fuel with
  | refl p cs =>
      subst he
      obtain ⟨fuel, rfl⟩ := Nat.exists_eq_add_one_of_ne_zero (Nat.ne_zero_of_lt hf)
      rfl
  | newline _ ih =>
      rw [readLines_newline]
      exact ih (Nat.lt_of_succ_lt hf) he
  | line hc h hl _ ih =>
      obtain ⟨fuel, rfl⟩ := Nat.exists_eq_add_one_of_ne_zero (Nat.ne_zero_of_lt hf)
      rw [readLines_line hc h]
      exact ih (Nat.lt_of_le_of_lt hl (Nat.lt_of_succ_lt_succ hf)) he

/-- No line begins with a byte order mark. -/
theorem Lines.head?_ne {p p' : Progress} {cs : List Char} (h : Lines p cs p' []) :
    cs.head? ≠ some '\uFEFF' := by
  cases h with
  | refl => simp
  | newline => simp
  | @line _ _ _ c cs _ _ _ h _ _ =>
      rintro hc
      obtain rfl : c = '\uFEFF' := by simpa using hc
      rw [show readLine p ('\uFEFF' :: cs) = none from rfl] at h
      cases h

/-! ### Single lines -/

theorem begins_of_isBareKeyChar {c : Char} (h : isBareKeyChar c = true) : Begins c where
  blank := not_isBlank_of_isBareKeyChar h
  comment := by rintro rfl; exact absurd h (by decide)
  newline := by rintro rfl; exact absurd h (by decide)
  carriage := by rintro rfl; exact absurd h (by decide)

/-- The table at `path`, with the keys in front of it written as `p`. -/
structure Place (path : List String) (p : String) (plug : Table → Table) : Prop where
  focus : Focus path plug
  bare : ∀ s ∈ path, IsBare s
  written : p.toList = dots path

namespace Place

variable {path : List String} {p k : String} {plug : Table → Table} {before : Table}

theorem root : Place [] "" id := ⟨.root, by simp, rfl⟩

theorem bare_concat (h : Place path p plug) (hk : IsBare k) : ∀ s ∈ path ++ [k], IsBare s :=
  fun s hs => by
    rcases List.mem_append.mp hs with hs | hs
    · exact h.bare s hs
    · exact List.mem_singleton.mp hs ▸ hk

theorem written_concat (h : Place path p plug) (k : String) :
    (p ++ k ++ ".").toList = dots (path ++ [k]) := by
  rw [String.toList_append, String.toList_append, h.written, dots_concat]
  rfl

theorem table (h : Place path p plug) (hk : IsBare k) (hb : k ∉ before.map (·.1)) :
    Place (path ++ [k]) (p ++ k ++ ".") fun t => plug (before ++ [(k, .table .header t)]) :=
  ⟨h.focus.table hb .header, h.bare_concat hk, h.written_concat k⟩

theorem element (h : Place path p plug) (hk : IsBare k) (hb : k ∉ before.map (·.1))
    (es : List Table) :
    Place (path ++ [k]) (p ++ k ++ ".") fun t => plug (before ++ [(k, .tables (t :: es))]) :=
  ⟨h.focus.element hb es, h.bare_concat hk, h.written_concat k⟩

end Place

section SingleLines

variable {path : List String} {p k : String} {plug : Table → Table} {before : Table}

/-- A header begins with a character of a key. -/
theorem Place.dotted_eq_cons (h : Place path p plug) (hk : IsBare k) :
    ∃ c cs, (p ++ k).toList = c :: cs ∧ isBareKeyChar c = true := by
  rw [String.toList_append, h.written]
  cases path with
  | nil => exact hk.eq_cons
  | cons s path =>
      obtain ⟨c, cs, hs, hc⟩ := (h.bare s List.mem_cons_self).eq_cons
      refine ⟨c, cs ++ ['.'] ++ dots path ++ k.toList, ?_, hc⟩
      simp [dots, hs]

theorem readHeader_dotted (h : Place path p plug) (hk : IsBare k) (close rest : List Char) :
    readHeader (']' :: close) ((p ++ k).toList ++ ']' :: (close ++ '\n' :: rest)) =
      some (path ++ [k], rest) := by
  have hl := length_le_dots path
  rw [readHeader, String.toList_append, h.written, readKey_dotted h.bare hk _ (by simp; omega),
    Option.bind_some]
  dsimp only
  rw [Text.dropStart?_eq_some.mpr (List.cons_append (a := ']')).symm, Option.bind_some]
  rfl

/-- A key in front of its equals sign. -/
theorem readKey_assign (hk : IsBare k) (fuel : Nat) (cs : List Char) :
    readKey (fuel + 1) (k.toList ++ ' ' :: '=' :: cs) = some ([k], '=' :: cs) := by
  have hb : skipBlanks (' ' :: '=' :: cs) = '=' :: cs := rfl
  rw [readKey_bare hk (by simpa using by decide) (by rw [hb]; simp), hb]

/-- A value behind its equals sign. -/
theorem readValue_assign {v : Document} (hv : Plain v) {fuel : Nat}
    (hf : (value v).toList.length ≤ fuel) (rest : List Char) :
    readValue (fuel + 1) depthMax (skipBlanks (' ' :: ((value v).toList ++ '\n' :: rest))) =
      some (readingOf v, '\n' :: rest) := by
  obtain ⟨d, ds, hvd, hd⟩ := hv.begins
  have hb : skipBlanks (' ' :: ((value v).toList ++ '\n' :: rest)) =
      (value v).toList ++ '\n' :: rest := by
    rw [hvd, List.cons_append]
    exact skipBlanks_of_head hd.blank _
  rw [hb]
  exact readValue_value hv 79 hf (ends_newline rest)

theorem readLine_assign (h : Place path p plug) (hk : IsBare k) (hb : k ∉ before.map (·.1))
    {v : Document} (hv : Plain v) (rest : List Char) :
    readLine ⟨plug before, path⟩
      (k.toList ++ ' ' :: '=' :: ' ' :: ((value v).toList ++ '\n' :: rest)) =
        some (⟨plug (before ++ [(k, .value (readingOf v))]), path⟩, rest) := by
  obtain ⟨c, cs, hkc, hc⟩ := hk.eq_cons
  have hno : c ≠ '[' := by rintro rfl; exact absurd hc (by decide)
  unfold readLine
  split
  · rename_i heq
    rw [hkc] at heq
    exact absurd (List.cons.inj heq).1 hno
  · rename_i heq
    rw [hkc] at heq
    exact absurd (List.cons.inj heq).1 hno
  · rw [readKey_assign hk, Option.bind_some]
    change (readValue (_ + 1) depthMax
      (skipBlanks (' ' :: ((value v).toList ++ '\n' :: rest)))).bind _ = _
    rw [readValue_assign hv (by simp; omega), Option.bind_some]
    dsimp only
    rw [h.focus.assign hb]
    rfl

/-- The line of a key and its value. -/
theorem lines_assign (h : Place path p plug) (hk : IsBare k) (hb : k ∉ before.map (·.1))
    {v : Document} (hv : Plain v) (rest : List Char) :
    Lines ⟨plug before, path⟩ ((k ++ " = " ++ value v ++ "\n").toList ++ rest)
      ⟨plug (before ++ [(k, .value (readingOf v))]), path⟩ rest := by
  have he : (k ++ " = " ++ value v ++ "\n").toList ++ rest =
      k.toList ++ ' ' :: '=' :: ' ' :: ((value v).toList ++ '\n' :: rest) := by simp
  have hline := readLine_assign h hk hb hv rest
  obtain ⟨c, cs, hkc, hc⟩ := hk.eq_cons
  rw [he]
  rw [hkc, List.cons_append] at hline ⊢
  refine .line (begins_of_isBareKeyChar hc) hline ?_ (.refl _ _)
  simp only [List.length_cons, List.length_append]
  omega

/-- The line of a table's header. -/
theorem lines_header (h : Place path p plug) (hk : IsBare k) (hb : k ∉ before.map (·.1))
    (cur : List String) (rest : List Char) :
    Lines ⟨plug before, cur⟩ (("\n[" ++ (p ++ k) ++ "]\n").toList ++ rest)
      ⟨plug (before ++ [(k, .table .header [])]), path ++ [k]⟩ rest := by
  have he : ("\n[" ++ (p ++ k) ++ "]\n").toList ++ rest =
      '\n' :: '[' :: ((p ++ k).toList ++ ']' :: '\n' :: rest) := by simp
  have hr := readHeader_dotted h hk [] rest
  rw [List.nil_append] at hr
  obtain ⟨c, cs, hkc, hc⟩ := h.dotted_eq_cons hk
  rw [hkc, List.cons_append] at hr
  rw [he, hkc, List.cons_append]
  refine .newline (.line ⟨by decide, by decide, by decide, by decide⟩ ?_ ?_ (.refl _ _))
  · unfold readLine
    split
    · rename_i heq
      cases heq
      exact absurd hc (by decide)
    · rename_i heq
      cases heq
      rw [hr, Option.bind_some]
      dsimp only
      rw [h.focus.header hb]
      rfl
    · rename_i hno
      exact absurd rfl (hno _)
  · simp only [List.length_cons, List.length_append]
    omega

/-- The line of an element's header. -/
theorem lines_element {t t' : Table} (h : Place path p plug) (hk : IsBare k)
    (ht : t.element (path ++ [k]) = some t') (cur : List String) (rest : List Char) :
    Lines ⟨t, cur⟩ (("\n[[" ++ (p ++ k) ++ "]]\n").toList ++ rest) ⟨t', path ++ [k]⟩ rest := by
  have he : ("\n[[" ++ (p ++ k) ++ "]]\n").toList ++ rest =
      '\n' :: '[' :: '[' :: ((p ++ k).toList ++ ']' :: ([']'] ++ '\n' :: rest)) := by simp
  rw [he]
  refine .newline (.line ⟨by decide, by decide, by decide, by decide⟩ ?_ ?_ (.refl _ _))
  · rw [readLine, readHeader_dotted h hk, Option.bind_some]
    dsimp only
    rw [ht]
    rfl
  · simp only [List.length_cons, List.length_append]
    omega

end SingleLines

/-! ### Tables -/

theorem readingMembers_append (t u : Table) :
    Table.readingMembers (t ++ u) = Table.readingMembers t ++ Table.readingMembers u := by
  induction t with
  | nil => rfl
  | cons m t ih => rw [List.cons_append, Table.readingMembers, Table.readingMembers, ih]; rfl

/-- What the lines of a table's own keys add to it. -/
def ownItems (ms : List (String × Document)) : Table :=
  (ms.filter fun m => !isHeaded m.2).map fun m => (m.1, .value (readingOf m.2))

theorem ownItems_cons (m : String × Document) (ms : List (String × Document)) :
    ownItems (m :: ms) =
      (if isHeaded m.2 then [] else [(m.1, Item.value (readingOf m.2))]) ++ ownItems ms := by
  rw [ownItems, List.filter_cons]
  cases isHeaded m.2 <;> rfl

theorem map_fst_ownItems (ms : List (String × Document)) :
    (ownItems ms).map (·.1) = (ms.filter fun m => !isHeaded m.2).map (·.1) := by
  rw [ownItems, List.map_map]
  rfl

theorem readingMembers_ownItems (ms : List (String × Document)) :
    Table.readingMembers (ownItems ms) = memberReadings (ms.filter fun m => !isHeaded m.2) := by
  rw [ownItems]
  induction ms.filter fun m => !isHeaded m.2 with
  | nil => rfl
  | cons m ms ih => rw [List.map_cons, Table.readingMembers, ih]; rfl

section Tables

variable {path : List String} {p k : String} {plug : Table → Table} {before : Table}

theorem not_mem_of_nodup_append {ks ls : List String} {k : String}
    (h : (ks ++ k :: ls).Nodup) : k ∉ ks := fun hk =>
  (List.nodup_append.mp h).2.2 k hk k List.mem_cons_self rfl

/-- The lines of a table's own keys. -/
theorem lines_ownLines (h : Place path p plug) {ms : List (String × Document)}
    (hbare : ∀ m ∈ ms, IsBare m.1) (hplain : ∀ m ∈ ms, isHeaded m.2 = false → Plain m.2)
    (hnodup : (before.map (·.1) ++ ms.map (·.1)).Nodup) (rest : List Char) :
    Lines ⟨plug before, path⟩ ((ownLines ms).toList ++ rest)
      ⟨plug (before ++ ownItems ms), path⟩ rest := by
  induction ms generalizing before with
  | nil => simpa [ownLines, ownItems] using Lines.refl _ rest
  | cons m ms ih =>
      obtain ⟨k, v⟩ := m
      rw [List.forall_mem_cons] at hbare hplain
      rw [List.map_cons] at hnodup
      rw [ownLines, ownItems_cons]
      cases hv : isHeaded v with
      | true =>
          -- its text stands under a header of its own, further down
          simp only [if_true, String.empty_append, List.nil_append]
          exact ih hbare.2 hplain.2 (hnodup.sublist (List.Sublist.append_left
            (List.sublist_cons_self _ _) _))
      | false =>
          simp only [Bool.false_eq_true, if_false]
          rw [String.toList_append, List.append_assoc, ← List.append_assoc before]
          refine (lines_assign h hbare.1 (not_mem_of_nodup_append hnodup) (hplain.1 hv) _).trans
            (ih hbare.2 hplain.2 ?_)
          rw [List.map_append, List.append_assoc]
          exact hnodup

/-- The text of the members fills an empty table, wherever it stands. -/
def Fills (ms : List (String × Document)) : Prop :=
  ∀ {path : List String} {p : String} {plug : Table → Table}, Place path p plug →
    ∀ rest, ∃ items cur,
      Lines ⟨plug [], path⟩ ((ownLines ms).toList ++ ((headed p ms).toList ++ rest))
        ⟨plug items, cur⟩ rest ∧
      Table.reading items = readingOf (.table ms)

/-- The text of a value under headers adds the value to the table in which its key is not bound. -/
def Placed (k : String) (v : Document) : Prop :=
  ∀ {path : List String} {p : String} {plug : Table → Table} {before : Table},
    Place path p plug → k ∉ before.map (·.1) →
    ∀ cur rest, ∃ item cur',
      Lines ⟨plug before, cur⟩ ((headedValue (p ++ k) v).toList ++ rest)
        ⟨plug (before ++ [(k, item)]), cur'⟩ rest ∧
      Table.readingItem item = readingOf v

theorem headedValue_of_not_isHeaded {v : Document} (h : isHeaded v = false) (s : String) :
    headedValue s v = "" := by
  cases v with
  | table ms => cases h
  | list xs => rw [headedValue, h]; rfl
  | _ => rfl

/-- The tables among the members of a table. -/
theorem lines_headed (h : Place path p plug) {ms : List (String × Document)}
    (hp : ∀ m ∈ ms, isHeaded m.2 = true → Placed m.1 m.2)
    (hnodup : (before.map (·.1) ++ (ms.filter fun m => isHeaded m.2).map (·.1)).Nodup)
    (cur : List String) (rest : List Char) :
    ∃ items cur', Lines ⟨plug before, cur⟩ ((headed p ms).toList ++ rest)
        ⟨plug (before ++ items), cur'⟩ rest ∧
      Table.readingMembers items = memberReadings (ms.filter fun m => isHeaded m.2) := by
  induction ms generalizing before cur with
  | nil => exact ⟨[], cur, by simpa [headed] using Lines.refl _ rest, rfl⟩
  | cons m ms ih =>
      obtain ⟨k, v⟩ := m
      rw [List.forall_mem_cons] at hp
      rw [headed]
      cases hv : isHeaded v with
      | false =>
          rw [List.filter_cons_of_neg (by simp [hv])] at hnodup ⊢
          rw [headedValue_of_not_isHeaded hv, String.empty_append]
          exact ih hp.2 hnodup cur
      | true =>
          rw [List.filter_cons_of_pos (by exact hv)] at hnodup ⊢
          rw [List.map_cons] at hnodup
          rw [String.toList_append, List.append_assoc]
          obtain ⟨item, cur₁, hl₁, hi₁⟩ := hp.1 hv h (not_mem_of_nodup_append hnodup) cur
            ((headed p ms).toList ++ rest)
          obtain ⟨items, cur', hl₂, hi₂⟩ := @ih (before ++ [(k, item)]) hp.2
            (by rw [List.map_append, List.append_assoc]; exact hnodup) cur₁
          refine ⟨(k, item) :: items, cur', hl₁.trans ?_, ?_⟩
          · rw [List.append_assoc] at hl₂
            exact hl₂
          · rw [Table.readingMembers, hi₁, hi₂]
            rfl

/-- A table with different bare keys is filled by its text. -/
theorem fills {ms : List (String × Document)} (hnodup : (ms.map (·.1)).Nodup)
    (hbare : ∀ m ∈ ms, IsBare m.1) (hplain : ∀ m ∈ ms, isHeaded m.2 = false → Plain m.2)
    (hp : ∀ m ∈ ms, isHeaded m.2 = true → Placed m.1 m.2) : Fills ms := by
  intro path p plug h rest
  have hperm : (ms.filter (fun m => !isHeaded m.2) ++ ms.filter fun m => isHeaded m.2).Perm ms :=
    List.perm_append_comm.trans (List.filter_append_perm (fun m => isHeaded m.2) ms)
  have hn : ((ownItems ms).map (·.1) ++ (ms.filter fun m => isHeaded m.2).map (·.1)).Nodup := by
    rw [map_fst_ownItems, ← List.map_append]
    exact (hperm.map _).nodup_iff.mpr hnodup
  obtain ⟨items, cur, hl, hi⟩ := lines_headed h hp hn path rest
  have ho : Lines ⟨plug [], path⟩ ((ownLines ms).toList ++ ((headed p ms).toList ++ rest))
      ⟨plug (ownItems ms), path⟩ ((headed p ms).toList ++ rest) :=
    lines_ownLines h hbare hplain (by simpa using hnodup) _
  refine ⟨ownItems ms ++ items, cur, ho.trans hl, ?_⟩
  -- own keys come before the tables; the finished table has its keys in order again
  have hs : (Table.readingMembers (ownItems ms ++ items)).Perm (memberReadings ms) := by
    rw [readingMembers_append, readingMembers_ownItems, hi, memberReadings_eq_map,
      memberReadings_eq_map, memberReadings_eq_map, ← List.map_append]
    exact hperm.map _
  have hk : ((Table.readingMembers (ownItems ms ++ items)).map (·.1)).Nodup := by
    rw [(hs.map _).nodup_iff, map_fst_memberReadings]
    exact hnodup
  rw [Table.reading, readingOf, Table.sortMembers_eq_of_perm hs hk]

/-- A table under a header of its own. -/
theorem placed_table (hk : IsBare k) {ms : List (String × Document)} (hms : Fills ms) :
    Placed k (.table ms) := by
  intro path p plug before h hb cur rest
  obtain ⟨items, cur', hl, hi⟩ := hms (h.table hk hb) rest
  refine ⟨.table .header items, cur', ?_, hi⟩
  rw [headedValue]
  simp only [String.toList_append, List.append_assoc] at hl ⊢
  have hh := lines_header h hk hb cur ((ownLines ms).toList ++
    ((headed (p ++ k ++ ".") ms).toList ++ rest))
  simp only [String.toList_append, List.append_assoc] at hh
  exact hh.trans hl

/-- One element of an array of tables, once its header has opened it. -/
theorem lines_headedElement (h : Place path p plug) (hk : IsBare k) (hb : k ∉ before.map (·.1))
    {ms : List (String × Document)} (hms : Fills ms) {t : Table} {es : List Table}
    (ht : t.element (path ++ [k]) = some (plug (before ++ [(k, .tables ([] :: es))])))
    (cur : List String) (rest : List Char) :
    ∃ items cur', Lines ⟨t, cur⟩ (("\n[[" ++ (p ++ k) ++ "]]\n").toList ++
        ((ownLines ms).toList ++ ((headed (p ++ k ++ ".") ms).toList ++ rest)))
        ⟨plug (before ++ [(k, .tables (items :: es))]), cur'⟩ rest ∧
      Table.reading items = readingOf (.table ms) := by
  obtain ⟨items, cur', hl, hi⟩ := hms (h.element hk hb es) rest
  exact ⟨items, cur', (lines_element h hk ht cur _).trans hl, hi⟩

theorem headedElements_cons (s : String) (ms : List (String × Document)) (xs : List Document)
    (rest : List Char) :
    (headedElements s (.table ms :: xs)).toList ++ rest =
      ("\n[[" ++ s ++ "]]\n").toList ++ ((ownLines ms).toList ++
        ((headed (s ++ ".") ms).toList ++ ((headedElements s xs).toList ++ rest))) := by
  rw [headedElements]
  simp only [String.toList_append, List.append_assoc]

/-- The elements of an array of tables after the first. -/
theorem lines_headedElements (h : Place path p plug) (hk : IsBare k)
    (hb : k ∉ before.map (·.1)) {mss : List (List (String × Document))}
    (hms : ∀ ms ∈ mss, Fills ms) (es : List Table) (cur : List String) (rest : List Char) :
    ∃ es' cur', Lines ⟨plug (before ++ [(k, .tables es)]), cur⟩
        ((headedElements (p ++ k) (mss.map .table)).toList ++ rest)
        ⟨plug (before ++ [(k, .tables es')]), cur'⟩ rest ∧
      Table.readingElements es' [] = Table.readingElements es (readingsOf (mss.map .table)) := by
  induction mss generalizing es cur with
  | nil => exact ⟨es, cur, by simpa [headedElements] using Lines.refl _ rest, rfl⟩
  | cons ms mss ih =>
      rw [List.forall_mem_cons] at hms
      rw [List.map_cons, headedElements_cons]
      obtain ⟨items, cur₁, hl₁, hi₁⟩ := lines_headedElement h hk hb hms.1
        (h.focus.nextElement hb es) cur ((headedElements (p ++ k) (mss.map .table)).toList ++ rest)
      obtain ⟨es', cur', hl₂, hi₂⟩ := ih hms.2 (items :: es) cur₁
      refine ⟨es', cur', hl₁.trans hl₂, ?_⟩
      rw [hi₂, Table.readingElements, ← Table.reading, hi₁]
      rfl

theorem isHeaded_tables {mss : List (List (String × Document))} (hne : mss ≠ []) :
    isHeaded (.list (mss.map .table)) = true := by
  obtain ⟨ms, mss, rfl⟩ := List.exists_cons_of_ne_nil hne
  simp [isHeaded]

/-- An array of tables, each under a header of its own. -/
theorem placed_tables (hk : IsBare k) {mss : List (List (String × Document))} (hne : mss ≠ [])
    (hms : ∀ ms ∈ mss, Fills ms) : Placed k (.list (mss.map .table)) := by
  intro path p plug before h hb cur rest
  rw [headedValue, if_pos (isHeaded_tables hne)]
  -- the first header makes the array, the others add to it
  obtain ⟨ms, mss, rfl⟩ := List.exists_cons_of_ne_nil hne
  rw [List.forall_mem_cons] at hms
  rw [List.map_cons, headedElements_cons]
  obtain ⟨items, cur₁, hl₁, hi₁⟩ := lines_headedElement h hk hb hms.1 (h.focus.firstElement hb)
    cur ((headedElements (p ++ k) (mss.map .table)).toList ++ rest)
  obtain ⟨es, cur', hl₂, hi₂⟩ := lines_headedElements h hk hb hms.2 [items] cur₁ rest
  refine ⟨.tables es, cur', hl₁.trans hl₂, ?_⟩
  rw [Table.readingItem, hi₂, Table.readingElements, ← Table.reading, hi₁]
  rfl

end Tables

/-! ### Tidy documents -/

mutual
/-- The members of a table that can be written and read back. -/
inductive Tidy : List (String × Document) → Prop where
  | intro {ms : List (String × Document)} (nodup : (ms.map (·.1)).Nodup)
      (bare : ∀ m ∈ ms, IsBare m.1) (values : ∀ m ∈ ms, TidyValue m.2) : Tidy ms

/-- A value that can be written and read back. -/
inductive TidyValue : Document → Prop where
  | plain {d : Document} (h : Plain d) : TidyValue d
  | table {ms : List (String × Document)} (h : Tidy ms) : TidyValue (.table ms)
  | tables {mss : List (List (String × Document))} (hne : mss ≠ []) (h : ∀ ms ∈ mss, Tidy ms) :
      TidyValue (.list (mss.map .table))
end

/-- Members that are all plain are tidy. -/
theorem tidy_of_plain {ms : List (String × Document)} (hn : (ms.map (·.1)).Nodup)
    (hb : ∀ m ∈ ms, IsBare m.1) (hp : ∀ m ∈ ms, Plain m.2) : Tidy ms :=
  .intro hn hb fun m hm => .plain (hp m hm)

theorem TidyValue.isPlain {d : Document} (h : TidyValue d) (hd : isHeaded d = false) : Plain d := by
  cases h with
  | plain h => exact h
  | table => cases hd
  | tables hne => rw [isHeaded_tables hne] at hd; cases hd

mutual
theorem Tidy.fills {ms : List (String × Document)} (h : Tidy ms) : Fills ms :=
  match h with
  | .intro nodup bare values =>
    Toml.fills nodup bare (fun m hm => (values m hm).isPlain)
      fun m hm => (values m hm).placed (bare m hm)

theorem TidyValue.placed {d : Document} (h : TidyValue d) {k : String} (hk : IsBare k)
    (hd : isHeaded d = true) : Placed k d :=
  match h with
  | .plain h => by rw [h.isHeaded_eq_false] at hd; cases hd
  | .table h => placed_table hk h.fills
  | .tables hne h => placed_tables hk hne fun ms hm => (h ms hm).fills
end

theorem Lines.of_newline {p p' : Progress} {cs : List Char} (h : Lines p ('\n' :: cs) p' []) :
    Lines p cs p' [] := by
  cases h with
  | newline t => exact t
  | line hc => exact absurd rfl hc.newline

theorem Lines.read {p' : Progress} {s : String} (h : Lines ⟨[], []⟩ s.toList p' []) :
    read s = some p'.root.reading := by
  rw [Toml.read]
  split
  · rename_i heq
    exact absurd (by rw [heq]; rfl) h.head?_ne
  · rw [h.readLines (Nat.lt_succ_self _)]
    rfl

/-- A tidy document is read back from its text. -/
theorem Tidy.read_write {ms : List (String × Document)} (h : Tidy ms) :
    Toml.read (write ms) = some (readingOf (.table ms)) := by
  obtain ⟨items, cur, hl, hi⟩ := h.fills Place.root []
  have hbody : Lines ⟨[], []⟩ (ownLines ms ++ headed "" ms).toList ⟨items, cur⟩ [] := by
    rw [String.toList_append]
    simpa using hl
  have hwrite : Lines ⟨[], []⟩ (write ms).toList ⟨items, cur⟩ [] := by
    -- only an empty line may be missing
    rw [write]
    cases hs : Text.stripStart? (ownLines ms ++ headed "" ms) "\n" with
    | none => exact hbody
    | some s =>
        rw [Text.stripStart?_eq_some.mp hs, String.toList_append] at hbody
        exact hbody.of_newline
  rw [hwrite.read, ← hi]

end Readiness.Toml

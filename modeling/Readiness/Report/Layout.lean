import Readiness.Json.Writer
import Readiness.Text.Styled

/-!
# Report — Layout

A report is a document for machines and lines for people; the caller says which is wanted.
-/

namespace Readiness

/-- How a report is written. -/
inductive Layout where
  | json
  | lines (colours : Bool)
deriving DecidableEq, Repr

/-- A report, given both of its forms. -/
def Layout.write (document : Document) (lines : List Text.Line) : Layout → String
  | .json => Json.pretty document ++ "\n"
  | .lines colours => Text.Line.showAll colours lines

end Readiness

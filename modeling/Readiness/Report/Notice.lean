import Readiness.Report.Layout

/-!
# Report — Notice

What a command says that has nothing but a message to report.
-/

namespace Readiness

/-- The message of a command that succeeded. -/
structure Notice where
  message : String
deriving DecidableEq, Repr

namespace Notice

def toDocument (n : Notice) : Document :=
  .table [("success", .bool true), ("message", .text n.message)]

def lines (n : Notice) : List Text.Line := [[Text.plain n.message]]

def render (n : Notice) : Layout → String := Layout.write n.toDocument n.lines

end Notice

end Readiness

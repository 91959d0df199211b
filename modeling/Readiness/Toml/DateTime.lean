import Readiness.Instant

/-!
# Toml — DateTime

Dates and times as they stand in a document: a date, a time, or both, the two together with or
without an offset.  `DateTime.parse?` checks one and gives it in its one canonical spelling.
-/

namespace Readiness.Toml.DateTime

open Instant (digits? skip? daysInMonth pad)

/-- The key under which a date or time is kept in a document value. -/
def key : String := "$__toml_private_datetime"

/-- A date, and what follows it. -/
def date? (cs : List Char) : Option (String × List Char) := do
  let (y, cs) ← digits? 4 cs
  let cs ← skip? ['-'] cs
  let (m, cs) ← digits? 2 cs
  let cs ← skip? ['-'] cs
  let (d, cs) ← digits? 2 cs
  if 1 ≤ m ∧ m ≤ 12 ∧ 1 ≤ d ∧ d ≤ daysInMonth y m then
    some (pad 4 y ++ "-" ++ pad 2 m ++ "-" ++ pad 2 d, cs)
  else none

/-- The digits of a fraction, to nine places and without zeros at the end. -/
def fractionText (ds : List Char) : String :=
  let kept := ((ds.take 9).reverse.dropWhile (· == '0')).reverse
  "." ++ (if kept.isEmpty then "0" else String.ofList kept)

/-- An optional fraction. -/
def fraction? : List Char → Option (String × List Char)
  | '.' :: cs =>
    let ds := cs.takeWhile Char.isDigit
    if ds.isEmpty then none else some (fractionText ds, cs.dropWhile Char.isDigit)
  | cs => some ("", cs)

/-- Optional seconds with their fraction. -/
def seconds? : List Char → Option (String × List Char)
  | ':' :: cs => do
    let (s, cs) ← digits? 2 cs
    let (f, cs) ← fraction? cs
    if s ≤ 60 then some (":" ++ pad 2 s ++ f, cs) else none
  | cs => some ("", cs)

/-- A time, and what follows it. -/
def time? (cs : List Char) : Option (String × List Char) := do
  let (h, cs) ← digits? 2 cs
  let cs ← skip? [':'] cs
  let (m, cs) ← digits? 2 cs
  let (s, cs) ← seconds? cs
  if h < 24 ∧ m < 60 then some (pad 2 h ++ ":" ++ pad 2 m ++ s, cs) else none

/-- An optional offset, which is the end of the text. -/
def offset? : List Char → Option String
  | [] => some ""
  | ['Z'] | ['z'] => some "Z"
  | c :: cs => do
    let (h, cs) ← digits? 2 cs
    let cs ← skip? [':'] cs
    let (m, cs) ← digits? 2 cs
    if (c = '+' ∨ c = '-') ∧ cs.isEmpty ∧ h < 24 ∧ m < 60 then
      let sign := if c = '-' ∧ h + m ≠ 0 then "-" else "+"
      some (sign ++ pad 2 h ++ ":" ++ pad 2 m)
    else none

/-- The canonical spelling of a date or time. -/
def parse? (cs : List Char) : Option String :=
  match date? cs with
  | some (d, []) => some d
  | some (d, sep :: cs) =>
    if sep = 'T' ∨ sep = 't' ∨ sep = ' ' then do
      let (t, cs) ← time? cs
      let o ← offset? cs
      return d ++ "T" ++ t ++ o
    else none
  | none =>
    match time? cs with
    | some (t, []) => some t
    | _ => none

end Readiness.Toml.DateTime

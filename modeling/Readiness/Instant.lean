import Readiness.Text.Basic

/-!
# Instant

Points in time, read from and written in the RFC 3339 format.

* `Instant.parse?` reads a date and time with an offset and converts it to UTC;
* `Instant.timestamp` and `Instant.compact` write it;
* `Instant.ofNanoseconds` is the reading of a clock.

An offset is a whole number of minutes, so the seconds, a leap second among them, are the same in
every zone.
-/

namespace Readiness

/-- A point in time: minutes since 1970 in UTC, the second within the minute (60 in a leap second),
and nanoseconds. -/
structure Instant where
  minutes : Int
  second : Nat
  nano : Nat
deriving DecidableEq, Repr

namespace Instant

/-- The instant so many nanoseconds after the beginning of 1970. -/
def ofNanoseconds (n : Int) : Instant :=
  ⟨n / (60 * 10 ^ 9), (n / 10 ^ 9 % 60).toNat, (n % 10 ^ 9).toNat⟩

/-! ### The calendar -/

def isLeapYear (y : Int) : Bool := y % 4 == 0 && (y % 100 != 0 || y % 400 == 0)

def daysInMonth (y : Int) : Nat → Nat
  | 2 => if isLeapYear y then 29 else 28
  | 4 | 6 | 9 | 11 => 30
  | _ => 31

/-- Days since 1970 of a date.  Years are counted from March, so that a leap day ends its year. -/
def daysOfDate (y : Int) (m d : Nat) : Int :=
  let y' := if m ≤ 2 then y - 1 else y
  let era := y' / 400
  let yearOfEra := y' - era * 400
  let dayOfYear : Int := (153 * (if m > 2 then m - 3 else m + 9) + 2) / 5 + d - 1
  let dayOfEra := yearOfEra * 365 + yearOfEra / 4 - yearOfEra / 100 + dayOfYear
  era * 146097 + dayOfEra - 719468

/-- The date of a number of days since 1970. -/
def dateOfDays (days : Int) : Int × Nat × Nat :=
  let z := days + 719468
  let era := z / 146097
  let dayOfEra := z - era * 146097
  let yearOfEra := (dayOfEra - dayOfEra / 1460 + dayOfEra / 36524 - dayOfEra / 146096) / 365
  let dayOfYear := dayOfEra - (365 * yearOfEra + yearOfEra / 4 - yearOfEra / 100)
  let mp := (5 * dayOfYear + 2) / 153
  let d := dayOfYear - (153 * mp + 2) / 5 + 1
  let m := if mp < 10 then mp + 3 else mp - 9
  let y := yearOfEra + era * 400 + (if m ≤ 2 then 1 else 0)
  (y, m.toNat, d.toNat)

/-! ### Reading -/

/-- Exactly `n` digits, and the rest. -/
def digits? : Nat → List Char → Option (Nat × List Char)
  | 0, cs => some (0, cs)
  | n + 1, c :: cs =>
    if c.isDigit then
      (digits? n cs).map fun (v, r) => ((c.toNat - '0'.toNat) * 10 ^ n + v, r)
    else none
  | _ + 1, [] => none

/-- The rest after one of the given characters. -/
def skip? (allowed : List Char) : List Char → Option (List Char)
  | c :: cs => if c ∈ allowed then some cs else none
  | [] => none

/-- An optional fraction of a second in nanoseconds; digits beyond the ninth do not count. -/
def fraction? : List Char → Option (Nat × List Char)
  | '.' :: cs =>
    let ds := cs.takeWhile Char.isDigit
    if ds.isEmpty then none
    else
      let nine := (ds ++ List.replicate 9 '0').take 9
      some (nine.foldl (fun n c => n * 10 + (c.toNat - '0'.toNat)) 0, cs.dropWhile Char.isDigit)
  | cs => some (0, cs)

/-- An offset from UTC in minutes, which is the end of the text. -/
def offset? : List Char → Option Int
  | ['Z'] | ['z'] => some 0
  | c :: cs => do
    let sign : Int ← if c = '+' then some 1 else if c = '-' ∨ c = '\u2212' then some (-1) else none
    let (h, cs) ← digits? 2 cs
    let cs ← skip? [':'] cs
    let (m, cs) ← digits? 2 cs
    if cs.isEmpty ∧ h < 24 ∧ m < 60 then some (sign * (h * 60 + m)) else none
  | [] => none

/-- The instant a text in the RFC 3339 format names. -/
def parse? (s : String) : Option Instant := do
  let (y, cs) ← digits? 4 s.toList
  let cs ← skip? ['-'] cs
  let (mo, cs) ← digits? 2 cs
  let cs ← skip? ['-'] cs
  let (d, cs) ← digits? 2 cs
  let cs ← skip? ['T', 't', ' '] cs
  let (h, cs) ← digits? 2 cs
  let cs ← skip? [':'] cs
  let (mi, cs) ← digits? 2 cs
  let cs ← skip? [':'] cs
  let (sec, cs) ← digits? 2 cs
  let (nano, cs) ← fraction? cs
  let offset ← offset? cs
  if 1 ≤ mo ∧ mo ≤ 12 ∧ 1 ≤ d ∧ d ≤ daysInMonth y mo ∧ h < 24 ∧ mi < 60 ∧ sec ≤ 60 then
    some ⟨daysOfDate y mo d * 1440 + (h * 60 + mi : Nat) - offset, sec, nano⟩
  else none

/-! ### Writing -/

def pad (width n : Nat) : String := Text.padStart width '0' (toString n)

/-- Years from 0 to 9999 have four digits, others a sign and at least four. -/
def year (y : Int) : String :=
  if 0 ≤ y ∧ y ≤ 9999 then pad 4 y.toNat
  else (if y < 0 then "-" else "+") ++ pad 4 y.natAbs

/-- No fraction, or 3, 6 or 9 digits of it, whichever are enough. -/
def fraction (nano : Nat) : String :=
  if nano = 0 then ""
  else if nano % 1000000 = 0 then "." ++ pad 3 (nano / 1000000)
  else if nano % 1000 = 0 then "." ++ pad 6 (nano / 1000)
  else "." ++ pad 9 nano

/-- Date and time with the given separators. -/
def written (t : Instant) (dash colon : String) : String :=
  let (y, m, d) := dateOfDays (t.minutes / 1440)
  let minute := (t.minutes % 1440).toNat
  year y ++ dash ++ pad 2 m ++ dash ++ pad 2 d ++ "T" ++ pad 2 (minute / 60) ++ colon ++
    pad 2 (minute % 60) ++ colon ++ pad 2 t.second

/-- The RFC 3339 form in UTC. -/
def timestamp (t : Instant) : String := t.written "-" ":" ++ fraction t.nano ++ "+00:00"

/-- The form without separators, to the second. -/
def compact (t : Instant) : String := t.written "" "" ++ "Z"

end Instant

end Readiness

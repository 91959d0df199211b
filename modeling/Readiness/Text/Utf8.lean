/-!
# Text — Utf8

Reading bytes as UTF-8.  `decode` gives one element for each scalar value and one `none` for each
ill-formed sequence, where a sequence is as long as it could still have been completed; strict and
lossy reading are two views of it.
-/

namespace Readiness.Text.Utf8

/-- How many bytes follow a lead byte, the range of the first of them, and the lead's own bits. -/
def lead? (b : UInt8) : Option (Nat × UInt8 × UInt8 × Nat) :=
  if 0xC2 ≤ b && b ≤ 0xDF then some (1, 0x80, 0xBF, b.toNat - 0xC0)
  else if b == 0xE0 then some (2, 0xA0, 0xBF, 0)
  else if b == 0xED then some (2, 0x80, 0x9F, 13)
  else if 0xE1 ≤ b && b ≤ 0xEF then some (2, 0x80, 0xBF, b.toNat - 0xE0)
  else if b == 0xF0 then some (3, 0x90, 0xBF, 0)
  else if 0xF1 ≤ b && b ≤ 0xF3 then some (3, 0x80, 0xBF, b.toNat - 0xF0)
  else if b == 0xF4 then some (3, 0x80, 0x8F, 4)
  else none

/-- What is being read: nothing, or a sequence that lacks `more` bytes, the next one between `lo`
and `hi`. -/
inductive Pending where
  | start
  | inside (more : Nat) (lo hi : UInt8) (value : Nat)

/-- A byte that begins something new. -/
def begin (b : UInt8) : List (Option Char) × Pending :=
  if b < 0x80 then ([some (Char.ofNat b.toNat)], .start)
  else
    match lead? b with
    | some (more, lo, hi, value) => ([], .inside more lo hi value)
    | none => ([none], .start)

/-- One byte more: what it completes, and what is then being read. -/
def step : Pending → UInt8 → List (Option Char) × Pending
  | .start, b => begin b
  | .inside more lo hi value, b =>
    if lo ≤ b && b ≤ hi then
      let value := value * 64 + (b.toNat - 0x80)
      if more ≤ 1 then ([some (Char.ofNat value)], .start)
      else ([], .inside (more - 1) 0x80 0xBF value)
    else
      let (out, next) := begin b
      (none :: out, next)

/-- Reads on from a state; a sequence cut off by the end is ill-formed. -/
def decodeFrom : Pending → List UInt8 → List (Option Char)
  | .start, [] => []
  | .inside .., [] => [none]
  | p, b :: bs => (step p b).1 ++ decodeFrom (step p b).2 bs

/-- The scalar values of the bytes, `none` for each ill-formed sequence. -/
def decode (bytes : ByteArray) : List (Option Char) := decodeFrom .start bytes.toList

/-- The text, each ill-formed sequence replaced by U+FFFD. -/
def lossy (bytes : ByteArray) : String :=
  match String.fromUTF8? bytes with
  | some s => s
  | none => String.ofList ((decode bytes).map fun c => c.getD '\uFFFD')

end Readiness.Text.Utf8

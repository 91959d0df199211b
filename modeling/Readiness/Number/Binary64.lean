import Readiness.Core

/-!
# Number — Binary64

Numbers in the binary64 format, as their 64 bits.

* `ofRatio` rounds a quotient to the nearest number, a tie to the even one;
* `ofDecimal` reads `digits · 10 ^ exponent`, rounded once;
* `mul` and `div` are the rounded operations on nonnegative numbers.
-/

namespace Readiness.Number

/-- A number in the binary64 format. -/
structure Binary64 where
  bits : UInt64
deriving DecidableEq, Repr

namespace Binary64

/-- Positive infinity's bits, which no finite nonnegative number reaches. -/
def infinityBits : Nat := 0x7FF0000000000000

def infinity : Binary64 := ⟨UInt64.ofNat infinityBits⟩

def nan : Binary64 := ⟨0x7FF8000000000000⟩

/-- Neither an infinity nor no number at all. -/
def isFinite (x : Binary64) : Bool := decide (x.bits.toNat % 2 ^ 63 < infinityBits)

def isInfinite (x : Binary64) : Bool := x.bits.toNat % 2 ^ 63 == infinityBits

/-- The number with its sign turned. -/
def neg (x : Binary64) : Binary64 := ⟨x.bits ^^^ 0x8000000000000000⟩

/-- `num / den` in units of `2 ^ e`, as a quotient of naturals. -/
def scaled (num den : Nat) (e : Int) : Nat × Nat :=
  if e < 0 then (num * 2 ^ (-e).toNat, den) else (num, den * 2 ^ e.toNat)

/-- The quotient rounded to a natural, a tie to the even one. -/
def roundQuotient (num den : Nat) : Nat :=
  let q := num / den
  let twice := 2 * (num % den)
  if twice < den then q else if den < twice then q + 1 else q + q % 2

/-- The unit in the last place for `num / den`: 53 binary digits, but no unit below `2 ^ -1074`. -/
def unitExponent (num den : Nat) : Int :=
  let guess : Int := (num.log2 : Int) - (den.log2 : Int) - 52
  let (n, d) := scaled num den guess
  max (-1074) (if n / d < 2 ^ 52 then guess - 1 else guess)

/-- The number nearest to `num / den`, a tie to the even one; from the overflow threshold on it is
infinite. -/
def ofRatio (num den : Nat) : Binary64 :=
  if num = 0 then ⟨0⟩
  else
    let e := unitExponent num den
    let (n, d) := scaled num den e
    let bits := (e + 1074).toNat * 2 ^ 52 + roundQuotient n d
    ⟨UInt64.ofNat (min bits infinityBits)⟩

/-- `digits · 10 ^ exponent`, rounded once. -/
def ofDecimal (digits : Nat) (exponent : Int) : Binary64 :=
  let size : Int := (digits.log2 : Int) / 3
  if digits = 0 ∨ exponent + size + 1 < -400 then ⟨0⟩
  else if 400 < exponent then infinity
  else if exponent < 0 then ofRatio digits (10 ^ (-exponent).toNat)
  else ofRatio (digits * 10 ^ exponent.toNat) 1

/-- The value of a finite nonnegative number, as a quotient. -/
def toRatio (x : Binary64) : Nat × Nat :=
  let b := x.bits.toNat
  let field := b / 2 ^ 52
  let fraction := b % 2 ^ 52
  if field = 0 then (fraction, 2 ^ 1074)
  else
    let m := fraction + 2 ^ 52
    if field < 1075 then (m, 2 ^ (1075 - field)) else (m * 2 ^ (field - 1075), 1)

/-- The rounded product of finite nonnegative numbers. -/
def mul (x y : Binary64) : Binary64 :=
  let (a, b) := x.toRatio
  let (c, d) := y.toRatio
  ofRatio (a * c) (b * d)

/-- The rounded quotient of finite nonnegative numbers, the divisor not zero. -/
def div (x y : Binary64) : Binary64 :=
  let (a, b) := x.toRatio
  let (c, d) := y.toRatio
  ofRatio (a * d) (b * c)

end Binary64

end Readiness.Number

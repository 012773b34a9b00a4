import Barcode.Number.Rounding
import Barcode.Text.Basic

/-!
# Binary floating-point numbers of 64 bits

A document's numbers with a point or an exponent. A finite one is held exactly, as a natural
mantissa below `2 ^ 53` times a power of two, so reading and writing it are integer
arithmetic. Decimal numerals are rounded to the nearest such number, a half to the even
mantissa, and to infinity beyond the largest one.
-/

namespace Barcode.Number

/-- A number of the 64-bit binary format, zero with both signs. -/
inductive Binary64 where
  | nan
  | infinite (negative : Bool)
  /-- The number `mantissa * 2 ^ exponent`, with its sign. -/
  | finite (negative : Bool) (mantissa : Nat) (exponent : Int)
  deriving DecidableEq, Repr

namespace Binary64

/-- The exponent of the subnormal numbers, and of zero. -/
def leastExponent : Int := -1074

/-- The largest exponent of a finite number. -/
def greatestExponent : Int := 971

def zero (negative : Bool) : Binary64 := .finite negative 0 leastExponent

/-- The quotient `num / (den * 2 ^ exponent)`, as numerator and denominator. -/
def scaled (num den : Nat) (exponent : Int) : Nat × Nat :=
  if 0 ≤ exponent then (num, den * twoTo exponent.toNat) else (num * twoTo (-exponent).toNat, den)

/-- The least `k` with `num / den < 2 ^ k`, for positive numbers. -/
def magnitude (num den : Nat) : Int :=
  let estimate : Int := (Nat.log2 num : Int) - Nat.log2 den
  let (n, d) := scaled num den estimate
  if d ≤ n then estimate + 1 else estimate

/-- The number nearest to a quotient, a half going to the even mantissa. -/
def ofRatio (negative : Bool) (num den : Nat) : Binary64 :=
  if num = 0 then zero negative
  else
    let exponent := max (magnitude num den - 53) leastExponent
    let (n, d) := scaled num den exponent
    let mantissa := roundHalfEven n d
    let (mantissa, exponent) :=
      if mantissa = twoTo 53 then (twoTo 52, exponent + 1) else (mantissa, exponent)
    if greatestExponent < exponent then .infinite negative
    else .finite negative mantissa exponent

/-- The number nearest to `digits * 10 ^ exponent`. Numerals too large or too small for any
finite number but zero are recognised by the place of their first digit. -/
def ofDecimal (negative : Bool) (digits : Nat) (exponent : Int) : Binary64 :=
  let place := (Text.ofNat digits).length + exponent
  if digits = 0 then zero negative
  else if 310 < place then .infinite negative
  else if place < -330 then zero negative
  else if 0 ≤ exponent then ofRatio negative (digits * tenTo exponent.toNat) 1
  else ofRatio negative digits (tenTo (-exponent).toNat)

def isZero : Binary64 → Bool
  | .finite _ mantissa _ => mantissa = 0
  | _ => false

end Binary64

end Barcode.Number

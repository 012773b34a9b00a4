import Barcode.Fault.Basic
import Barcode.Number.Rounding

/-!
# Decimals of limited precision

A decimal is a signed coefficient times a power of ten. The exponent is kept, so `74` shifted
by three places is `0.074` and `70` shifted by one is `7.0`. A coefficient of more than 28
digits is rounded to 28, a half to the even neighbour, and the exponent of the first digit
stays within ±999999.
-/

namespace Barcode.Number

/-- A decimal: sign, coefficient and exponent of ten. -/
structure Scaled where
  negative : Bool
  coefficient : Nat
  exponent : Int
  deriving DecidableEq, Repr

namespace Scaled

def precision : Nat := 28

/-- The bound on the exponent of the first digit. -/
def exponentLimit : Int := 999999

/-- The exponent of the last digit of the smallest decimals. -/
def leastExponent : Int := -1000026

def greatestExponent : Int := 999972

/-- The largest number of places by which a decimal is shifted. -/
def shiftLimit : Nat := 2000054

/-- The coefficient without its last `places` digits, rounded. -/
def dropDigits (coefficient places : Nat) : Nat :=
  if (Text.ofNat coefficient).length < places then 0
  else roundHalfEven coefficient (tenTo places)

/-- Rounds a decimal to the precision and the range of exponents. -/
def fit (x : Scaled) : Except Fault Scaled :=
  if x.coefficient = 0 then
    .ok { x with exponent := max leastExponent (min exponentLimit x.exponent) }
  else
    let last : Int := (Text.ofNat x.coefficient).length + x.exponent - precision
    if greatestExponent < last then .error .decimalOverflow
    else
      let last := max last leastExponent
      if last ≤ x.exponent then .ok x
      else
        let rounded := dropDigits x.coefficient (last - x.exponent).toNat
        if rounded < tenTo precision then .ok ⟨x.negative, rounded, last⟩
        else if greatestExponent < last + 1 then .error .decimalOverflow
        else .ok ⟨x.negative, rounded / 10, last + 1⟩

/-- The integer `value` with its point moved by `places` digits, to the right when positive. -/
def shift (value places : Int) : Except Fault Scaled :=
  if shiftLimit < places.natAbs then .error .shiftTooLarge
  else fit ⟨value < 0, value.natAbs, places⟩

/-- The text of a decimal: positional while the exponent is not positive and at most five
zeros follow the point, otherwise one digit before the point and an exponent. -/
def text (x : Scaled) : Text :=
  let digits := Text.ofNat x.coefficient
  let point : Int := digits.length + x.exponent
  let body :=
    if x.exponent ≤ 0 && -6 < point then
      if point ≤ 0 then '0' :: '.' :: List.replicate (-point).toNat '0' ++ digits
      else if x.exponent = 0 then digits
      else digits.take point.toNat ++ '.' :: digits.drop point.toNat
    else
      let exponent := point - 1
      (if digits.length ≤ 1 then digits else digits.take 1 ++ '.' :: digits.drop 1)
        ++ 'E' :: (if exponent < 0 then '-' else '+') :: Text.ofNat exponent.natAbs
  if x.negative then '-' :: body else body

end Scaled

end Barcode.Number

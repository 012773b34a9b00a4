import Barcode.Number.Binary64

/-!
# The shortest decimal that reads back

A finite number is written with the fewest digits whose decimal reads back as that number.
On the grid of numerals with a given count of digits only the number's two neighbours can do
so; of two that do, the nearer is taken, and the even one of two equally near.

The numeral stands in positional notation while its first digit lies between the fourth
place after the point and the sixteenth before it, otherwise with an exponent of at least two
digits. A whole number keeps one zero after the point.
-/

namespace Barcode.Number.Binary64

/-- A decimal numeral: the digits, as a natural number, times a power of ten. -/
structure Decimal where
  digits : Nat
  exponent : Int
  deriving DecidableEq, Repr

/-- The least `k` with `num / den < 10 ^ k`, for positive numbers. -/
def decimalMagnitude (num den : Nat) : Int :=
  if den ≤ num then (Text.ofNat (num / den)).length
  else 1 - (Text.ofNat ((den - 1) / num)).length

/-- The numeral of `count` digits that reads back as `num / den`, if there is one. -/
def decimalOf? (num den : Nat) (count : Nat) : Option Decimal :=
  let exponent := decimalMagnitude num den - count
  let (n, d) :=
    if 0 ≤ exponent then (num, den * tenTo exponent.toNat)
    else (num * tenTo (-exponent).toNat, den)
  let below := n / d
  let reads (digits : Nat) : Bool := ofDecimal false digits exponent = ofRatio false num den
  let nearest := roundHalfEven n d
  if reads nearest then some ⟨nearest, exponent⟩
  else if reads (2 * below + 1 - nearest) then some ⟨2 * below + 1 - nearest, exponent⟩
  else none

/-- The numeral with the fewest digits that reads back; seventeen digits always do. -/
def shortest (num den : Nat) : Decimal :=
  ((List.range 17).findSome? fun less => decimalOf? num den (less + 1)).getD ⟨num / den, 0⟩

def trimmedDigits (digits : Nat) : Text :=
  ((Text.ofNat digits).reverse.dropWhile (· == '0')).reverse

/-- The digits of a numeral laid out, where the point stands after the digit at `point`. -/
def layOut (digits : Text) (point : Int) : Text :=
  if -3 ≤ point && point ≤ 16 then
    if point ≤ 0 then '0' :: '.' :: List.replicate (-point).toNat '0' ++ digits
    else if digits.length ≤ point.toNat then digits.rightpad point.toNat '0' ++ ['.', '0']
    else digits.take point.toNat ++ '.' :: digits.drop point.toNat
  else
    let mantissa := if digits.length ≤ 1 then digits else digits.take 1 ++ '.' :: digits.drop 1
    let exponent := point - 1
    mantissa ++ 'e' :: (if exponent < 0 then '-' else '+')
      :: Text.padZeros 2 (Text.ofNat exponent.natAbs)

def text : Binary64 → Text
  | .nan => ['n', 'a', 'n']
  | .infinite negative => (if negative then ['-'] else []) ++ ['i', 'n', 'f']
  | .finite negative mantissa exponent =>
    (if negative then ['-'] else []) ++
      if mantissa = 0 then ['0', '.', '0']
      else
        let (num, den) :=
          if 0 ≤ exponent then (mantissa * twoTo exponent.toNat, 1)
          else (mantissa, twoTo (-exponent).toNat)
        let decimal := shortest num den
        layOut (trimmedDigits decimal.digits)
          ((Text.ofNat decimal.digits).length + decimal.exponent)

end Barcode.Number.Binary64

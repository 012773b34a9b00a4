import Barcode.Ean.Code
import Barcode.Text.Numeral

/-!
# Check digits of embedded payloads

A payload of four or five digits inside an EAN-13 has a check digit of its own. Each place has
a weighting table, which gives every digit its weight; the weights are added and the sum is
turned into the check digit.
-/

namespace Barcode.Ean

/-- The weights of a digit that counts twice, less the tens of its double. -/
def twoMinus : List Nat := [0, 2, 4, 6, 8, 9, 1, 3, 5, 7]

/-- The weights of a digit that counts three times. -/
def three : List Nat := [0, 3, 6, 9, 2, 5, 8, 1, 4, 7]

/-- The weights of a digit that counts five times, plus the tens. -/
def fivePlus : List Nat := [0, 5, 1, 6, 2, 7, 3, 8, 4, 9]

/-- The weights of a digit that counts five times, less the tens. -/
def fiveMinus : List Nat := [0, 5, 9, 4, 8, 3, 7, 2, 6, 1]

def fiveDigitTables : List (List Nat) := [fivePlus, twoMinus, fiveMinus, fivePlus, twoMinus]

def fourDigitTables : List (List Nat) := [twoMinus, twoMinus, three, fiveMinus]

/-- The weight of a digit in a table. The numbers from −10 to −1 count from its end. -/
def weight (table : List Nat) (digit : Int) : Except Fault Nat :=
  match table[(if digit < 0 then digit + 10 else digit).toNat]? with
  | some w => if digit < -10 then .error .digitOutOfRange else .ok w
  | none => .error .digitOutOfRange

def weightSum (tables : List (List Nat)) (digits : List Int) : Except Fault Nat :=
  if digits.length = tables.length then do
    let weights ← (tables.zip digits).mapM fun place => weight place.1 place.2
    return weights.foldr (· + ·) 0
  else .error (.digitCount tables.length digits.length)

/-- The check digit of five digits: the one whose weight in the table "five minus" completes
their sum to a multiple of ten. -/
def payloadCheck5 (digits : List Int) : Except Fault Nat := do
  let sum ← weightSum fiveDigitTables digits
  return fiveMinus.idxOf (completion sum)

/-- The check digit of four digits: the last digit of three times their sum. -/
def payloadCheck4 (digits : List Int) : Except Fault Nat := do
  let sum ← weightSum fourDigitTables digits
  return sum * 3 % 10

/-- The check digit of a payload given as text, each character of which is read by itself. -/
def payloadCheck (payload : Text) : Except Fault Nat := do
  let digits ← payload.mapM fun c => Text.Numeral.read [c]
  payloadCheck5 digits

/-- An EAN-13 that carries a payload of five digits: six characters of `leading`, the check
digit of the payload, and the payload. The largest payload, 99999, is left out. -/
def embedPayload (leading : Text) (data : Int) : Except Fault (Option Code) :=
  if data < 0 || 99999 ≤ data then .ok none
  else do
    let payload := Text.padZeros 5 (Text.ofNat data.toNat)
    let digit ← payloadCheck payload
    return ean13? (leading.take 6 ++ Text.ofNat digit ++ payload)

end Barcode.Ean

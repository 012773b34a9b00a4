import Barcode.Fault.Basic
import Barcode.Text.Blank
import Barcode.Text.DecimalDigit

/-!
# Integer numerals

The text of an integer: a sign, and decimal digits of any script between which single
underscores may stand, with blanks around it. Texts of more than 4300 digits are neither read
nor written.
-/

namespace Barcode.Text.Numeral

open Blank (aroundNumeral)
open DecimalDigit (value? isDecimalDigit)

/-- The largest number of digits that is read or written. -/
def digitLimit : Nat := 4300

/-- Digits with single underscores between them, beginning and ending with a digit. -/
def grouped : Text → Bool
  | [] => false
  | [c] => isDecimalDigit c
  | c :: d :: rest => isDecimalDigit c && if d = '_' then grouped rest else grouped (d :: rest)

def magnitude (digits : Text) : Nat :=
  digits.foldl (fun n c => 10 * n + (value? c).getD 0) 0

/-- Whether a minus sign comes first, and the text after a sign. -/
def splitSign : Text → Bool × Text
  | '-' :: rest => (true, rest)
  | '+' :: rest => (false, rest)
  | rest => (false, rest)

/-- Reads an integer. The digits up to the first other character are counted before what
follows them is looked at. -/
def read (text : Text) : Except Fault Int :=
  let (negative, body) := splitSign (text.dropWhile aroundNumeral)
  let inNumeral (c : Char) : Bool := isDecimalDigit c || c == '_'
  let run := body.takeWhile inNumeral
  let digits := run.filter (· != '_')
  if !grouped run then .error (.notNumeral text)
  else if digitLimit < digits.length then .error (.numeralTooLong digits.length)
  else if (body.dropWhile inNumeral).all aroundNumeral then
    .ok (if negative then -(magnitude digits : Int) else magnitude digits)
  else .error (.notNumeral text)

def write (i : Int) : Except Fault Text :=
  let digits := Text.ofNat i.natAbs
  if digitLimit < digits.length then .error .numberTooLong
  else .ok (if i < 0 then '-' :: digits else digits)

end Barcode.Text.Numeral

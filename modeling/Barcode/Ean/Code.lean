import Barcode.Ean.CheckDigit

/-!
# EAN codes

A code is complete when it carries its check digit. Codes of 7 and 12 digits are completed to
an EAN-8 and an EAN-13; codes of 8, 13 and 14 digits must carry the right check digit. An
EAN-14 is never completed.
-/

namespace Barcode.Ean

structure Code where
  text : Text
  encoding : Encoding
  deriving DecidableEq, Repr

namespace Code

def digits (code : Code) : List Nat := code.text.map Text.digitValue

def checkDigit (code : Code) : Nat := lastDigit code.text

end Code

/-- The code of an encoding for a numeric text of one of the given lengths: the digits before
the check digit, followed by the check digit, which the text must carry if it is complete. -/
def build? (encoding : Encoding) (lengths : List Nat) (text : Text) : Option Code :=
  if lengths.contains text.length && Text.isNumeric text then
    let body := text.take (encoding.length - 1)
    if text.length = encoding.length && lastDigit text != check body then none
    else some ⟨body ++ Text.ofNat (check body), encoding⟩
  else none

/-- An EAN-8 from 7 digits, or from 8 with the right check digit. -/
def ean8? (text : Text) : Option Code := build? .ean8 [7, 8] text

/-- An EAN-13 from 12 digits, or from 13 with the right check digit. -/
def ean13? (text : Text) : Option Code := build? .ean13 [12, 13] text

/-- An EAN-14 from 14 digits with the right check digit. -/
def ean14? (text : Text) : Option Code := build? .ean14 [14] text

/-- The code of a text, whose length decides the encoding. -/
def parse? (text : Text) : Option Code :=
  match text.length with
  | 7 | 8 => ean8? text
  | 12 | 13 => ean13? text
  | 14 => ean14? text
  | _ => none

/-- The number of digits before the check digit in a text with or without one. -/
def bodyLength? : Nat → Option Nat
  | 7 | 8 => some 7
  | 12 | 13 => some 12
  | 14 => some 13
  | _ => none

/-- The check digit that belongs to a text of 7, 8, 12, 13 or 14 digits. -/
def checkDigitOf? (text : Text) : Option Nat := do
  let length ← bodyLength? text.length
  if Text.isNumeric text then some (check (text.take length)) else none

end Barcode.Ean

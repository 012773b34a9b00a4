import Barcode.Ean.Code

/-!
# Validation of EAN codes

A text is valid when it is numeric, has the length of the required encoding or of any EAN, and
carries the right check digit. The first rule that fails is the only defect reported.
-/

namespace Barcode.Ean

inductive Defect where
  | notNumeric
  | wrongLength (encoding : Encoding) (got : Nat)
  | unsupportedLength (got : Nat)
  | checkDigit (expected got : Nat)
  deriving DecidableEq, Repr

def Defect.message : Defect → String
  | .notNumeric => "EAN must be numeric"
  | .wrongLength encoding got =>
    encoding.name ++ " must have " ++ toString encoding.length ++ " digits, got " ++ toString got
  | .unsupportedLength got => "Unsupported EAN length: " ++ toString got
  | .checkDigit expected got =>
    "Check digit mismatch: expected " ++ toString expected ++ ", got " ++ toString got

/-- The check digit that a code should have and the one that it has. -/
structure CheckDigits where
  calculated : Nat
  provided : Nat
  deriving DecidableEq, Repr

/-- The result of a validation. The check digits are set once they have been compared. -/
structure Validation where
  valid : Bool
  defects : List Defect := []
  checkDigits? : Option CheckDigits := none
  deriving DecidableEq, Repr

def compareCheckDigit (text : Text) : Validation :=
  match checkDigitOf? text with
  | none => ⟨false, [.unsupportedLength text.length], none⟩
  | some calculated =>
    let provided := lastDigit text
    if provided = calculated then ⟨true, [], some ⟨calculated, provided⟩⟩
    else ⟨false, [.checkDigit calculated provided], some ⟨calculated, provided⟩⟩

def validate (text : Text) (encoding? : Option Encoding := none) : Validation :=
  if !Text.isNumeric text then ⟨false, [.notNumeric], none⟩
  else
    match encoding? with
    | some encoding =>
      if text.length = encoding.length then compareCheckDigit text
      else ⟨false, [.wrongLength encoding text.length], none⟩
    | none => compareCheckDigit text

end Barcode.Ean

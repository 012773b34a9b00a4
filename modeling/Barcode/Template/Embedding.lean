import Barcode.Template.Reading

/-!
# Embedding a payload

Two ways to a code that carries a payload. `Reading.embed` replaces the payload of a code that
has been read and brings its check digits up to date. `Template.synthesize` builds an EAN-13
from a template, a short code and a payload of five digits, which always takes the places 7 to
11 of the code.
-/

namespace Barcode

namespace Reading

/-- The sizes of the plain payload fields. -/
def payloadSizes (reading : Reading) : List Nat :=
  reading.entries.filterMap fun
    | (.embed size, _) => some size
    | _ => none

/-- The code with the digits of a payload in every plain payload field. -/
def replacePayload (reading : Reading) (digits : Text) : Text :=
  reading.entries.flatMap fun
    | (.embed size, _) => Text.padZeros size digits
    | (_, slice) => slice

def has (reading : Reading) (field : Field) : Bool :=
  reading.entries.any fun entry => entry.1 = field

/-- The code with `data` in place of its payload. There is none if no field takes a plain
payload, if the payload does not fit, or if the result is no EAN-13 although the template
requires one. The check digit of the payload belongs at place 6 of an in-store EAN-13. -/
def embed (reading : Reading) (data : Int) : Except Fault (Option Text) :=
  match reading.payloadSizes.getLast? with
  | none => .ok none
  | some size => do
    let digits ← Text.Numeral.write data
    if data < 0 || reading.payloadSizes.any (· < digits.length) then return none
    let replaced := reading.replacePayload digits
    let checked ←
      if reading.has .payloadCheck then do
        let digit ← Ean.payloadCheck (Text.padZeros size digits)
        pure (replaced.take 6 ++ Text.ofNat digit ++ replaced.drop 7)
      else pure replaced
    if reading.has .eanCheck then return (Ean.ean13? (checked.take 12)).map Ean.Code.text
    else return some checked

end Reading

namespace Template

/-- The number of characters before the payload of an in-store EAN-13. -/
def leadingLength : Nat := 7

/-- A run of zeros. Those beyond the leading characters are never used. -/
def zeros (count : Nat) : Text := List.replicate (min count leadingLength) '0'

/-- What a field contributes to an in-store code: a literal its text, the code field the short
code, the check digit of the payload that digit, payload and skipped characters zeros. -/
def layoutPart (code payload : Text) : Field → Except Fault Text
  | .literal text => .ok text
  | .code _ => .ok code
  | .payloadCheck => (Ean.payloadCheck payload).map Text.ofNat
  | .embed size => .ok (zeros size)
  | .skip (some size) => .ok (zeros size)
  | _ => .ok []

def isPayload : Field → Bool
  | .embed _ => true
  | _ => false

/-- A code field that a short code of the given length does not fit. -/
def misfits (length : Nat) : Field → Bool
  | .code shape => shape.width ≠ length
  | _ => false

def payloadText? (data : Int) : Except Fault (Option Text) := do
  let digits ← Text.Numeral.write data
  return if data < 0 || 5 < digits.length then none else some (Text.padZeros 5 digits)

/-- Builds an in-store EAN-13. There is none if the payload is not between 0 and 99999, if the
short code does not fit its field, if no field takes a plain payload, or if the characters
before the payload are not seven digits. -/
def synthesize (template : Template) (code : Text) (data : Int) :
    Except Fault (Option Ean.Code) := do
  match ← payloadText? data with
  | none => return none
  | some payload =>
    if template.fields.any (misfits code.length) then return none
    let parts ← template.fields.mapM (layoutPart code payload)
    if template.fields.any isPayload then
      return Ean.ean13? (parts.flatten.take leadingLength ++ payload)
    else return none

end Template

end Barcode

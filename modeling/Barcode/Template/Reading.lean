import Barcode.Ean.PayloadCheck
import Barcode.Ean.Validation
import Barcode.Number.Scaled
import Barcode.Template.Basic
import Barcode.Template.Split

/-!
# Readings of a code

A reading pairs every field of a template with the slice of a code that it takes. It gives the
lookup code and the embedded numbers, and its fields are checked once the code is split:
article numbers and check digits must be right. A code whose split fails the checks is
rejected; no other split is tried.
-/

namespace Barcode

/-- A template with the slices of its fields. Every slice belongs to a field; there may be
fewer slices than fields. -/
structure Reading where
  template : Template
  entries : List (Field × Text)
  deriving DecidableEq, Repr

/-- What is wrong with the slice of a field. -/
inductive Flaw where
  | ean (defects : List Ean.Defect)
  | codeLength (expected got : Nat)
  | constant (expected : Text)
  /-- There is no payload of five digits to check. -/
  | noPayload
  | payloadCheck (expected : Nat) (got : Text)
  | notEan
  | checkDigit (expected : Nat) (got : Text)
  deriving DecidableEq, Repr

def Flaw.message : Flaw → String
  | .ean defects => "; ".intercalate (defects.map Ean.Defect.message)
  | .codeLength expected got =>
    "length must be " ++ toString expected ++ ", got " ++ toString got
  | .constant expected => "expected " ++ String.ofList (Text.Quoted.quote expected)
  | .noPayload => "no 5-digit embed field"
  | .payloadCheck expected got =>
    "internal checksum mismatch: expected " ++ toString expected ++ ", got " ++ String.ofList got
  | .notEan => "not a valid EAN"
  | .checkDigit expected got =>
    "check digit mismatch: expected " ++ toString expected ++ ", got " ++ String.ofList got

/-- An embedded decimal: its digits as an integer, and how many stand on either side of the
point. -/
structure EmbeddedDecimal where
  integerDigits : Nat
  fractionDigits : Nat
  value : Int
  deriving DecidableEq, Repr

def EmbeddedDecimal.decimal (d : EmbeddedDecimal) : Except Fault Number.Scaled :=
  Number.Scaled.shift d.value (-d.fractionDigits)

namespace Reading

/-- The slice of the first code field, empty without one. -/
def lookupCode (reading : Reading) : Text :=
  (reading.entries.findSome? fun
    | (.code _, slice) => some slice
    | _ => none).getD []

def referencePrice (reading : Reading) : Except Fault (Option Int) :=
  match reading.entries.findSome? fun
    | (.price _, slice) => some slice
    | _ => none with
  | some slice => (Text.Numeral.read slice).map some
  | none => .ok none

/-- The integer payload, hundredfold when its field counts hundreds. -/
def embeddedData (reading : Reading) : Except Fault (Option Int) :=
  match reading.entries.find? fun entry => entry.1.integerPayload?.isSome with
  | some (.embedHundreds _, slice) => (Text.Numeral.read slice).map fun i => some (i * 100)
  | some (_, slice) => (Text.Numeral.read slice).map some
  | none => .ok none

def embeddedDecimal (reading : Reading) : Except Fault (Option EmbeddedDecimal) :=
  match reading.entries.findSome? fun
    | (.embedDecimal integerDigits fractionDigits, slice) =>
      some (integerDigits, fractionDigits, slice)
    | _ => none with
  | some (integerDigits, fractionDigits, slice) =>
    (Text.Numeral.read slice).map fun value => some ⟨integerDigits, fractionDigits, value⟩
  | none => .ok none

def code (reading : Reading) : Text := reading.entries.flatMap Prod.snd

/-- The slice of the first integer payload of five digits. -/
def checkedPayload? (reading : Reading) : Option Text :=
  reading.entries.findSome? fun entry =>
    if entry.1.integerPayload? = some 5 then some entry.2 else none

def codeFlaw? (shape : CodeShape) (slice : Text) : Option Flaw :=
  match shape.kind.encoding? with
  | some encoding =>
    let validation := Ean.validate slice (some encoding)
    if validation.valid then none else some (.ean validation.defects)
  | none =>
    match shape.kind with
    | .fixed =>
      if slice.length = shape.size then none else some (.codeLength shape.size slice.length)
    | .constant => if slice = shape.constant then none else some (.constant shape.constant)
    | _ => none

def payloadFlaw? (reading : Reading) (slice : Text) : Except Fault (Option Flaw) :=
  match reading.checkedPayload? with
  | none => .ok (some .noPayload)
  | some payload => do
    let expected ← Ean.payloadCheck payload
    return if Text.ofNat expected = slice then none else some (.payloadCheck expected slice)

def eanFlaw? (reading : Reading) (slice : Text) : Except Fault (Option Flaw) :=
  match Ean.parse? reading.code with
  | none => .ok (some .notEan)
  | some ean => do
    let got ← Text.Numeral.read slice
    return if got = ean.checkDigit then none else some (.checkDigit ean.checkDigit slice)

def flaw? (reading : Reading) (entry : Field × Text) : Except Fault (Option Flaw) :=
  match entry.1 with
  | .code shape => .ok (codeFlaw? shape entry.2)
  | .payloadCheck => reading.payloadFlaw? entry.2
  | .eanCheck => reading.eanFlaw? entry.2
  | _ => .ok none

/-- The flawed fields with their flaws, from left to right. -/
def flaws (reading : Reading) : Except Fault (List (Field × Flaw)) := do
  let found ← reading.entries.mapM fun entry => do
    return (← reading.flaw? entry).map fun flaw => (entry.1, flaw)
  return found.reduceOption

def report (flaw : Field × Flaw) : String :=
  String.ofList flaw.1.describe ++ ": " ++ flaw.2.message

end Reading

/-- What becomes of a code at a template. -/
inductive Outcome where
  /-- The code has no split along the fields. -/
  | unmatched
  | rejected (flaws : List (Field × Flaw))
  | accepted (reading : Reading)
  deriving DecidableEq, Repr

def Outcome.reading? : Outcome → Option Reading
  | .accepted reading => some reading
  | _ => none

namespace Template

def split? (template : Template) (code : Text) : Option Reading :=
  if template.expectedLength ≠ 0 ∧ code.length ≠ template.expectedLength then none
  else
    (Split.slices? template.fields code).map fun slices =>
      ⟨template, template.fields.zip slices⟩

/-- Reads a code along a template. -/
def read (template : Template) (code : Text) : Except Fault Outcome :=
  match template.split? code with
  | none => .ok .unmatched
  | some reading => do
    let flaws ← reading.flaws
    return if flaws.isEmpty then .accepted reading else .rejected flaws

end Template

end Barcode

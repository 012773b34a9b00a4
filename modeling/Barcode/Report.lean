import Barcode.Document.Reader
import Barcode.Document.Writer
import Barcode.Registry.Lookup

/-!
# Reports

Readings and override lookups as documents with readable member names. Only the values that a
template carries are shown, and the matches of a code come in the order of their template
identifiers.
-/

namespace Barcode.Report

open Document (Value)

def fields (reading : Reading) : List Value :=
  reading.entries.map fun (field, slice) =>
    .object [("component".toList, .text field.describe), ("value".toList, .text slice)]

/-- Everything that a reading gives besides its fields. -/
structure Summary where
  lookupCode : Text
  embeddedData : Option Int
  embeddedDecimal : Option (EmbeddedDecimal × Text)
  referencePrice : Option Int
  deriving DecidableEq, Repr

/-- Sums a reading up. The decimal payload is read first, and written after the integer one
has been read. -/
def summary (reading : Reading) : Except Fault Summary := do
  let decimal ← reading.embeddedDecimal
  let embeddedData ← reading.embeddedData
  let embeddedDecimal ←
    match decimal with
    | some d => do pure (some (d, (← d.decimal).text))
    | none => pure none
  let referencePrice ← reading.referencePrice
  return { lookupCode := reading.lookupCode, embeddedData, embeddedDecimal, referencePrice }

def decimalText (reading : Reading) : Except Fault (Option Text) := do
  match ← reading.embeddedDecimal with
  | some decimal => return some (← decimal.decimal).text
  | none => return none

def members (reading : Reading) (withFields : Bool) : Except Fault (List (Text × Value)) := do
  let data ← reading.embeddedData
  let decimal ← decimalText reading
  let price ← reading.referencePrice
  return [("Template".toList, .text reading.template.id),
      ("Lookup Code".toList, .text reading.lookupCode)]
    ++ (data.map fun i => ("Embedded Data".toList, Value.integer i)).toList
    ++ (decimal.map fun t => ("Embedded Decimal".toList, Value.text t)).toList
    ++ (price.map fun i => ("Reference Price".toList, Value.integer i)).toList
    ++ if withFields then [("Fields".toList, .list (fields reading))] else []

def ofReading (reading : Reading) (withFields : Bool) : Except Fault Value := do
  return .object (← members reading withFields)

/-- Readings in the order of their template identifiers. -/
def sorted (readings : List Reading) : List Reading :=
  readings.mergeSort fun a b => Text.le a.template.id b.template.id

def ofReadings (readings : List Reading) (withFields : Bool) : Except Fault Value := do
  return .list (← (sorted readings).mapM (ofReading · withFields))

def json (readings : List Reading) (withFields : Bool) : Except Fault Text := do
  (← ofReadings readings withFields).write .indented

def ofLookup (lookup? : Option OverrideLookup) : Value :=
  match lookup? with
  | none => .null
  | some lookup => .object
    [("Lookup Code".toList, .text lookup.lookupCode),
     ("Lookup Template".toList, lookup.lookupTemplate),
     ("Transmission Code".toList, lookup.transmissionCode),
     ("Embedded Data".toList, .ofInt? lookup.embeddedData)]

def codeJson (registry : Registry) (code project : Text) (withFields : Bool) : Traced Text := do
  let readings ← registry.readings code project
  Traced.ofExcept (json readings withFields)

/-- The matches of a code as a document, decoded from their JSON text. -/
def codeDocument (registry : Registry) (code project : Text) :
    Traced (Except Document.ReadError Value) := do
  return Document.read (← codeJson registry code project false)

end Barcode.Report

import Barcode.Template.Token
import Barcode.Text.Numeral

/-!
# The grammar of templates

A bracketed token is a name, optionally followed by `:` or `=` and a value; without a value
it counts as `1`. Every token denotes one field, and rules on the whole template bind the
fields together. Tokens are looked at from left to right, so the first one at fault decides
the error, and the rules on the whole come last.
-/

namespace Barcode.Grammar

inductive Name where
  | code | embed | embedHundreds | price | skip | payloadCheck | eanCheck
  deriving DecidableEq, Repr

def Name.ofText? : Text → Option Name
  | ['c', 'o', 'd', 'e'] => some .code
  | ['e', 'm', 'b', 'e', 'd'] => some .embed
  | ['e', 'm', 'b', 'e', 'd', '1', '0', '0'] => some .embedHundreds
  | ['p', 'r', 'i', 'c', 'e'] => some .price
  | ['_'] => some .skip
  | ['i'] => some .payloadCheck
  | ['e', 'c'] => some .eanCheck
  | _ => none

structure Parts where
  name : Text
  separator? : Option Char
  value : Text
  deriving DecidableEq, Repr

def isNameChar (c : Char) : Bool := c != ':' && c != '='

/-- Takes the text between the braces apart at its first separator. -/
def split (body : Text) : Parts :=
  let name := body.takeWhile isNameChar
  match body.dropWhile isNameChar with
  | [] => ⟨name, none, ['1']⟩
  | separator :: value => ⟨name, some separator, value⟩

def inner (token : Text) : Text := token.tail.dropLast

/-- A length: ASCII digits that denote a positive number. -/
def length (value token : Text) : Except Fault Nat :=
  if !Text.isNumeric value then .error (.grammar (.invalidLength value token))
  else if Text.Numeral.digitLimit < value.length then .error (.numeralTooLong value.length)
  else if Text.toNat value = 0 then .error (.grammar (.invalidLength value token))
  else .ok (Text.toNat value)

/-- The field of a code token. After `=` every value is a constant. -/
def codeField (separator? : Option Char) (value token : Text) : Except Fault Field :=
  if separator? = some '=' then .ok (.code { kind := .constant, constant := value })
  else
    match value with
    | ['*'] => .ok (.code { kind := .any })
    | ['e', 'a', 'n', '8'] => .ok (.code { kind := .ean8 })
    | ['e', 'a', 'n', '1', '3'] => .ok (.code { kind := .ean13 })
    | ['e', 'a', 'n', '1', '4'] => .ok (.code { kind := .ean14 })
    | _ => (length value token).map fun size => .code { kind := .fixed, size }

/-- The field of a payload token: one length, or two with a point between them. -/
def embedField (value token : Text) : Except Fault Field :=
  match value.dropWhile (· != '.') with
  | [] => (length value token).map .embed
  | _ :: fraction =>
    if fraction.contains '.' then .error (.grammar (.invalidDecimal token))
    else do
      let integerDigits ← length (value.takeWhile (· != '.')) token
      let fractionDigits ← length fraction token
      return .embedDecimal integerDigits fractionDigits

def skipField (value token : Text) : Except Fault Field :=
  if value = ['*'] then .ok (.skip none)
  else (length value token).map fun size => .skip (some size)

def bracketedField (token : Text) : Except Fault Field :=
  let parts := split (inner token)
  match Name.ofText? parts.name with
  | some .code => codeField parts.separator? parts.value token
  | some .embed => embedField parts.value token
  | some .embedHundreds => (length parts.value token).map .embedHundreds
  | some .price => (length parts.value token).map .price
  | some .skip => skipField parts.value token
  | some .payloadCheck => (length parts.value token).map fun _ => .payloadCheck
  | some .eanCheck => (length parts.value token).map fun _ => .eanCheck
  | none => .error (.grammar (.unknownName parts.name token))

def field (token : Token) : Except Fault Field :=
  if token.bracketed then bracketedField token.text else .ok (.literal token.text)

def duplicates (fields : List Field) : List Purpose :=
  Purpose.single.filter fun purpose => 1 < fields.countP (·.purpose = purpose)

/-- The rules on a whole template: it has a field, no purpose that may be served once is
served twice, the check digit of a payload needs an integer payload of five digits as the
first one, and the EAN check digit comes last. -/
def check (fields : List Field) : Except GrammarError Unit :=
  if fields.isEmpty then .error .empty
  else if duplicates fields ≠ [] then .error (.duplicates (duplicates fields))
  else if fields.contains .payloadCheck && fields.findSome? Field.integerPayload? ≠ some 5 then
    .error .missingPayload
  else if fields.contains .eanCheck && fields.getLast? ≠ some .eanCheck then
    .error .misplacedCheck
  else .ok ()

def compile (t : Text) : Except Fault (List Field) := do
  let scan := Token.scan t
  let fields ← scan.tokens.mapM field
  match scan.error? with
  | some error => throw (.grammar error)
  | none =>
    match check fields with
    | .error error => throw (.grammar error)
    | .ok () => return fields

end Barcode.Grammar

import Barcode.Document.Value
import Barcode.Template.GrammarError

/-!
# Faults

The causes for which an operation gives no answer. A code that does not match and a payload
that does not fit are no faults: they are answers of their own. Template texts and metadata
documents are refused for causes of their domain; the other faults are limits of numbers and
values of a kind that an operation cannot use.
-/

namespace Barcode

inductive ReadFailure where
  | missing | directory | inaccessible | notJson
  deriving DecidableEq, Repr

def ReadFailure.message : ReadFailure → String
  | .missing => "no such file"
  | .directory => "it is a directory"
  | .inaccessible => "the file cannot be opened"
  | .notJson => "the content is no JSON document"

inductive MetadataError where
  | unreadable (path : Text) (failure : ReadFailure)
  | notProjects
  | notProject
  | templatesNotObject
  | overridesNotList
  /-- A price override lacks its identifier or its template. -/
  | invalidOverride (document : Document.Value)

/-- A cause for which an operation gives no answer. -/
inductive Fault where
  | grammar (error : GrammarError)
  | metadata (error : MetadataError)
  /-- A field is wider than a pattern can count. -/
  | repetitionTooLarge
  /-- A numeral has more digits than are read. -/
  | numeralTooLong (digits : Nat)
  /-- A number has more digits than are written. -/
  | numberTooLong
  | notNumeral (text : Text)
  /-- A check digit is asked of a text that is not numeric. -/
  | notNumeric
  /-- A payload check digit is asked of the wrong number of digits. -/
  | digitCount (expected got : Nat)
  | digitOutOfRange
  | shiftTooLarge
  | decimalOverflow
  /-- A value of this kind has no length. -/
  | noLength (kind : Document.Kind)
  /-- A part of a code, counted from 0, is no text. -/
  | partNotText (index : Nat) (kind : Document.Kind)
  | notIdentifier (kind : Document.Kind)
  | noPayload
  | noLevel
  | notUtf8
  | nullInPath
  | nestedTooDeeply
  /-- A document has half of a character in a text. What becomes of it is left open. -/
  | halfCharacter
  | invalidSetting

end Barcode

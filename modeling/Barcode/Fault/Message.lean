import Barcode.Document.Plain
import Barcode.Fault.Basic

/-!
# Faults in words

The messages of metadata errors and of all other faults.
-/

namespace Barcode

def MetadataError.message : MetadataError → String
  | .unreadable path failure =>
    "Cannot read metadata from " ++ String.ofList path ++ ": " ++ failure.message
  | .notProjects => "Metadata must contain a project or a list of projects"
  | .notProject => "Project metadata must be an object with an 'id'"
  | .templatesNotObject => "'codeTemplates' must map template ids to templates"
  | .overridesNotList => "'priceOverrideCodes' must be a list"
  | .invalidOverride document =>
    "Invalid price override code: " ++ String.ofList document.shown

def Document.Kind.name : Document.Kind → String
  | .null => "null"
  | .bool => "a truth value"
  | .integer => "an integer"
  | .real => "a number"
  | .text => "a text"
  | .list => "a list"
  | .object => "an object"

def Fault.message : Fault → String
  | .grammar error => error.message
  | .metadata error => error.message
  | .repetitionTooLarge => "the repetition number is too large"
  | .numeralTooLong digits => "a numeral has " ++ toString digits ++ " digits"
  | .numberTooLong => "a number is too long to be written"
  | .notNumeral text => "not an integer: " ++ String.ofList (Text.Quoted.quote text)
  | .notNumeric => "Input must be a non-empty numeric string"
  | .digitCount expected got =>
    "Expected " ++ toString expected ++ " digits, got " ++ toString got
  | .digitOutOfRange => "a digit is out of range"
  | .shiftTooLarge => "a decimal is shifted too far"
  | .decimalOverflow => "a decimal is too large"
  | .noLength kind => kind.name ++ " has no length"
  | .partNotText index kind =>
    "part " ++ toString index ++ " of a code is " ++ kind.name ++ ", not a text"
  | .notIdentifier kind => kind.name ++ " is no identifier"
  | .noPayload => "the payload has no value"
  | .noLevel => "the log level has no value"
  | .notUtf8 => "a file is not UTF-8"
  | .nullInPath => "a path holds a null character"
  | .nestedTooDeeply => "a document is nested too deeply"
  | .halfCharacter => "a text has half of a character"
  | .invalidSetting => "a setting has no valid value"

end Barcode

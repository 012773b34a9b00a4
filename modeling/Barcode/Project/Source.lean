import Barcode.Document.Reader
import Barcode.Project.Basic

/-!
# Projects from files

The content of a metadata file is UTF-8 text that holds a JSON document. A file that is not
there and a text that is no document are metadata errors; bytes that are not UTF-8, oversized
integers and brackets that are deeper than the caller allows are faults of their own. A document
with half of a character in a text has no value here, and its fault says no more than that.
-/

namespace Barcode

abbrev FileContent := Except ReadFailure ByteArray

namespace Project

def documentOf (depth : Nat) (path : Text) (content : FileContent) :
    Except Fault Document.Value :=
  if path.contains '\x00' then .error .nullInPath
  else
    match content with
    | .error failure => .error (.metadata (.unreadable path failure))
    | .ok bytes =>
      match String.fromUTF8? bytes with
      | none => .error .notUtf8
      | some s =>
        match Document.readWithin depth s.toList with
        | .ok document => .ok document
        | .error .malformed => .error (.metadata (.unreadable path .notJson))
        | .error (.numeralTooLong digits) => .error (.numeralTooLong digits)
        | .error .nestedTooDeeply => .error .nestedTooDeeply
        | .error .halfCharacter => .error .halfCharacter

/-- The projects in a file whose document is at most so deep. -/
def listOfContent (depth : Nat) (path : Text) (content : FileContent) :
    Except Fault (List Project) := do
  (listOfDocument (← documentOf depth path content)).mapError .metadata

end Project

end Barcode

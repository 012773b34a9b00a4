import Barcode.Document.Value
import Barcode.Number.Shortest
import Barcode.Text.Quoted

/-!
# Plain text of a value

How a value is shown inside a message: texts are quoted, lists stand in square brackets,
objects in braces with a colon after each name, and the constants are spelled `None`, `True`
and `False`. A value that serves as an identifier or a template shows a text as it is.

Every value is shown here, however deep its brackets. Showing one takes stack as well, so a value
that is deeper than the reader gives them may have no plain text outside; such values are left out.
-/

namespace Barcode.Document.Value

def ofBool (b : Bool) : Text := if b then "True".toList else "False".toList

mutual

/-- A value as it is shown in a message. -/
def shown : Value → Text
  | .null => "None".toList
  | .bool b => ofBool b
  | .integer i => if i < 0 then '-' :: Text.ofNat i.natAbs else Text.ofNat i.natAbs
  | .real x => x.text
  | .text t => Text.Quoted.quote t
  | .list items => '[' :: shownItems items ++ [']']
  | .object members => '{' :: shownMembers members ++ ['}']

def shownItems : List Value → Text
  | [] => []
  | [item] => shown item
  | item :: rest => shown item ++ ',' :: ' ' :: shownItems rest

def shownMembers : List (Text × Value) → Text
  | [] => []
  | [(name, value)] => Text.Quoted.quote name ++ ':' :: ' ' :: shown value
  | (name, value) :: rest =>
    Text.Quoted.quote name ++ ':' :: ' ' :: shown value ++ ',' :: ' ' :: shownMembers rest

end

/-- A value as an identifier or a template text: a text stands for itself. -/
def plain : Value → Text
  | .text t => t
  | value => value.shown

end Barcode.Document.Value

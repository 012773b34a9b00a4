import Barcode.Number.Binary64

/-!
# Document values

The values of a JSON document. Integers are exact, numbers with a point or an exponent are
binary, and an object keeps its members in order with no name twice.
-/

namespace Barcode.Document

open Number (Binary64)

inductive Value where
  | null
  | bool (b : Bool)
  | integer (i : Int)
  | real (x : Binary64)
  | text (t : Text)
  | list (items : List Value)
  | object (members : List (Text × Value))

inductive Kind where
  | null | bool | integer | real | text | list | object
  deriving DecidableEq, Repr

namespace Value

def kind : Value → Kind
  | .null => .null
  | .bool _ => .bool
  | .integer _ => .integer
  | .real _ => .real
  | .text _ => .text
  | .list _ => .list
  | .object _ => .object

def isNull : Value → Bool
  | .null => true
  | _ => false

/-- A value without content: null, false, zero, or an empty text, list or object. -/
def isEmpty : Value → Bool
  | .null => true
  | .bool b => !b
  | .integer i => i = 0
  | .real x => x.isZero
  | .text t => t.isEmpty
  | .list items => items.isEmpty
  | .object members => members.isEmpty

def ofText? : Option Text → Value
  | none => .null
  | some t => .text t

def ofInt? : Option Int → Value
  | none => .null
  | some i => .integer i

end Value

end Barcode.Document

import Barcode.Text.Basic

/-!
# EAN encodings

The three lengths of article numbers: eight, thirteen and fourteen digits, the last of which
is the check digit.
-/

namespace Barcode.Ean

inductive Encoding where
  | ean8 | ean13 | ean14
  deriving DecidableEq, Repr

namespace Encoding

/-- The number of digits of a complete code, the check digit included. -/
def length : Encoding → Nat
  | .ean8 => 8
  | .ean13 => 13
  | .ean14 => 14

def name : Encoding → String
  | .ean8 => "ean8"
  | .ean13 => "ean13"
  | .ean14 => "ean14"

def all : List Encoding := [.ean8, .ean13, .ean14]

def ofName? (name : Text) : Option Encoding := all.find? fun e => e.name.toList = name

end Encoding

end Barcode.Ean

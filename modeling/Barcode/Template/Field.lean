import Barcode.Ean.Encoding

/-!
# Template fields

A template is a sequence of fields. A field has a width, the number of characters that it
occupies in a scanned code, where width 0 stands for any length, and a written form, the piece
of template text that denotes it.
-/

namespace Barcode

inductive CodeKind where
  | ean8 | ean13 | ean14
  /-- A given number of characters. -/
  | fixed
  /-- Any number of characters. -/
  | any
  /-- One text only. -/
  | constant
  deriving DecidableEq, Repr

namespace CodeKind

def name : CodeKind → String
  | .ean8 => "ean8"
  | .ean13 => "ean13"
  | .ean14 => "ean14"
  | .fixed => "fixed"
  | .any => "*"
  | .constant => "constant"

def all : List CodeKind := [.ean8, .ean13, .ean14, .fixed, .any, .constant]

def ofName? (name : Text) : Option CodeKind := all.find? fun k => k.name.toList = name

def encoding? : CodeKind → Option Ean.Encoding
  | .ean8 => some .ean8
  | .ean13 => some .ean13
  | .ean14 => some .ean14
  | _ => none

end CodeKind

/-- The shape of a product code. The size counts for `fixed` only and the constant for
`constant` only, yet shapes are equal only when all three agree. -/
structure CodeShape where
  kind : CodeKind
  size : Nat := 0
  constant : Text := []
  deriving DecidableEq, Repr

namespace CodeShape

/-- The number of characters of a code of this shape, 0 for any number. -/
def width (shape : CodeShape) : Nat :=
  match shape.kind with
  | .ean8 => 8
  | .ean13 => 13
  | .ean14 => 14
  | .fixed => shape.size
  | .constant => shape.constant.length
  | .any => 0

end CodeShape

inductive Field where
  /-- Text that the scanned code must carry. -/
  | literal (text : Text)
  /-- The code by which a product is looked up. -/
  | code (shape : CodeShape)
  /-- An embedded weight, price or amount of `size` digits. -/
  | embed (size : Nat)
  /-- Embedded digits that count hundreds. -/
  | embedHundreds (size : Nat)
  /-- An embedded decimal with a fixed number of digits on both sides of the point. -/
  | embedDecimal (integerDigits fractionDigits : Nat)
  /-- An embedded reference price, such as the price of a kilogram. -/
  | price (size : Nat)
  /-- Characters that are passed over, `none` for any number of them. -/
  | skip (size : Option Nat)
  /-- The check digit of a payload of five digits. -/
  | payloadCheck
  /-- The check digit of the whole EAN. -/
  | eanCheck
  deriving DecidableEq, Repr

/-- What a field is for. Most purposes occur at most once in a template; the integer and the
decimal payload share one. -/
inductive Purpose where
  | code | eanCheck | embed | embedHundreds | payloadCheck | price | literal | skip
  deriving DecidableEq, Repr

namespace Purpose

/-- The purposes that a template serves at most once, in the order of their names. -/
def single : List Purpose := [.code, .eanCheck, .embed, .embedHundreds, .payloadCheck, .price]

def name : Purpose → String
  | .code => "code"
  | .eanCheck => "ean_checksum"
  | .embed => "embed"
  | .embedHundreds => "embed100"
  | .payloadCheck => "internal_checksum"
  | .price => "price"
  | .literal => "plain_text"
  | .skip => "ignore"

/-- Literals and skipped characters may occur any number of times. -/
def repeatable : Purpose → Bool
  | .literal | .skip => true
  | _ => false

end Purpose

namespace Field

def purpose : Field → Purpose
  | .literal _ => .literal
  | .code _ => .code
  | .embed _ => .embed
  | .embedHundreds _ => .embedHundreds
  | .embedDecimal _ _ => .embed
  | .price _ => .price
  | .skip _ => .skip
  | .payloadCheck => .payloadCheck
  | .eanCheck => .eanCheck

/-- The number of characters of a field, 0 for any number. -/
def width : Field → Nat
  | .literal text => text.length
  | .code shape => shape.width
  | .embed size => size
  | .embedHundreds size => size
  | .embedDecimal integerDigits fractionDigits => integerDigits + fractionDigits
  | .price size => size
  | .skip size => size.getD 0
  | .payloadCheck => 1
  | .eanCheck => 1

def bracketed (body : Text) : Text := '{' :: body ++ ['}']

def describe : Field → Text
  | .literal text => text
  | .code shape =>
    match shape.kind with
    | .constant => bracketed ("code=".toList ++ shape.constant)
    | .fixed => bracketed ("code:".toList ++ Text.ofNat shape.size)
    | kind => bracketed ("code:".toList ++ kind.name.toList)
  | .embed size => bracketed ("embed:".toList ++ Text.ofNat size)
  | .embedHundreds size => bracketed ("embed100:".toList ++ Text.ofNat size)
  | .embedDecimal integerDigits fractionDigits =>
    bracketed ("embed:".toList ++ Text.ofNat integerDigits ++ '.' :: Text.ofNat fractionDigits)
  | .price size => bracketed ("price:".toList ++ Text.ofNat size)
  | .skip none => bracketed "_:*".toList
  | .skip (some size) => bracketed ("_:".toList ++ Text.ofNat size)
  | .payloadCheck => bracketed "i".toList
  | .eanCheck => bracketed "ec".toList

/-- The size of an integer payload, which may count hundreds. -/
def integerPayload? : Field → Option Nat
  | .embed size => some size
  | .embedHundreds size => some size
  | _ => none

/-- A field that takes any number of characters. -/
def isUnbounded : Field → Bool
  | .code shape => shape.kind = .any
  | .skip none => true
  | _ => false

end Field

end Barcode

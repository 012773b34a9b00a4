import Barcode.Template.Field
import Barcode.Text.Numeral

/-!
# The pattern of a template

A template is matched like a regular expression with one group per field. The pattern text
shows it: a literal stands in its group with every special character escaped, other fields as
a run of arbitrary characters or of digits with its count. Counts from `2 ^ 32 - 1` on cannot
be expressed, nor can counts that are too long to be written. Main statements:
`shape_eq_exactly_iff`, `shape_eq_digits_iff`, `shape_eq_digit_iff`, `shape_eq_anything_iff` and
`shape_eq_characters_iff`, which say what kinds of fields have a shape.
-/

namespace Barcode.Pattern

/-- The characters that stand for themselves only after a backslash. -/
def special : Text :=
  ['(', ')', '[', ']', '{', '}', '?', '*', '+', '-', '|', '^', '$', '\\', '.', '&', '~', '#',
   ' ', '\t', '\n', '\r', '\x0b', '\x0c']

def escape (t : Text) : Text := t.flatMap fun c => if special.contains c then ['\\', c] else [c]

/-- What a field's group takes. -/
inductive Shape where
  | exactly (text : Text)
  | characters (count : Nat)
  | digits (count : Nat)
  | digit
  | anything
  deriving DecidableEq, Repr

def shape : Field → Shape
  | .literal text => .exactly text
  | .code shape =>
    match shape.kind with
    | .any => .anything
    | .constant => .exactly shape.constant
    | _ => .characters shape.width
  | .embed size => .digits size
  | .embedHundreds size => .digits size
  | .embedDecimal integerDigits fractionDigits => .digits (integerDigits + fractionDigits)
  | .price size => .digits size
  | .skip none => .anything
  | .skip (some size) => .characters size
  | .payloadCheck => .digit
  | .eanCheck => .digit

section Shapes

variable {f : Field} {t : Text} {n : Nat}

/-- One text only is taken by a literal and by a code that is a constant. -/
theorem shape_eq_exactly_iff : shape f = .exactly t ↔
    f = .literal t ∨ ∃ size, f = .code ⟨.constant, size, t⟩ := by
  cases f with
  | code s =>
    obtain ⟨kind, size, constant⟩ := s
    cases kind <;> simp [shape]
  | skip size => cases size <;> simp [shape]
  | _ => simp [shape]

/-- A run of digits is taken by the payloads and the price, as wide as the field. -/
theorem shape_eq_digits_iff : shape f = .digits n ↔
    f.width = n ∧
      (f.purpose = .embed ∨ f.purpose = .embedHundreds ∨ f.purpose = .price) := by
  cases f with
  | code s =>
    obtain ⟨kind, size, constant⟩ := s
    cases kind <;> simp [shape, Field.purpose]
  | skip size => cases size <;> simp [shape, Field.purpose]
  | _ => simp [shape, Field.width, Field.purpose]

/-- One digit is taken by the check digits. -/
theorem shape_eq_digit_iff : shape f = .digit ↔ f = .payloadCheck ∨ f = .eanCheck := by
  cases f with
  | code s =>
    obtain ⟨kind, size, constant⟩ := s
    cases kind <;> simp [shape]
  | skip size => cases size <;> simp [shape]
  | _ => simp [shape]

/-- Anything is taken by the unbounded fields. -/
theorem shape_eq_anything_iff : shape f = .anything ↔ f.isUnbounded = true := by
  cases f with
  | code s =>
    obtain ⟨kind, size, constant⟩ := s
    cases kind <;> simp [shape, Field.isUnbounded]
  | skip size => cases size <;> simp [shape, Field.isUnbounded]
  | _ => simp [shape, Field.isUnbounded]

/-- Characters without further conditions are taken by the other codes and by what is passed
over, as many as the field is wide. -/
theorem shape_eq_characters_iff : shape f = .characters n ↔
    f.width = n ∧ f.isUnbounded = false ∧
      ((∃ s, f = .code s ∧ s.kind ≠ .constant) ∨ f.purpose = .skip) := by
  cases f with
  | code s =>
    obtain ⟨kind, size, constant⟩ := s
    cases kind <;>
      simp [shape, Field.width, CodeShape.width, Field.isUnbounded, Field.purpose]
  | skip size => cases size <;> simp [shape, Field.width, Field.isUnbounded, Field.purpose]
  | _ => simp [shape, Field.purpose]

end Shapes

namespace Shape

def count? : Shape → Option Nat
  | .characters count => some count
  | .digits count => some count
  | _ => none

def text : Shape → Text
  | .exactly literal => escape literal
  | .characters count => '.' :: '{' :: Text.ofNat count ++ ['}']
  | .digits count => '\\' :: 'd' :: '{' :: Text.ofNat count ++ ['}']
  | .digit => ['\\', 'd']
  | .anything => ['.', '*']

end Shape

def fragment (field : Field) : Text := '(' :: (shape field).text ++ [')']

def text (fields : List Field) : Text := '^' :: fields.flatMap fragment ++ ['$']

/-- The least count that no pattern can express. -/
def countLimit : Nat := 4294967295

def counts (fields : List Field) : List Nat := fields.filterMap fun field => (shape field).count?

/-- Every count can be written. -/
def checkWritable (fields : List Field) : Except Fault Unit :=
  if (counts fields).any fun count => Text.Numeral.digitLimit < (Text.ofNat count).length then
    .error .numberTooLong
  else .ok ()

def check (fields : List Field) : Except Fault Unit := do
  checkWritable fields
  if (counts fields).any (countLimit ≤ ·) then throw .repetitionTooLarge

end Barcode.Pattern

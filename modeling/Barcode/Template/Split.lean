import Barcode.Template.Field

/-!
# Splitting a code along the fields

Every field takes a slice of the code, from left to right and without a gap. A field of given
width admits slices of that width only; a field of any number of characters takes as many as
leave the fields after it satisfied, the leftmost such field first.
-/

namespace Barcode

/-- A slice of `count` ASCII digits. -/
def Text.isDigits (count : Nat) (slice : Text) : Bool :=
  slice.length = count && slice.all Char.isDigit

def Field.admits (field : Field) (slice : Text) : Bool :=
  match field with
  | .literal text => slice = text
  | .code shape =>
    match shape.kind with
    | .any => true
    | .constant => slice = shape.constant
    | _ => slice.length = shape.width
  | .embed size => slice.isDigits size
  | .embedHundreds size => slice.isDigits size
  | .embedDecimal integerDigits fractionDigits => slice.isDigits (integerDigits + fractionDigits)
  | .price size => slice.isDigits size
  | .skip none => true
  | .skip (some size) => slice.length = size
  | .payloadCheck => slice.isDigits 1
  | .eanCheck => slice.isDigits 1

namespace Split

/-- Cuts a text in two so that `rest` accepts the second part and the first part is as long
as possible. -/
def longest {β : Type} (rest : Text → Option β) : Text → Option (Text × β)
  | [] => (rest []).map ([], ·)
  | c :: t =>
    match longest rest t with
    | some (taken, b) => some (c :: taken, b)
    | none => (rest (c :: t)).map ([], ·)

/-- The slices of a code, one per field. -/
def slices? : List Field → Text → Option (List Text)
  | [], t => if t.isEmpty then some [] else none
  | field :: fields, t =>
    if field.isUnbounded then
      (longest (slices? fields) t).map fun (taken, rest) => taken :: rest
    else
      let slice := t.take field.width
      if field.admits slice then (slices? fields (t.drop field.width)).map (slice :: ·) else none

theorem longest_eq {β : Type} (rest : Text → Option β) :
    ∀ (t taken : Text) (b : β), longest rest t = some (taken, b) →
      ∃ after, t = taken ++ after ∧ rest after = some b
  | [], taken, b, h => by
    simp only [longest, Option.map_eq_some_iff, Prod.mk.injEq] at h
    obtain ⟨b', h, rfl, rfl⟩ := h
    exact ⟨[], rfl, h⟩
  | c :: t, taken, b, h => by
    unfold longest at h
    split at h
    · next taken' b' h' =>
      obtain ⟨after, ht, hr⟩ := longest_eq rest t taken' b' h'
      simp only [Option.some.injEq, Prod.mk.injEq] at h
      obtain ⟨rfl, rfl⟩ := h
      exact ⟨after, by rw [ht]; rfl, hr⟩
    · simp only [Option.map_eq_some_iff, Prod.mk.injEq] at h
      obtain ⟨b', h, rfl, rfl⟩ := h
      exact ⟨c :: t, rfl, h⟩

end Split

end Barcode

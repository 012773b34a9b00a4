import Barcode.Proofs.Instore.Assembly
import Barcode.Proofs.Template.Compiled

/-!
# Layouts that an in-store code fits

A built code has a fixed layout: seven characters, five digits of payload, a check digit. It
fits a template when the characters that are kept are those that the fields before the payload
ask for, when the payload has room in its own field, and when one character is left for the
fields behind it. These conditions are checked on the template and on what is built, not on
how the code is read.
-/

namespace Barcode

open Ean (payloadDigit isDigits_payloadDigit)
open Split (Admitted width)
open Text (isDigits isDigits_iff isDigits_zeros padZeros isDigits_padZeros)

/-- What a field asks for before a payload is put: its own text, the short code or the check
digit, and zeros everywhere else. -/
def Field.blank (s p : Text) : Field → Text
  | .literal text => text
  | .code _ => s
  | .payloadCheck => payloadDigit p
  | f => List.replicate f.width '0'

/-- A field that takes the last digit of a code whatever it is. -/
def Field.isSpare : Field → Bool
  | .eanCheck | .skip none | .skip (some 1) | .price 1 | .embedHundreds 1 => true
  | _ => false

namespace Template

/-- The five digits of a payload in a built code. -/
abbrev fiveDigits (m : Nat) : Text := padZeros 5 (Text.ofNat m)

/-- The template carries the short code `s` and the payload `m` in a built code: `lead` asks for
what is kept of the assembly, the payload fits its field, and `tail` takes the last digit. -/
structure Carries (t : Template) (s : Text) (m : Nat) (lead : List Field) (n : Nat)
    (tail : List Field) : Prop where
  fields : t.fields = lead ++ .embed n :: tail
  first : ∀ f ∈ lead, f.integerPayload? = none
  accepts : ∀ shape, .code shape ∈ lead → Reading.codeFlaw? shape s = none
  fits : m < 10 ^ n
  kept : (t.assembly s (fiveDigits m)).take leadingLength ++ List.replicate 5 '0' =
    lead.flatMap (Field.blank s (fiveDigits m)) ++ List.replicate n '0'
  spare : ∀ f ∈ tail, f.isSpare = true
  rest : tail ≠ [] ∧ tail.countP (fun f => !f.isUnbounded) ≤ 1
  settled : (∀ f ∈ lead, f.isUnbounded = false) ∨ (∀ f ∈ tail, f.isUnbounded = false)

variable {t : Template} {s p : Text} {m n : Nat} {lead tail : List Field}

/-! ## The fields before the payload -/

theorem admits_blank {f : Field} (hc : ∀ shape, f = .code shape → Reading.codeFlaw? shape s = none)
    (hw : ∀ shape, f = .code shape → s.length = shape.width) :
    f.admits (f.blank s p) = true := by
  cases f with
  | literal text => exact decide_eq_true rfl
  | code shape =>
    have hlen := hw shape rfl
    have hflaw := hc shape rfl
    obtain ⟨kind, size, constant⟩ := shape
    cases kind with
    | any => rfl
    | constant =>
      have heq : s = constant := by
        by_contra hne
        rw [Reading.codeFlaw?] at hflaw
        simp [CodeKind.encoding?, hne] at hflaw
      exact decide_eq_true heq
    | _ => exact decide_eq_true hlen
  | payloadCheck => exact isDigits_payloadDigit p
  | skip size =>
    cases size with
    | none => rfl
    | some k => exact decide_eq_true List.length_replicate
  | _ => exact isDigits_zeros _

theorem length_blank {f : Field} (hw : ∀ shape, f = .code shape → s.length = shape.width) :
    (f.blank s p).length = f.width := by
  cases f with
  | literal text => rfl
  | code shape => exact hw shape rfl
  | payloadCheck => exact (isDigits_iff.mp (isDigits_payloadDigit p)).1
  | _ => exact List.length_replicate

theorem admitted_blank (hc : ∀ shape, .code shape ∈ lead → Reading.codeFlaw? shape s = none)
    (hw : ∀ shape, .code shape ∈ lead → s.length = shape.width) :
    Admitted lead (lead.map (Field.blank s p)) := by
  rw [Admitted, List.forall₂_map_right_iff, List.forall₂_same]
  intro f hf
  exact admits_blank (fun shape he => hc shape (he ▸ hf)) (fun shape he => hw shape (he ▸ hf))

theorem length_lead (hw : ∀ shape, .code shape ∈ lead → s.length = shape.width) :
    (lead.map (Field.blank s p)).flatten.length = width lead := by
  induction lead with
  | nil => rfl
  | cons f lead ih =>
    have hf := length_blank (p := p) fun shape he => hw shape (he ▸ List.mem_cons_self)
    have hrest := ih fun shape hm => hw shape (List.mem_cons_of_mem _ hm)
    rw [List.map_cons, List.flatten_cons, List.length_append, hf, hrest]
    rfl

/-! ## The fields behind the payload -/

theorem exists_empty {fields : List Field} (h : ∀ f ∈ fields, f.isUnbounded = true) :
    ∃ v, Admitted fields v ∧ v.flatten = [] := by
  refine ⟨fields.map fun _ => [], ?_, ?_⟩
  · rw [Admitted, List.forall₂_map_right_iff, List.forall₂_same]
    intro f hf
    exact Field.admits_of_isUnbounded (h f hf) []
  · simp

theorem admits_digit {f : Field} (hf : f.isSpare = true) {d : Text} (hd : isDigits 1 d = true) :
    f.admits d = true := by
  have hlen := (isDigits_iff.mp hd).1
  unfold Field.isSpare at hf
  split at hf
  · exact hd
  · rfl
  · exact decide_eq_true hlen
  · exact hd
  · exact hd
  · cases hf

/-- Spare fields take one digit. -/
theorem exists_spare {fields : List Field} (hs : ∀ f ∈ fields, f.isSpare = true)
    (hne : fields ≠ []) (hone : fields.countP (fun f => !f.isUnbounded) ≤ 1) {d : Text}
    (hd : isDigits 1 d = true) : ∃ v, Admitted fields v ∧ v.flatten = d := by
  induction fields with
  | nil => exact absurd rfl hne
  | cons f fields ih =>
    have hf := admits_digit (hs f (by simp)) hd
    cases hu : f.isUnbounded with
    | false =>
      have hnone : fields.countP (fun f => !f.isUnbounded) = 0 := by
        rw [List.countP_cons_of_pos (by simp [hu])] at hone
        omega
      have hall : ∀ g ∈ fields, g.isUnbounded = true := by
        intro g hg
        simpa using List.countP_eq_zero.mp hnone g hg
      obtain ⟨v, hv, hflat⟩ := exists_empty hall
      exact ⟨d :: v, List.Forall₂.cons hf hv, by rw [List.flatten_cons, hflat, List.append_nil]⟩
    | true =>
      cases fields with
      | nil => exact ⟨[d], List.Forall₂.cons hf List.Forall₂.nil, by simp⟩
      | cons g fields =>
        rw [List.countP_cons_of_neg (by simp [hu])] at hone
        obtain ⟨v, hv, hflat⟩ := ih (fun x hx => hs x (List.mem_cons_of_mem _ hx)) (by simp) hone
        exact ⟨[] :: v, List.Forall₂.cons (Field.admits_of_isUnbounded hu []) hv,
          by rw [List.flatten_cons, hflat, List.nil_append]⟩

theorem eq_of_mem_flatten {v : List Text} {x d : Text} (hx : x ∈ v) (hflat : v.flatten = d)
    (hxl : x.length = 1) (hdl : d.length = 1) : x = d := by
  obtain ⟨a, rfl⟩ := List.length_eq_one_iff.mp hxl
  obtain ⟨b, rfl⟩ := List.length_eq_one_iff.mp hdl
  have ha : a ∈ v.flatten := List.mem_flatten.mpr ⟨[a], hx, by simp⟩
  rw [hflat, List.mem_singleton] at ha
  rw [ha]

/-! ## The payload -/

/-- Zeros in the place of a payload leave the same room for it. -/
theorem append_padZeros {a b d : Text} {j k : Nat}
    (h : a ++ List.replicate j '0' = b ++ List.replicate k '0') (hj : d.length ≤ j)
    (hk : d.length ≤ k) : a ++ padZeros j d = b ++ padZeros k d := by
  have hsplit : ∀ i, d.length ≤ i →
      List.replicate i '0' = List.replicate (i - d.length) '0' ++ List.replicate d.length '0' := by
    intro i hi
    rw [List.replicate_append_replicate, Nat.sub_add_cancel hi]
  rw [hsplit j hj, hsplit k hk, ← List.append_assoc, ← List.append_assoc] at h
  have hcancel := List.append_cancel_right h
  rw [Text.padZeros, Text.padZeros, List.leftpad, List.leftpad, ← List.append_assoc,
    ← List.append_assoc, hcancel]

end Template

end Barcode

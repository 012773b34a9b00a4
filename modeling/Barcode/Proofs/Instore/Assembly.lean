import Barcode.Proofs.Ean.Completion
import Barcode.Proofs.Template.Acceptance
import Barcode.Template.Embedding

/-!
# What an in-store code is built from

A code that is built consists of seven characters of the assembly, the five digits of the
payload and their check digit. Nothing else of the template enters into it: neither the place
nor the width of the payload field.
-/

namespace Barcode.Template

open Sequence
open Text (isDigits isDigits_iff padZeros isDigits_padZeros)

variable {t : Template} {s p : Text} {data : Int}

/-- What the fields contribute, one after another. -/
def assembly (t : Template) (s p : Text) : Text :=
  t.fields.flatMap fun f => (layoutPart s p f).toOption.getD []

theorem flatten_of_parts {fields : List Field} {parts : List Text}
    (h : List.Forall₂ (fun f part => layoutPart s p f = .ok part) fields parts) :
    parts.flatten = fields.flatMap fun f => (layoutPart s p f).toOption.getD [] := by
  induction h with
  | nil => rfl
  | cons hf _ ih =>
    rw [List.flatten_cons, List.flatMap_cons, ih, hf]
    rfl

theorem assembly_of_parts {parts : List Text}
    (h : t.fields.mapM (layoutPart s p) = .ok parts) : parts.flatten = t.assembly s p :=
  flatten_of_parts (mapM_eq_ok.mp h)

theorem payloadText?_eq_some (h : payloadText? data = .ok (some p)) :
    ∃ m : Nat, data = m ∧ m < 10 ^ 5 ∧ p = padZeros 5 (Text.ofNat m) := by
  obtain ⟨digits, hw, h⟩ := bind_eq_ok.mp h
  by_cases hneg : data < 0
  · simp [hneg, pure, Except.pure] at h
  · obtain ⟨m, rfl⟩ := Int.eq_ofNat_of_zero_le (by omega : 0 ≤ data)
    obtain rfl := Text.Numeral.eq_of_write hw
    by_cases hlong : 5 < (Text.ofNat m).length
    · simp [hlong, pure, Except.pure] at h
    · have hlt : m < 10 ^ 5 := (Text.length_ofNat_le_iff (by decide)).mp (by omega)
      have hp : p = padZeros 5 (Text.ofNat m) := by
        simp [hneg, hlong, pure, Except.pure] at h
        exact h.symm
      exact ⟨m, rfl, hlt, hp⟩

/-- Whether a payload has five digits is settled once it is written. -/
theorem exists_payloadText?_iff :
    (∃ p?, payloadText? data = .ok p?) ↔ Text.Numeral.Writable data := by
  rw [← Text.Numeral.exists_write_iff]
  constructor
  · intro h
    obtain ⟨p?, h⟩ := h
    obtain ⟨digits, hw, -⟩ := bind_eq_ok.mp h
    exact ⟨digits, hw⟩
  · intro h
    obtain ⟨digits, hw⟩ := h
    exact ⟨_, bind_eq_ok.mpr ⟨digits, hw, rfl⟩⟩

/-- Every field has its part, because five digits have a check digit. -/
theorem exists_layoutPart (hp : isDigits 5 p = true) (f : Field) :
    ∃ part, layoutPart s p f = .ok part := by
  cases f with
  | payloadCheck =>
    obtain ⟨d, hd⟩ := Ean.exists_payloadCheck hp
    exact ⟨_, map_eq_ok.mpr ⟨d, hd, rfl⟩⟩
  | skip size => cases size <;> exact ⟨_, rfl⟩
  | _ => exact ⟨_, rfl⟩

/-- Building fails only on payloads that cannot be written. -/
theorem exists_synthesize_iff :
    (∃ built, t.synthesize s data = .ok built) ↔ Text.Numeral.Writable data := by
  rw [← exists_payloadText?_iff]
  constructor
  · intro h
    obtain ⟨built, h⟩ := h
    obtain ⟨p?, hp, -⟩ := bind_eq_ok.mp h
    exact ⟨p?, hp⟩
  · intro h
    obtain ⟨p?, hp⟩ := h
    cases p? with
    | none => exact ⟨none, bind_eq_ok.mpr ⟨none, hp, rfl⟩⟩
    | some p =>
      obtain ⟨m, rfl, hm, rfl⟩ := payloadText?_eq_some hp
      have hdigits := isDigits_padZeros (by decide : 0 < 5) hm
      obtain ⟨parts, hparts⟩ := exists_mapM_eq_ok fun f (_ : f ∈ t.fields) =>
        exists_layoutPart (s := s) hdigits f
      unfold synthesize
      rw [hp]
      simp only [bind, Except.bind, hparts]
      split
      · exact ⟨_, rfl⟩
      · split <;> exact ⟨_, rfl⟩

/-- **A code that is built has the first seven characters of the assembly, then the payload.** -/
theorem synthesize_eq_some {code : Ean.Code} (h : t.synthesize s data = .ok (some code)) :
    ∃ m : Nat, data = m ∧ m < 10 ^ 5 ∧
      (∀ shape, .code shape ∈ t.fields → s.length = shape.width) ∧
      isDigits 12 ((t.assembly s (padZeros 5 (Text.ofNat m))).take leadingLength ++
        padZeros 5 (Text.ofNat m)) = true ∧
      code.text = Ean.completed ((t.assembly s (padZeros 5 (Text.ofNat m))).take leadingLength ++
        padZeros 5 (Text.ofNat m)) := by
  unfold synthesize at h
  obtain ⟨payload?, hpayload, h⟩ := bind_eq_ok.mp h
  cases payload? with
  | none => cases h
  | some payload =>
    obtain ⟨m, rfl, hm, rfl⟩ := payloadText?_eq_some hpayload
    simp only at h
    by_cases hfit : t.fields.any (misfits s.length) = true
    · rw [if_pos hfit] at h
      cases h
    rw [if_neg hfit] at h
    obtain ⟨parts, hparts, h⟩ := bind_eq_ok.mp h
    rw [assembly_of_parts hparts] at h
    split at h
    · have hlen : ((t.assembly s (padZeros 5 (Text.ofNat m))).take leadingLength ++
          padZeros 5 (Text.ofNat m)).length ≤ 12 := by
        have hp := (isDigits_iff.mp (isDigits_padZeros (by decide : 0 < 5) hm)).1
        have hseven := List.length_take_le leadingLength (t.assembly s (padZeros 5 (Text.ofNat m)))
        have hlead : leadingLength = 7 := rfl
        rw [List.length_append, hp]
        omega
      obtain ⟨hdigits, htext⟩ := Ean.ean13?_of_length_le hlen (Except.ok.inj h)
      refine ⟨m, rfl, hm, ?_, hdigits, htext⟩
      intro shape hshape
      have hno : ¬ misfits s.length (.code shape) = true :=
        fun hmis => hfit (List.any_eq_true.mpr ⟨_, hshape, hmis⟩)
      have hw : shape.width = s.length := by simpa [misfits] using hno
      exact hw.symm
    · cases h

theorem payloadText?_natCast {m : Nat} (hm : m < 10 ^ 5) :
    payloadText? m = .ok (some (padZeros 5 (Text.ofNat m))) := by
  have hlen : (Text.ofNat m).length ≤ 5 := (Text.length_ofNat_le_iff (by decide)).mpr hm
  have hw : Text.Numeral.Writable m := by
    have hlimit : 5 ≤ Text.Numeral.digitLimit := by decide
    rw [Text.Numeral.Writable, Int.natAbs_natCast]
    omega
  have hneg : ¬ (m : Int) < 0 := by omega
  have hfits : ¬ 5 < (Text.ofNat m).length := by omega
  rw [payloadText?, Text.Numeral.write_natCast hw, ok_bind]
  simp [hneg, hfits, pure, Except.pure]

/-- A code is built when the payload and the short code fit and the characters are digits. -/
theorem synthesize_of_isDigits {m n : Nat} (hm : m < 10 ^ 5)
    (hw : ∀ shape, .code shape ∈ t.fields → s.length = shape.width) (hn : .embed n ∈ t.fields)
    (hd : isDigits 12 ((t.assembly s (padZeros 5 (Text.ofNat m))).take leadingLength ++
      padZeros 5 (Text.ofNat m)) = true) :
    t.synthesize s m = .ok (some ⟨Ean.completed ((t.assembly s (padZeros 5 (Text.ofNat m))).take
      leadingLength ++ padZeros 5 (Text.ofNat m)), .ean13⟩) := by
  have hfit : ¬ t.fields.any (misfits s.length) = true := by
    intro hany
    obtain ⟨f, hf, hmis⟩ := List.any_eq_true.mp hany
    cases f with
    | code shape => exact of_decide_eq_true hmis (hw shape hf).symm
    | _ => cases hmis
  have hpay : t.fields.any isPayload = true := List.any_eq_true.mpr ⟨_, hn, rfl⟩
  obtain ⟨parts, hparts⟩ := exists_mapM_eq_ok fun f (_ : f ∈ t.fields) =>
    exists_layoutPart (s := s) (isDigits_padZeros (by decide : 0 < 5) hm) f
  rw [synthesize, payloadText?_natCast hm, ok_bind]
  simp only
  rw [if_neg hfit, hparts, ok_bind, if_pos hpay, assembly_of_parts hparts,
    Ean.ean13?_of_twelve hd]
  rfl

end Barcode.Template

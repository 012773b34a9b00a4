import Barcode.Proofs.Number.Numeral
import Barcode.Proofs.Number.Precision
import Barcode.Proofs.Template.Lossless
import Barcode.Report

/-!
# Embedded decimals as texts

The text of an embedded decimal is read back as the quotient that its digits stand for, rounded to
28 significant digits. Within these digits nothing is lost, not even the number of places behind
the point, so different slices of a field of up to 28 digits give different texts.
-/

namespace Barcode

open Number (Rounded Scaled)
open Sequence
open Text.Numeral (digitLimit)

/-- An embedded decimal has a text, which is read back as the rounded quotient. -/
theorem EmbeddedDecimal.exists_text {i f v : ℕ} (hv : v < 10 ^ digitLimit) (hf : f ≤ 999999) :
    ∃ x, (EmbeddedDecimal.mk i f v).decimal = .ok x ∧ Scaled.read? x.text = some x ∧
      (∀ q, Rounded 28 (v / 10 ^ f) q ↔ q = x.toRat) ∧
      (v < 10 ^ 28 → x = ⟨false, v, -f⟩ ∧ x.toRat = v / 10 ^ f) := by
  obtain ⟨x, hx, hrounded, hshort⟩ := Scaled.exists_shift (Text.Numeral.writable_iff.mpr hv) hf
  refine ⟨x, hx, Scaled.read?_text x, fun q => ⟨fun hq => hq.unique hrounded, ?_⟩, fun hlt => ?_⟩
  · rintro rfl
    exact hrounded
  · obtain rfl := hshort hlt
    refine ⟨rfl, ?_⟩
    rw [Scaled.toRat_positive, zpow_neg, zpow_natCast, div_eq_mul_inv]

namespace Template

variable {id text c s : Text} {t : Template} {r : Reading} {i f : ℕ}

/-- The text of a decimal field of up to 28 digits is read back as the number of its slice, with as
many places behind the point as the field has. -/
theorem decimalText_of_mem (h : compile id text = .ok t) (hs : t.split? c = some r)
    (he : (.embedDecimal i f, s) ∈ r.entries) (hlength : i + f ≤ 28) :
    ∃ w, Report.decimalText r = .ok (some w) ∧
      Scaled.read? w = some ⟨false, Text.toNat s, -f⟩ := by
  have hlimit : i + f ≤ digitLimit := hlength.trans (by decide)
  obtain ⟨hl, hd⟩ := Text.isDigits_iff.mp (isDigits_of_mem hs he rfl)
  have hvalue : Text.toNat s < 10 ^ (i + f) := hl ▸ Text.toNat_lt hd
  have hpow := fun {n : ℕ} => Nat.pow_le_pow_right (n := 10) (i := i + f) (j := n) (by decide)
  obtain ⟨x, hx, hread, -, hshort⟩ := EmbeddedDecimal.exists_text (i := i)
    (hvalue.trans_le (hpow hlimit)) (f := f) (by omega)
  obtain ⟨rfl, -⟩ := hshort (hvalue.trans_le (hpow hlength))
  refine ⟨_, ?_, hread⟩
  rw [Report.decimalText, embeddedDecimal_of_mem h hs he hlimit]
  simp only [ok_bind, hx]
  rfl

end Template

/-- **Embedded decimals are written with their exact value.** The text of every integer of up to
4300 digits with up to 999999 places behind the point is read back, and as the quotient rounded to
28 significant digits. Below `10 ^ 28` the quotient is exact, and the exponent is the one of the
field; so two codes that are matched with different slices of a decimal field never give the same
text. -/
theorem EmbeddedDecimal.text_exact :
    (∀ i f v : ℕ, v < 10 ^ digitLimit → f ≤ 999999 →
      ∃ x y, (EmbeddedDecimal.mk i f v).decimal = .ok x ∧ Scaled.read? x.text = some y ∧
        (∀ q, Rounded 28 (v / 10 ^ f) q ↔ q = y.toRat) ∧
        (v < 10 ^ 28 → y = ⟨false, v, -f⟩ ∧ y.toRat = v / 10 ^ f)) ∧
    ∀ (t t' : Template) (id id' text text' c c' s s' : Text) (r r' : Reading) (i f : ℕ),
      Template.compile id text = .ok t → Template.compile id' text' = .ok t' →
      t.read c = .ok (.accepted r) → t'.read c' = .ok (.accepted r') →
      (.embedDecimal i f, s) ∈ r.entries → (.embedDecimal i f, s') ∈ r'.entries → i + f ≤ 28 →
      s ≠ s' → ∃ w w', Report.decimalText r = .ok (some w) ∧
        Report.decimalText r' = .ok (some w') ∧ w ≠ w' := by
  constructor
  · intro i f v hv hf
    obtain ⟨x, hx, hread, hrounded, hshort⟩ := EmbeddedDecimal.exists_text (i := i) hv hf
    exact ⟨x, x, hx, hread, hrounded, hshort⟩
  · intro t t' id id' text text' c c' s s' r r' i f h h' hr hr' he he' hlength hne
    obtain ⟨hs, -⟩ := Template.read_eq_accepted_iff.mp hr
    obtain ⟨hs', -⟩ := Template.read_eq_accepted_iff.mp hr'
    obtain ⟨w, hw, hread⟩ := Template.decimalText_of_mem h hs he hlength
    obtain ⟨w', hw', hread'⟩ := Template.decimalText_of_mem h' hs' he' hlength
    refine ⟨w, w', hw, hw', ?_⟩
    rintro rfl
    have hvalue := (Scaled.mk.inj (Option.some.inj (hread.symm.trans hread'))).2.1
    exact hne (Text.eq_of_isDigits (Template.isDigits_of_mem hs he rfl)
      (Template.isDigits_of_mem hs' he' rfl) hvalue)

/-- Rounding 29 digits carries through all of them; and two weights in grams. -/
theorem EmbeddedDecimal.text_exact_carry :
    (∃ x y, (EmbeddedDecimal.mk 26 3 99999999999999999999999999995).decimal = .ok x ∧
      x.text = "100000000000000000000000000.0".toList ∧ Scaled.read? x.text = some y ∧
      Rounded 28 (99999999999999999999999999995 / 10 ^ 3) y.toRat) ∧
    ∃ t r r' w w', Template.compile [] (Text.withBraces "[embed:2.3]") = .ok t ∧
      t.read "00745".toList = .ok (.accepted r) ∧ t.read "00746".toList = .ok (.accepted r') ∧
      Report.decimalText r = .ok (some w) ∧ Report.decimalText r' = .ok (some w') ∧ w ≠ w' := by
  obtain ⟨hnumber, hmatches⟩ := EmbeddedDecimal.text_exact
  constructor
  · let x : Scaled := ⟨false, 1000000000000000000000000000, -1⟩
    have hlimit : 99999999999999999999999999995 < 10 ^ digitLimit :=
      calc 99999999999999999999999999995 < 10 ^ 29 := by norm_num
        _ ≤ 10 ^ digitLimit := Nat.pow_le_pow_right (by decide) (by decide)
    obtain ⟨x', y, hx', hread, hrounded, -⟩ := hnumber 26 3 _ hlimit (by decide)
    have hx : (EmbeddedDecimal.mk 26 3 (99999999999999999999999999995 : ℕ)).decimal = .ok x :=
      rfl
    obtain rfl : x' = x := Except.ok.inj (hx'.symm.trans hx)
    exact ⟨x, y, hx, by decide +kernel, hread, by simpa using (hrounded _).mpr rfl⟩
  · let t : Template := ⟨[], Text.withBraces "[embed:2.3]", [.embedDecimal 2 3]⟩
    have hcompile : Template.compile [] t.text = .ok t := by cbv
    let r : Reading := ⟨t, [(.embedDecimal 2 3, "00745".toList)]⟩
    let r' : Reading := ⟨t, [(.embedDecimal 2 3, "00746".toList)]⟩
    have hread : t.read "00745".toList = .ok (.accepted r) := by cbv
    have hread' : t.read "00746".toList = .ok (.accepted r') := by cbv
    obtain ⟨w, w', hw⟩ := hmatches t t [] [] t.text t.text _ _ "00745".toList "00746".toList r r'
      2 3 hcompile hcompile hread hread' (by simp [r]) (by simp [r']) (by decide) (by decide)
    exact ⟨t, r, r', w, w', hcompile, hread, hread', hw⟩

end Barcode

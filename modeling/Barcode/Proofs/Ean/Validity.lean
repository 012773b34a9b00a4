import Barcode.Proofs.Ean.Parsing

/-!
# Valid EANs

Validation compares the last digit of a text with the check digit that belongs to the text. In a
text of full length that is where the check digit stands; seven and twelve digits have none yet,
and their last digit is compared with the one that would be put behind it. So a text is valid when
it is an article number, and also when it would repeat its last digit and no encoding is required.
-/

namespace Barcode.Ean

open Text (isNumeric isNumeric_iff)

variable {s : Text} {d : Nat} {encoding? : Option Encoding}

/-! ## Texts that are parsed as themselves -/

theorem Encoding.eq_of_length_eq {e e' : Encoding} (h : e.length = e'.length) : e = e' := by
  revert h
  cases e <;> cases e' <;> decide

/-- The texts that are parsed as themselves are the article numbers, and their length is that of
the encoding. -/
theorem parse?_self_iff :
    (∃ code, parse? s = some code ∧ code.text = s ∧ ∀ e ∈ encoding?, code.encoding = e) ↔
      Complete s ∧ ∀ e ∈ encoding?, s.length = e.length := by
  constructor
  · intro h
    obtain ⟨code, hparse, htext, hencoding⟩ := h
    have hlength : s.length = code.encoding.length := by
      obtain ⟨e, hl, hn, -, rfl⟩ := parse?_eq_some_iff.mp hparse
      rw [← htext]
      exact length_completed_of_isDigits (isDigits_take hl hn)
    refine ⟨?_, fun e he => by rw [hlength, hencoding e he]⟩
    rcases exists_parse?_iff.mp ⟨code, hparse⟩ with ⟨-, hshort⟩ | hcomplete
    · have hfull := Encoding.exists_length_iff.mp ⟨code.encoding, hlength.symm⟩
      omega
    · exact hcomplete
  · intro h
    obtain ⟨hcomplete, hlengths⟩ := h
    obtain ⟨code, hparse⟩ := exists_parse?_iff.mpr (Or.inr hcomplete)
    obtain ⟨e, hl, hn, hlast, rfl⟩ := parse?_eq_some_iff.mp hparse
    have hfull : s.length = e.length := by
      refine (Encoding.length_of_mem hl).resolve_right fun hshort => ?_
      have hlength := hcomplete.length
      have hshort := Encoding.exists_short_iff.mp ⟨e, hl, hshort⟩
      omega
    have hbody := isDigits_take hl hn
    refine ⟨_, hparse, ?_, fun e' he' => Encoding.eq_of_length_eq (hfull ▸ hlengths e' he')⟩
    refine (completed_take hl hn hlast).resolve_right fun hlonger => ?_
    have hlength := length_completed_of_isDigits hbody
    rw [hlonger, List.length_append, Text.ofNat_digit (check_lt s), List.length_singleton,
      hfull] at hlength
    omega

/-! ## The digit that is compared -/

theorem exists_mem_of_bodyLength? {n k : Nat} (h : bodyLength? n = some k) :
    ∃ e : Encoding, n ∈ e.lengths ∧ e.length - 1 = k := by
  unfold bodyLength? at h
  split at h
  · exact ⟨.ean8, by decide, Option.some.inj h⟩
  · exact ⟨.ean8, by decide, Option.some.inj h⟩
  · exact ⟨.ean13, by decide, Option.some.inj h⟩
  · exact ⟨.ean13, by decide, Option.some.inj h⟩
  · exact ⟨.ean14, by decide, Option.some.inj h⟩
  · cases h

theorem checkDigitOf?_eq_some_iff : checkDigitOf? s = some d ↔
    ∃ e : Encoding, s.length ∈ e.lengths ∧ isNumeric s = true ∧
      check (s.take (e.length - 1)) = d := by
  constructor
  · intro h
    obtain ⟨k, hk, h⟩ := Option.bind_eq_some_iff.mp h
    obtain ⟨e, hl, rfl⟩ := exists_mem_of_bodyLength? hk
    split at h
    · next hn => exact ⟨e, hl, hn, Option.some.inj h⟩
    · cases h
  · intro h
    obtain ⟨e, hl, hn, rfl⟩ := h
    exact checkDigitOf?_of_mem hl hn

/-- The check digit of a text is its last digit for article numbers, and for texts that would
repeat it. -/
theorem checkDigitOf?_eq_lastDigit_iff :
    checkDigitOf? s = some (lastDigit s) ↔ Complete s ∨ Repeating s := by
  rw [checkDigitOf?_eq_some_iff, ← parse?_lastDigit]
  constructor
  · intro h
    obtain ⟨e, hl, hn, hcheck⟩ := h
    exact ⟨_, parse?_eq_some_iff.mpr ⟨e, hl, hn, fun _ => hcheck.symm, rfl⟩,
      (checkDigit_completed _ _).trans hcheck⟩
  · intro h
    obtain ⟨code, hparse, hcheck⟩ := h
    obtain ⟨e, hl, hn, -, rfl⟩ := parse?_eq_some_iff.mp hparse
    rw [checkDigit_completed] at hcheck
    exact ⟨e, hl, hn, hcheck⟩

theorem compareCheckDigit_valid_iff :
    (compareCheckDigit s).valid = true ↔ checkDigitOf? s = some (lastDigit s) := by
  unfold compareCheckDigit
  split
  · next h => simp [h]
  · next calculated h =>
    rw [h, Option.some.injEq]
    by_cases hd : lastDigit s = calculated
    · simp [hd]
    · simp [hd, Ne.symm hd]

theorem compareCheckDigit_defects_eq_nil_iff :
    (compareCheckDigit s).defects = [] ↔ (compareCheckDigit s).valid = true := by
  unfold compareCheckDigit
  split
  · simp
  · dsimp only
    split <;> simp

/-! ## Valid texts -/

/-- Only a numeric text of the required length is compared with its check digit; every other one
has a defect already. -/
theorem validate_eq (s : Text) (encoding? : Option Encoding) :
    validate s encoding? = compareCheckDigit s ∧ isNumeric s = true ∧
        (∀ e ∈ encoding?, s.length = e.length) ∨
      (validate s encoding?).valid = false ∧ (validate s encoding?).defects ≠ [] ∧
        ¬ (isNumeric s = true ∧ ∀ e ∈ encoding?, s.length = e.length) := by
  unfold validate
  cases hn : isNumeric s with
  | false => simp
  | true =>
    cases encoding? with
    | none => simp
    | some e => by_cases hl : s.length = e.length <;> simp [hl]

theorem validate_valid_iff : (validate s encoding?).valid = true ↔
    (Complete s ∨ Repeating s) ∧ ∀ e ∈ encoding?, s.length = e.length := by
  rcases validate_eq s encoding? with ⟨he, -, hl⟩ | ⟨hv, -, hnot⟩
  · rw [he, compareCheckDigit_valid_iff, checkDigitOf?_eq_lastDigit_iff]
    exact (and_iff_left hl).symm
  · rw [hv]
    refine iff_of_false Bool.false_ne_true fun h => hnot ⟨?_, h.2⟩
    exact h.1.elim Complete.numeric Repeating.numeric

theorem validate_defects_eq_nil_iff :
    (validate s encoding?).defects = [] ↔ (validate s encoding?).valid = true := by
  rcases validate_eq s encoding? with ⟨he, -, -⟩ | ⟨hv, hd, -⟩
  · rw [he]
    exact compareCheckDigit_defects_eq_nil_iff
  · rw [hv]
    exact iff_of_false hd Bool.false_ne_true

/-- Check digits are compared in numeric texts only. -/
theorem isNumeric_of_checkDigits? (h : (validate s encoding?).checkDigits? ≠ none) :
    isNumeric s = true := by
  by_contra hn
  refine h ?_
  rw [Bool.not_eq_true] at hn
  simp only [validate, hn, Bool.not_false, if_true]

theorem Repeating.not_complete (h : Repeating s) : ¬ Complete s := by
  intro hc
  have hshort := h.length
  have hfull := hc.length
  omega

/-- No encoding has the length of a text that lacks its check digit. -/
theorem Repeating.encoding_eq_none (h : Repeating s) (hl : ∀ e ∈ encoding?, s.length = e.length) :
    encoding? = none := by
  cases encoding? with
  | none => rfl
  | some e =>
    have hshort := h.length
    have hfull := Encoding.exists_length_iff.mp ⟨e, (hl e rfl).symm⟩
    omega

/-- With a required encoding, valid are the article numbers of its length. -/
theorem validate_some_valid_iff {e : Encoding} :
    (validate s (some e)).valid = true ↔ Complete s ∧ s.length = e.length := by
  rw [validate_valid_iff]
  constructor
  · intro h
    obtain ⟨hchecked, hl⟩ := h
    refine ⟨hchecked.resolve_right fun hr => ?_, hl e rfl⟩
    cases hr.encoding_eq_none hl
  · intro h
    exact ⟨Or.inl h.1, fun e' he' => Option.some.inj he' ▸ h.2⟩

/-- **Valid are the article numbers, and what would repeat its last digit.** A text is valid
exactly when it is parsed as itself, with the encoding that is required; but without a required
encoding seven and twelve digits are valid as well when they end in the check digit that belongs
behind them, and they are not parsed as themselves. No defect is reported exactly for valid
texts. -/
theorem validate_iff_parse? (s : Text) (encoding? : Option Encoding) :
    ((validate s encoding?).valid = true ↔
      (∃ code, parse? s = some code ∧ code.text = s ∧ ∀ e ∈ encoding?, code.encoding = e) ∨
        encoding? = none ∧ Repeating s) ∧
    (Repeating s → ¬ ∃ code, parse? s = some code ∧ code.text = s) ∧
    ((validate s encoding?).valid = true ↔ (validate s encoding?).defects = []) := by
  refine ⟨?_, ?_, validate_defects_eq_nil_iff.symm⟩
  · rw [validate_valid_iff, parse?_self_iff]
    constructor
    · intro h
      obtain ⟨hc | hr, hl⟩ := h
      · exact Or.inl ⟨hc, hl⟩
      · exact Or.inr ⟨hr.encoding_eq_none hl, hr⟩
    · intro h
      obtain ⟨hc, hl⟩ | ⟨rfl, hr⟩ := h
      · exact ⟨Or.inl hc, hl⟩
      · exact ⟨Or.inr hr, fun e he => nomatch he⟩
  · intro hr hself
    obtain ⟨code, hparse, htext⟩ := hself
    have hnone : ∀ e ∈ (none : Option Encoding), code.encoding = e := fun e he => nomatch he
    have hcomplete := parse?_self_iff.mp ⟨code, hparse, htext, hnone⟩
    exact hr.not_complete hcomplete.1

/-- Seven digits are valid although they are no article number. -/
theorem validate_repeating : (validate "2957781".toList).valid = true ∧
    ¬ ∃ code, parse? "2957781".toList = some code ∧ code.text = "2957781".toList := by
  have hr : Repeating "2957781".toList := ⟨by decide, by decide, rfl⟩
  obtain ⟨hvalid, hparse, -⟩ := validate_iff_parse? "2957781".toList none
  exact ⟨hvalid.mpr (Or.inr ⟨rfl, hr⟩), hparse hr⟩

end Barcode.Ean

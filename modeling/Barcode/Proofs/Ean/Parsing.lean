import Barcode.Proofs.Ean.Detection
import Barcode.Proofs.Ean.Scanned

/-!
# Parsed EANs

Parsing, the constructors of the encodings, the check digit of a text and validation each know by
themselves which lengths there are and where the check digit stands. They agree: a text is parsed
exactly when the constructor of one encoding takes it, and a parsed code is complete, so it is
parsed as itself and valid. Which texts and codes these are does not depend on how the check digit
is computed: they are those whose digits are balanced.
-/

namespace Barcode.Ean

open Text (isNumeric isNumeric_iff)

variable {s body : Text} {code : Code} {e : Encoding}

theorem isDigit_digitChar_check (t : Text) : (check t).digitChar.isDigit = true := by
  refine Text.isDigit_ofNat (n := check t) ?_
  rw [Text.ofNat_digit (check_lt t)]
  exact List.mem_singleton_self _

theorem digitValue_digitChar_check (t : Text) :
    Text.digitValue (check t).digitChar = check t :=
  Nat.toNat_digitChar_sub_48_of_lt_ten (check_lt t)

/-! ## What is parsed -/

/-- A numeric text is its digits before the last, followed by the last. -/
theorem dropLast_append_lastDigit (hn : isNumeric s = true) :
    s.dropLast ++ Text.ofNat (lastDigit s) = s := by
  obtain ⟨hne, hd⟩ := isNumeric_iff.mp hn
  obtain ⟨front, c, rfl⟩ := (List.eq_nil_or_concat' s).resolve_left hne
  have hc : c.isDigit = true := hd c (by simp)
  rw [lastDigit_concat, Text.ofNat_digit (Text.digitValue_lt hc), Text.digitChar_digitValue hc,
    List.dropLast_concat]

/-- A parsed code is the text itself, or the text with its check digit behind it. -/
theorem completed_take (hl : s.length ∈ e.lengths) (hn : isNumeric s = true)
    (hlast : s.length = e.length → lastDigit s = check (s.take (e.length - 1))) :
    completed (s.take (e.length - 1)) = s ∨
      completed (s.take (e.length - 1)) = s ++ Text.ofNat (check s) := by
  rcases Encoding.length_of_mem hl with hfull | hshort
  · left
    rw [completed, ← hlast hfull, ← hfull, ← List.dropLast_eq_take]
    exact dropLast_append_lastDigit hn
  · right
    rw [List.take_of_length_le (by omega), completed]

theorem exists_parse?_iff : (∃ code, parse? s = some code) ↔
    isNumeric s = true ∧ (s.length = 7 ∨ s.length = 12) ∨ Complete s := by
  constructor
  · intro h
    obtain ⟨code, h⟩ := h
    obtain ⟨e, hl, hn, hlast, rfl⟩ := parse?_eq_some_iff.mp h
    rcases Encoding.length_of_mem hl with hfull | hshort
    · have hlength := Encoding.exists_length_iff.mp ⟨e, hfull.symm⟩
      have hcheck := hlast hfull
      rw [← hfull, ← List.dropLast_eq_take] at hcheck
      exact Or.inr ⟨hlength, hn,
        (checkDigit_eq_ok_iff _ _).mpr ⟨isNumeric_dropLast hn (by omega), hcheck.symm⟩⟩
    · exact Or.inl ⟨hn, Encoding.exists_short_iff.mp ⟨e, hl, hshort⟩⟩
  · intro h
    rcases h with ⟨hn, hl⟩ | hc
    · obtain ⟨e, hl, hshort⟩ := Encoding.exists_short_iff.mpr hl
      exact ⟨_, parse?_eq_some_iff.mpr ⟨e, hl, hn, fun hfull => by omega, rfl⟩⟩
    · obtain ⟨code, hcode, -⟩ := parse?_lastDigit.mpr (Or.inl hc)
      exact ⟨code, hcode⟩

/-! ## The sum of the digits -/

/-- Digits with one more behind them are balanced when that is their check digit. -/
theorem balance_concat_char_iff {c : Char} (hc : c.isDigit = true) :
    balance ((body ++ [c]).map Text.digitValue) % 10 = 0 ↔ check body = Text.digitValue c := by
  rw [List.map_append, List.map_singleton, balance_concat_iff (Text.digitValue_lt hc)]
  exact eq_comm

/-- The article numbers are the balanced numbers of their lengths. -/
theorem complete_iff_balance : Complete s ↔
    (s.length = 8 ∨ s.length = 13 ∨ s.length = 14) ∧ isNumeric s = true ∧
      balance (s.map Text.digitValue) % 10 = 0 := by
  rw [complete_iff]
  refine and_congr_right fun hl => and_congr_right fun hn => ?_
  have hbody : isNumeric s.dropLast = true := isNumeric_dropLast hn (by omega)
  obtain ⟨hne, hd⟩ := isNumeric_iff.mp hn
  obtain ⟨front, c, rfl⟩ := (List.eq_nil_or_concat' s).resolve_left hne
  rw [List.dropLast_concat] at hbody
  rw [List.dropLast_concat, lastDigit_concat, checkDigit_eq_ok_iff,
    balance_concat_char_iff (hd c (by simp)), and_iff_right hbody]

/-- What a body is completed to is balanced. -/
theorem balance_completed (body : Text) :
    balance ((completed body).map Text.digitValue) % 10 = 0 := by
  rw [completed, Text.ofNat_digit (check_lt body),
    balance_concat_char_iff (isDigit_digitChar_check body)]
  exact (digitValue_digitChar_check body).symm

/-- **What is parsed, by the sum of its digits.** Seven and twelve digits are parsed; of the texts
of 8, 13 and 14 digits those are in which the digits, counted once and three times in turn from
the right, sum up to a multiple of ten. So do the digits of every parsed code. -/
theorem parse?_balanced (s : Text) :
    ((∃ code, parse? s = some code) ↔ isNumeric s = true ∧
      (s.length = 7 ∨ s.length = 12 ∨ (s.length = 8 ∨ s.length = 13 ∨ s.length = 14) ∧
        balance (s.map Text.digitValue) % 10 = 0)) ∧
    ∀ code, parse? s = some code → balance (code.text.map Text.digitValue) % 10 = 0 := by
  constructor
  · rw [exists_parse?_iff, complete_iff_balance]
    tauto
  · intro code h
    obtain ⟨e, -, -, -, rfl⟩ := parse?_eq_some_iff.mp h
    exact balance_completed _

/-! ## The last digit -/

/-- Of the ten digits that may stand last, one makes a numeric text an article number. -/
theorem complete_concat_iff {c : Char} (hb : isNumeric body = true)
    (hl : body.length + 1 = 8 ∨ body.length + 1 = 13 ∨ body.length + 1 = 14)
    (hc : c.isDigit = true) : Complete (body ++ [c]) ↔ c = (check body).digitChar := by
  obtain ⟨-, hd⟩ := isNumeric_iff.mp hb
  have hnumeric : isNumeric (body ++ [c]) = true := by
    refine isNumeric_iff.mpr ⟨by simp, fun x hx => ?_⟩
    rcases List.mem_append.mp hx with h | h
    · exact hd x h
    · rwa [List.mem_singleton.mp h]
  rw [complete_iff_balance, balance_concat_char_iff hc, List.length_append,
    List.length_singleton, and_iff_right hl, and_iff_right hnumeric]
  constructor
  · intro h
    rw [h, Text.digitChar_digitValue hc]
  · intro h
    rw [h]
    exact (digitValue_digitChar_check body).symm

/-- **The functions on EANs agree.** A text is parsed exactly when it is numeric and has 7 or 12
digits, or is an article number of 8, 13 or 14 digits with its check digit. What it is parsed as
has the length of its encoding and is the text or the text with one digit more; the check digit is
that of the text; it is parsed as itself, made of the text by the constructor of its encoding, and
valid for the encoding. Of the ten last digits of a numeric text of full length one is right. -/
theorem parse?_agrees (s : Text) :
    ((∃ code, parse? s = some code) ↔
      isNumeric s = true ∧ (s.length = 7 ∨ s.length = 12) ∨ Complete s) ∧
    (∀ code, parse? s = some code →
      code.text.length = code.encoding.length ∧
      (code.text = s ∨ ∃ d : Char, d.isDigit = true ∧ code.text = s ++ [d]) ∧
      checkDigitOf? s = some code.checkDigit ∧
      parse? code.text = some code ∧
      code.encoding.construct? s = some code ∧
      (validate code.text (some code.encoding)).valid = true) ∧
    (isNumeric s = true → s.length = 8 ∨ s.length = 13 ∨ s.length = 14 →
      ∃! d : Char, d.isDigit = true ∧ (parse? (s.dropLast ++ [d])).isSome = true) := by
  refine ⟨exists_parse?_iff, ?_, ?_⟩
  · intro code h
    have hconstruct := parse?_eq_some_iff_construct?.mp h
    obtain ⟨e, hl, hn, hlast, rfl⟩ := parse?_eq_some_iff.mp h
    have hb := isDigits_take hl hn
    refine ⟨length_completed_of_isDigits hb, ?_, ?_, parse?_completed hb, hconstruct,
      valid_completed hb⟩
    · refine (completed_take hl hn hlast).imp_right fun hconcat => ?_
      exact ⟨(check s).digitChar, isDigit_digitChar_check s,
        by rw [hconcat, Text.ofNat_digit (check_lt s)]⟩
    · rw [checkDigitOf?_of_mem hl hn, checkDigit_completed]
  · intro hn hl
    have hbody : isNumeric s.dropLast = true := isNumeric_dropLast hn (by omega)
    have hlength : s.dropLast.length + 1 = s.length := by
      rw [List.length_dropLast]
      omega
    have hparsed : ∀ d : Char, d.isDigit = true →
        ((parse? (s.dropLast ++ [d])).isSome = true ↔ d = (check s.dropLast).digitChar) := by
      intro d hd
      rw [← complete_concat_iff hbody (by rwa [hlength]) hd, Option.isSome_iff_exists,
        exists_parse?_iff, or_iff_right]
      rintro ⟨-, hshort⟩
      rw [List.length_append, List.length_singleton, hlength] at hshort
      omega
    have hdigit := isDigit_digitChar_check s.dropLast
    refine ⟨(check s.dropLast).digitChar, ⟨hdigit, (hparsed _ hdigit).mpr rfl⟩, ?_⟩
    intro d hd
    exact (hparsed d hd.1).mp hd.2

/-- Twelve digits are parsed as the code that one last digit makes of them. -/
theorem parse?_agrees_completed :
    (∃ code, parse? "295778300074".toList = some code ∧ parse? code.text = some code ∧
      checkDigitOf? "295778300074".toList = some code.checkDigit) ∧
    ∃! d : Char, d.isDigit = true ∧ (parse? ("295778300074".toList ++ [d])).isSome = true := by
  obtain ⟨hparsed, hcode, -⟩ := parse?_agrees "295778300074".toList
  obtain ⟨code, h⟩ := hparsed.mpr (Or.inl ⟨by decide, Or.inr (by decide)⟩)
  obtain ⟨-, -, hcheck, hagain, -⟩ := hcode code h
  obtain ⟨-, -, hunique⟩ := parse?_agrees "2957783000742".toList
  exact ⟨⟨code, h, hagain, hcheck⟩, hunique (by decide) (Or.inr (Or.inl (by decide)))⟩

end Barcode.Ean

import Barcode.Document.Reader
import Barcode.Document.Writer

/-!
# Quoted texts are read back

Every character of a quoted text is read back from what is written for it, whatever comes behind:
the quote, the backslash and five control characters from a letter behind a backslash, the other
control characters from their code points, and all others from themselves. A text is read up to
the quote that closes it.
-/

namespace Barcode.Document

namespace Reader

variable {a b c d : Char} {n : Nat}

theorem readText_of_hexNumber?_none (h : hexNumber? a b c d = none) (rest : Text) :
    readText ('\\' :: 'u' :: a :: b :: c :: d :: rest) = .error .malformed := by
  by_cases hu : ∃ e f g h rest', rest = '\\' :: 'u' :: e :: f :: g :: h :: rest'
  · obtain ⟨e, f, g, h', rest', rfl⟩ := hu
    rw [readText, h]
  · rw [readText, h]
    exact fun e f g h' rest' hrest => hu ⟨e, f, g, h', rest', hrest⟩

/-- An escaped code point stands for its character, unless it is half of one. -/
theorem readText_codePoint (hn : hexNumber? a b c d = some n) (hhigh : isHighHalf n = false)
    (hlow : isLowHalf n = false) (rest : Text) :
    readText ('\\' :: 'u' :: a :: b :: c :: d :: rest) = cons (Char.ofNat n) (readText rest) := by
  by_cases hu : ∃ e f g h rest', rest = '\\' :: 'u' :: e :: f :: g :: h :: rest'
  · obtain ⟨e, f, g, h', rest', rfl⟩ := hu
    rw [readText, hn]
    -- the escape behind this one decides only whether there is a text at all
    cases hnext : hexNumber? e f g h' with
    | none =>
      rw [readText_of_hexNumber?_none hnext]
      rfl
    | some m => simp only [hhigh, hlow, Bool.false_and, Bool.or_false, Bool.false_eq_true, if_false]
  · rw [readText, hn]
    · simp only [hhigh, hlow, Bool.or_false, Bool.false_eq_true, if_false]
    · exact fun e f g h' rest' hrest => hu ⟨e, f, g, h', rest', hrest⟩

theorem readText_letter (hu : c ≠ 'u') {e : Char} (he : simpleEscape? c = some e) (rest : Text) :
    readText ('\\' :: c :: rest) = cons e (readText rest) := by
  rw [readText, he]
  · exact fun _ _ _ _ _ _ _ _ _ h => absurd h hu
  · exact fun _ _ _ _ _ h => absurd h hu

theorem readText_plain (hquote : c ≠ '"') (hslash : c ≠ '\\') (hc : ¬ c.toNat < 0x20)
    (rest : Text) : readText (c :: rest) = cons c (readText rest) := by
  rw [readText]
  · rw [decide_eq_false hc, decide_eq_false hslash]
    rfl
  · exact hquote
  · exact fun _ _ _ _ _ _ _ _ _ h => absurd h hslash
  · exact fun _ _ _ _ _ h => absurd h hslash
  · exact fun _ _ h => absurd h hslash

end Reader

namespace Value

open Reader

/-- The four digits that are written for a control character denote it. -/
theorem hexNumber?_hexadecimal : ∀ n < 0x20,
    Text.Quoted.hexadecimal 4 n = ['0', '0', (n / 16).digitChar, (n % 16).digitChar] ∧
      hexNumber? '0' '0' (n / 16).digitChar (n % 16).digitChar = some n := by
  decide

/-- What is written for a character is read back as that character. -/
theorem readText_escaped (c : Char) (rest : Text) :
    readText (escaped c ++ rest) = cons c (readText rest) := by
  unfold escaped
  split
  · next h =>
    rcases Bool.or_eq_true_iff.mp h with h | h <;> rw [of_decide_eq_true h] <;>
      exact readText_letter (by decide) rfl rest
  · next hmark =>
    simp only [Bool.or_eq_true, decide_eq_true_eq, not_or] at hmark
    repeat' split
    · next h => exact h ▸ readText_letter (by decide) rfl rest
    · next h => exact h ▸ readText_letter (by decide) rfl rest
    · next h => exact h ▸ readText_letter (by decide) rfl rest
    · next h => exact h ▸ readText_letter (by decide) rfl rest
    · next h => exact h ▸ readText_letter (by decide) rfl rest
    · next h =>
      obtain ⟨hdigits, hnumber⟩ := hexNumber?_hexadecimal c.toNat h
      have hhigh : isHighHalf c.toNat = false := by
        simp only [isHighHalf, Bool.and_eq_false_iff, decide_eq_false_iff_not]
        omega
      have hlow : isLowHalf c.toNat = false := by
        simp only [isLowHalf, Bool.and_eq_false_iff, decide_eq_false_iff_not]
        omega
      have hread := readText_codePoint hnumber hhigh hlow rest
      rw [Char.ofNat_toNat] at hread
      rw [hdigits]
      exact hread
    · next h => exact readText_plain hmark.1 hmark.2 h rest

/-- A text that has been quoted is read back up to its closing quote. -/
theorem readText_quoted (t rest : Text) :
    readText (t.flatMap escaped ++ '"' :: rest) = .ok (t, rest) := by
  induction t with
  | nil => rw [List.flatMap_nil, List.nil_append, readText]
  | cons c t ih =>
    rw [List.flatMap_cons, List.append_assoc, readText_escaped, ih]
    rfl

end Value

end Barcode.Document

import Barcode.Proofs.Template.Acceptance
import Barcode.Proofs.Template.Compiled

/-!
# Scanned codes with an EAN check digit

A template that ends in an EAN check digit compares it with the one of the parsed code. Codes of
seven and twelve digits are completed when they are parsed, so for them the digit compared is not
one of the code: they pass when completing them would repeat their last digit. Codes of the three
full lengths pass exactly when they are article numbers.
-/

namespace Barcode

open Sequence
open Grammar (Lawful)
open Text (isDigits isDigits_iff isNumeric isNumeric_iff)

namespace Ean

/-- An article number with its check digit: the last digit is the one that belongs to the digits
before it. -/
@[mk_iff]
structure Complete (c : Text) : Prop where
  length : c.length = 8 ∨ c.length = 13 ∨ c.length = 14
  numeric : isNumeric c = true
  check : checkDigit c.dropLast = .ok (lastDigit c)

/-- Digits without a check digit, the last of which is the check digit that all of them lack. -/
@[mk_iff]
structure Repeating (c : Text) : Prop where
  length : c.length = 7 ∨ c.length = 12
  numeric : isNumeric c = true
  check : checkDigit c = .ok (lastDigit c)

variable {c : Text}

theorem isNumeric_dropLast (hc : isNumeric c = true) (hl : 1 < c.length) :
    isNumeric c.dropLast = true := by
  obtain ⟨-, hd⟩ := isNumeric_iff.mp hc
  have hne : c.dropLast ≠ [] := by
    apply List.ne_nil_of_length_pos
    rw [List.length_dropLast]
    omega
  exact isNumeric_iff.mpr ⟨hne, fun x hx => hd x (List.mem_of_mem_dropLast hx)⟩

/-- The parsed code has the last digit of the text for article numbers, and for texts that would
repeat it. -/
theorem parse?_lastDigit :
    (∃ ean, parse? c = some ean ∧ ean.checkDigit = lastDigit c) ↔ Complete c ∨ Repeating c := by
  constructor
  · intro h
    obtain ⟨ean, he, hlast⟩ := h
    obtain ⟨e, hl, hn, -, rfl⟩ := parse?_eq_some_iff.mp he
    rw [checkDigit_completed] at hlast
    rcases Encoding.length_of_mem hl with hfull | hshort
    · have hlength := Encoding.exists_length_iff.mp ⟨e, hfull.symm⟩
      rw [← hfull, ← List.dropLast_eq_take] at hlast
      exact Or.inl ⟨hlength, hn,
        (checkDigit_eq_ok_iff _ _).mpr ⟨isNumeric_dropLast hn (by omega), hlast⟩⟩
    · rw [List.take_of_length_le (by omega)] at hlast
      exact Or.inr ⟨Encoding.exists_short_iff.mp ⟨e, hl, hshort⟩, hn,
        (checkDigit_eq_ok_iff _ _).mpr ⟨hn, hlast⟩⟩
  · intro h
    rcases h with h | h
    · obtain ⟨e, he⟩ := Encoding.exists_length_iff.mpr h.length
      obtain ⟨-, hcheck⟩ := (checkDigit_eq_ok_iff _ _).mp h.check
      have htake : c.take (e.length - 1) = c.dropLast := by rw [List.dropLast_eq_take, he]
      rw [← htake] at hcheck
      exact ⟨_, parse?_eq_some_iff.mpr
        ⟨e, he ▸ e.length_mem_lengths, h.numeric, fun _ => hcheck.symm, rfl⟩,
        (checkDigit_completed _ _).trans hcheck⟩
    · obtain ⟨e, hl, hshort⟩ := Encoding.exists_short_iff.mpr h.length
      obtain ⟨-, hcheck⟩ := (checkDigit_eq_ok_iff _ _).mp h.check
      have htake : c.take (e.length - 1) = c := List.take_of_length_le (by omega)
      rw [← htake] at hcheck
      exact ⟨_, parse?_eq_some_iff.mpr ⟨e, hl, h.numeric, fun hfull => by omega, rfl⟩,
        (checkDigit_completed _ _).trans (hcheck.trans (by rw [htake]))⟩

end Ean

open Ean (Complete Repeating lastDigit lastDigit_concat parse?_lastDigit)

namespace Template

variable {id text : Text} {t : Template} {c : Text} {r : Reading}

/-- The check digit of the EAN is the last entry and takes the last digit of the code. -/
theorem entries_of_eanCheck (hl : Lawful t.fields) (he : .eanCheck ∈ t.fields)
    (hs : t.split? c = some r) :
    ∃ before d, r.entries = before ++ [(.eanCheck, [d])] ∧ (∀ e ∈ before, e.1 ≠ .eanCheck) ∧
      d.isDigit = true ∧ lastDigit c = Text.digitValue d := by
  obtain ⟨front, hfields⟩ := List.getLast?_eq_some_iff.mp (hl.last he)
  rw [hfields] at hl
  obtain ⟨v, rfl, hv, rfl⟩ := admitted_of_split? hs
  rw [hfields] at hv
  obtain ⟨w, last, rfl, hw, hlast⟩ := Split.admitted_append hv
  obtain ⟨s, rest, hd, hnil, rfl⟩ := List.forall₂_cons_left_iff.mp hlast
  cases hnil
  obtain ⟨hone, hdigit⟩ := isDigits_iff.mp hd
  obtain ⟨d, rfl⟩ := List.length_eq_one_iff.mp hone
  refine ⟨front.zip w, d, ?_, ?_, hdigit d (by simp), ?_⟩
  · show t.fields.zip (w ++ [[d]]) = _
    rw [hfields, List.zip_append hw.length_eq]
    rfl
  · intro e hm heq
    have hmem : e.1 ∈ front := (List.of_mem_zip (show (e.1, e.2) ∈ _ from hm)).1
    exact hl.purpose_ne hmem (List.mem_singleton_self Field.eanCheck) rfl (by rw [heq])
  · rw [List.flatten_append, List.flatten_singleton, lastDigit_concat]

/-- The check digit is right when the code parses to one with the same last digit. -/
theorem flaw?_eanCheck_iff {d : Char} (hd : d.isDigit = true) (hc : r.code = c)
    (hlast : lastDigit c = Text.digitValue d) :
    r.flaw? (.eanCheck, [d]) = .ok none ↔ Complete c ∨ Repeating c := by
  have hread : Text.Numeral.read [d] = .ok (lastDigit c : Int) := by
    have hone : isDigits 1 [d] = true := isDigits_iff.mpr ⟨rfl, by simpa using hd⟩
    rw [Text.Numeral.read_isDigits (by decide) (by decide) hone, hlast]
    simp [Text.toNat, Nat.ofDigitChars_cons, Text.digitValue]
  rw [Reading.flaw?_eanCheck, hc, hread, ← parse?_lastDigit]
  refine exists_congr fun ean => and_congr_right fun _ => ?_
  rw [Except.ok.injEq, Int.natCast_inj]
  exact eq_comm

/-- **With an EAN check digit, codes that are read are article numbers, or repeat a digit.** A code
is read exactly when it is divided, nothing else is wrong with it, and it is an article number of
8, 13 or 14 digits with its check digit, or 7 or 12 digits that end in the check digit of
themselves. -/
theorem read_eq_accepted_iff_scanned (h : compile id text = .ok t) (he : .eanCheck ∈ t.fields) :
    t.read c = .ok (.accepted r) ↔
      t.split? c = some r ∧ (∀ e ∈ r.entries, e.1 ≠ .eanCheck → r.flaw? e = .ok none) ∧
        (Complete c ∨ Repeating c) := by
  rw [read_eq_accepted_iff]
  refine and_congr_right fun hs => ?_
  obtain ⟨before, d, hentries, hbefore, hd, hlast⟩ :=
    entries_of_eanCheck (lawful_of_compile h) he hs
  have hflaw := flaw?_eanCheck_iff hd (code_of_split? hs) hlast
  rw [← hflaw]
  constructor
  · intro hsound
    exact ⟨fun e hm _ => hsound e hm, hsound _ (by rw [hentries]; simp)⟩
  · rintro ⟨hothers, hcheck⟩ e hm
    by_cases heq : e.1 = .eanCheck
    · rw [hentries, List.mem_append, List.mem_singleton] at hm
      rcases hm with hm | rfl
      · exact absurd heq (hbefore e hm)
      · exact hcheck
    · exact hothers e hm heq

/-- Seven digits are read although they are no article number. -/
theorem read_repeating :
    ∃ t r, compile [] (Text.withBraces "[code:6][ec]") = .ok t ∧ .eanCheck ∈ t.fields ∧
      t.read "2957781".toList = .ok (.accepted r) ∧ ¬ Complete "2957781".toList := by
  let t : Template := ⟨[], Text.withBraces "[code:6][ec]",
    [.code { kind := .fixed, size := 6 }, .eanCheck]⟩
  let r : Reading := ⟨t, [(.code { kind := .fixed, size := 6 }, "295778".toList),
    (.eanCheck, "1".toList)]⟩
  have hc : compile [] (Text.withBraces "[code:6][ec]") = .ok t := by cbv
  have hs : t.split? "2957781".toList = some r := rfl
  have hothers : ∀ e ∈ r.entries, e.1 ≠ .eanCheck → r.flaw? e = .ok none := by
    intro e he hne
    simp only [r, List.mem_cons, List.not_mem_nil, or_false] at he
    rcases he with rfl | rfl
    · rfl
    · exact absurd rfl hne
  have hrepeating : Repeating "2957781".toList := ⟨by decide, by decide, rfl⟩
  refine ⟨t, r, hc, by simp [t], ?_, fun h => absurd h.length (by decide)⟩
  exact (read_eq_accepted_iff_scanned hc (by simp [t])).mpr ⟨hs, hothers, Or.inr hrepeating⟩

end Template

end Barcode

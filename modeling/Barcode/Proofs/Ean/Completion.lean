import Barcode.Ean.PayloadCheck
import Barcode.Ean.Validation
import Barcode.Proofs.Fault.Sequence
import Barcode.Proofs.Text.Digits

/-!
# Codes completed by their check digit

A text is parsed when the encoding of its length makes a code of it: the text itself when it
ends in the right check digit, else the text with its check digit behind it. So the text need not
be complete, but the code always is, and it is parsed as itself. The payload check digit is
defined for every payload of five digits.
-/

namespace Barcode.Ean

open Sequence
open Text (isDigits isNumeric isDigits_iff isNumeric_iff)

theorem isNumeric_of_isDigits {n : Nat} {t : Text} (hn : 0 < n) (ht : isDigits n t = true) :
    isNumeric t = true := by
  obtain ⟨hl, hd⟩ := isDigits_iff.mp ht
  exact isNumeric_iff.mpr ⟨List.ne_nil_of_length_pos (by omega), hd⟩

theorem lastDigit_concat (t : Text) (c : Char) : lastDigit (t ++ [c]) = Text.digitValue c := by
  simp [lastDigit]

theorem lastDigit_append_ofNat {d : Nat} (hd : d < 10) (t : Text) :
    lastDigit (t ++ Text.ofNat d) = d := by
  rw [Text.ofNat_digit hd, lastDigit_concat]
  exact Nat.toNat_digitChar_sub_48_of_lt_ten hd

/-- The first digits of a code with their check digit behind them. -/
def completed (body : Text) : Text := body ++ Text.ofNat (check body)

theorem length_completed (body : Text) : (completed body).length = body.length + 1 := by
  rw [completed, Text.ofNat_digit (check_lt body), List.length_append, List.length_singleton]

theorem isDigit_completed {body : Text} (hb : ∀ c ∈ body, c.isDigit = true) :
    ∀ c ∈ completed body, c.isDigit = true := by
  intro c hc
  rcases List.mem_append.mp hc with h | h
  · exact hb c h
  · exact Text.isDigit_ofNat h

theorem take_completed (body : Text) : (completed body).take body.length = body :=
  List.take_left' rfl

theorem build?_eq_some_iff {encoding : Encoding} {lengths : List Nat} {t : Text} {code : Code} :
    build? encoding lengths t = some code ↔
      t.length ∈ lengths ∧ isNumeric t = true ∧
      (t.length = encoding.length → lastDigit t = check (t.take (encoding.length - 1))) ∧
      code = ⟨completed (t.take (encoding.length - 1)), encoding⟩ := by
  unfold build?
  by_cases hl : t.length ∈ lengths ∧ isNumeric t = true
  · rw [if_pos (by simpa using hl)]
    by_cases hc : t.length = encoding.length ∧
        lastDigit t ≠ check (t.take (encoding.length - 1))
    · rw [if_pos (by simpa using hc)]
      constructor
      · intro h
        cases h
      · rintro ⟨-, -, h, -⟩
        exact absurd (h hc.1) hc.2
    · rw [if_neg (by simpa using hc), Option.some.injEq]
      rw [not_and, not_not] at hc
      constructor
      · rintro rfl
        exact ⟨hl.1, hl.2, hc, rfl⟩
      · exact fun h => h.2.2.2.symm
  · rw [if_neg (by simpa using hl)]
    constructor
    · intro h
      cases h
    · exact fun h => absurd ⟨h.1, h.2.1⟩ hl

/-! ## The texts of an encoding -/

namespace Encoding

/-- The lengths of the texts from which a code of the encoding is made. -/
def lengths : Encoding → List Nat
  | .ean8 => [7, 8]
  | .ean13 => [12, 13]
  | .ean14 => [14]

/-- The constructor of the encoding. -/
def construct? : Encoding → Text → Option Code
  | .ean8 => ean8?
  | .ean13 => ean13?
  | .ean14 => ean14?

theorem construct?_eq_build? (e : Encoding) (s : Text) :
    e.construct? s = build? e e.lengths s := by
  cases e <;> rfl

theorem length_mem_lengths (e : Encoding) : e.length ∈ e.lengths := by
  cases e <;> decide

theorem bodyLength?_of_mem {e : Encoding} {n : Nat} (h : n ∈ e.lengths) :
    bodyLength? n = some (e.length - 1) := by
  revert n
  cases e <;> decide

/-- A text from which a code is made is the code, or lacks the check digit. -/
theorem length_of_mem {e : Encoding} {n : Nat} (h : n ∈ e.lengths) :
    n = e.length ∨ n + 1 = e.length := by
  revert n
  cases e <;> decide

theorem exists_length_iff {n : Nat} : (∃ e : Encoding, e.length = n) ↔ n = 8 ∨ n = 13 ∨ n = 14 := by
  constructor
  · intro h
    obtain ⟨e, rfl⟩ := h
    cases e <;> decide
  · rintro (rfl | rfl | rfl)
    exacts [⟨.ean8, rfl⟩, ⟨.ean13, rfl⟩, ⟨.ean14, rfl⟩]

/-- An EAN-14 is not made from a text without its check digit. -/
theorem exists_short_iff {n : Nat} :
    (∃ e : Encoding, n ∈ e.lengths ∧ n + 1 = e.length) ↔ n = 7 ∨ n = 12 := by
  constructor
  · intro h
    obtain ⟨e, hl, hn⟩ := h
    cases e with
    | ean8 => exact Or.inl (Nat.succ.inj hn)
    | ean13 => exact Or.inr (Nat.succ.inj hn)
    | ean14 => exact absurd (hn.trans (List.mem_singleton.mp hl).symm) (Nat.succ_ne_self n)
  · rintro (rfl | rfl)
    exacts [⟨.ean8, by decide, rfl⟩, ⟨.ean13, by decide, rfl⟩]

end Encoding

section Parsed

variable {s body : Text} {code : Code} {e : Encoding}

theorem parse?_eq_some_iff_construct? :
    parse? s = some code ↔ code.encoding.construct? s = some code := by
  constructor
  · intro h
    unfold parse? at h
    split at h
    · obtain ⟨-, -, -, rfl⟩ := build?_eq_some_iff.mp h
      exact h
    · obtain ⟨-, -, -, rfl⟩ := build?_eq_some_iff.mp h
      exact h
    · obtain ⟨-, -, -, rfl⟩ := build?_eq_some_iff.mp h
      exact h
    · obtain ⟨-, -, -, rfl⟩ := build?_eq_some_iff.mp h
      exact h
    · obtain ⟨-, -, -, rfl⟩ := build?_eq_some_iff.mp h
      exact h
    · cases h
  · intro h
    have hl : s.length ∈ code.encoding.lengths := by
      rw [Encoding.construct?_eq_build?] at h
      exact (build?_eq_some_iff.mp h).1
    obtain ⟨text, e⟩ := code
    cases e with
    | ean8 =>
      rcases List.mem_pair.mp hl with hl | hl <;>
        simpa only [parse?, hl, Encoding.construct?] using h
    | ean13 =>
      rcases List.mem_pair.mp hl with hl | hl <;>
        simpa only [parse?, hl, Encoding.construct?] using h
    | ean14 =>
      simpa only [parse?, List.mem_singleton.mp hl, Encoding.construct?] using h

/-- What a text must be to be parsed, and what it is parsed as. -/
theorem parse?_eq_some_iff : parse? s = some code ↔
    ∃ e : Encoding, s.length ∈ e.lengths ∧ isNumeric s = true ∧
      (s.length = e.length → lastDigit s = check (s.take (e.length - 1))) ∧
      code = ⟨completed (s.take (e.length - 1)), e⟩ := by
  rw [parse?_eq_some_iff_construct?, Encoding.construct?_eq_build?, build?_eq_some_iff]
  constructor
  · intro h
    exact ⟨code.encoding, h⟩
  · intro h
    obtain ⟨e, hl, hn, hlast, rfl⟩ := h
    exact ⟨hl, hn, hlast, rfl⟩

theorem isDigits_take (hl : s.length ∈ e.lengths) (hn : isNumeric s = true) :
    isDigits (e.length - 1) (s.take (e.length - 1)) = true := by
  obtain ⟨-, hd⟩ := isNumeric_iff.mp hn
  have hlength := Encoding.length_of_mem hl
  refine isDigits_iff.mpr ⟨?_, fun c hc => hd c (List.mem_of_mem_take hc)⟩
  rw [List.length_take]
  omega

theorem length_completed_of_isDigits (hb : isDigits (e.length - 1) body = true) :
    (completed body).length = e.length := by
  have hpos : 0 < e.length := by cases e <;> decide
  rw [length_completed, (isDigits_iff.mp hb).1]
  omega

theorem isNumeric_completed (hb : isDigits (e.length - 1) body = true) :
    isNumeric (completed body) = true := by
  have hpos : 0 < e.length := by cases e <;> decide
  have hlength := length_completed_of_isDigits hb
  exact isNumeric_iff.mpr ⟨List.ne_nil_of_length_pos (by omega),
    isDigit_completed (isDigits_iff.mp hb).2⟩

theorem take_completed_of_isDigits (hb : isDigits (e.length - 1) body = true) :
    (completed body).take (e.length - 1) = body := by
  rw [← (isDigits_iff.mp hb).1, take_completed]

theorem lastDigit_completed (body : Text) : lastDigit (completed body) = check body :=
  lastDigit_append_ofNat (check_lt body) body

/-- A complete code is parsed as itself. -/
theorem parse?_completed (hb : isDigits (e.length - 1) body = true) :
    parse? (completed body) = some ⟨completed body, e⟩ := by
  rw [parse?_eq_some_iff]
  refine ⟨e, ?_, isNumeric_completed hb, fun _ => ?_, ?_⟩
  · rw [length_completed_of_isDigits hb]
    exact e.length_mem_lengths
  · rw [take_completed_of_isDigits hb, lastDigit_completed]
  · rw [take_completed_of_isDigits hb]

theorem parse?_eq_some (h : parse? s = some code) :
    isNumeric s = true ∧ s.length ∈ [7, 8, 12, 13, 14] := by
  obtain ⟨e, hl, hn, -, -⟩ := parse?_eq_some_iff.mp h
  refine ⟨hn, ?_⟩
  revert hl
  generalize s.length = n
  cases e <;> revert n <;> decide

theorem checkDigit_completed (body : Text) (encoding : Encoding) :
    (Code.mk (completed body) encoding).checkDigit = check body :=
  lastDigit_completed body

theorem checkDigitOf?_of_mem (hl : s.length ∈ e.lengths) (hn : isNumeric s = true) :
    checkDigitOf? s = some (check (s.take (e.length - 1))) := by
  rw [checkDigitOf?, Encoding.bodyLength?_of_mem hl, Option.bind_eq_bind, Option.bind_some,
    if_pos hn]

theorem valid_completed (hb : isDigits (e.length - 1) body = true) :
    (validate (completed body) (some e)).valid = true := by
  have hlength := length_completed_of_isDigits hb
  have hnumeric := isNumeric_completed hb
  have hl : (completed body).length ∈ e.lengths := by
    rw [hlength]
    exact e.length_mem_lengths
  rw [validate, hnumeric, Bool.not_true, if_neg Bool.false_ne_true]
  simp only [hlength, if_true, compareCheckDigit, checkDigitOf?_of_mem hl hnumeric,
    take_completed_of_isDigits hb, lastDigit_completed]

end Parsed

/-! ## Completed EAN-13 codes -/

theorem ean13?_of_twelve {body : Text} (hb : isDigits 12 body = true) :
    ean13? body = some ⟨completed body, .ean13⟩ := by
  obtain ⟨hl, -⟩ := isDigits_iff.mp hb
  rw [ean13?, build?_eq_some_iff]
  refine ⟨by simp [hl], isNumeric_of_isDigits (by decide) hb, ?_, ?_⟩
  · intro h
    rw [hl] at h
    cases h
  · rw [List.take_of_length_le]
    simp [hl, Encoding.length]

/-- At most twelve characters make a code only when they are twelve digits. -/
theorem ean13?_of_length_le {t : Text} {code : Code} (hl : t.length ≤ 12)
    (h : ean13? t = some code) : isDigits 12 t = true ∧ code.text = completed t := by
  obtain ⟨hlen, hnum, -, rfl⟩ := build?_eq_some_iff.mp h
  simp only [List.mem_cons, List.not_mem_nil, or_false] at hlen
  have htwelve : t.length = 12 := by omega
  refine ⟨isDigits_iff.mpr ⟨htwelve, (isNumeric_iff.mp hnum).2⟩, ?_⟩
  show completed (t.take 12) = completed t
  rw [List.take_of_length_le hl]

theorem ean13?_eq_none_of_length {t : Text} (h12 : t.length ≠ 12) (h13 : t.length ≠ 13) :
    ean13? t = none := by
  cases h : ean13? t with
  | none => rfl
  | some code =>
    have hl := (build?_eq_some_iff.mp h).1
    simp only [List.mem_cons, List.not_mem_nil, or_false] at hl
    omega

/-- Thirteen digits are parsed only with the check digit of the first twelve. -/
theorem parse?_thirteen {t : Text} {code : Code} (hl : t.length = 13) (h : parse? t = some code) :
    isDigits 13 t = true ∧ code.checkDigit = check (t.take 12) := by
  have hnum := (parse?_eq_some h).1
  simp only [parse?, hl] at h
  obtain ⟨-, -, -, rfl⟩ := build?_eq_some_iff.mp h
  exact ⟨isDigits_iff.mpr ⟨hl, (isNumeric_iff.mp hnum).2⟩, checkDigit_completed _ _⟩

/-! ## Payload check digits -/

theorem weight_digit {table : List Nat} {d : Nat} (hd : d < table.length) :
    weight table d = .ok table[d] := by
  have hneg : ¬ ((d : Int) < 0) := by omega
  have hlow : ¬ ((d : Int) < -10) := by omega
  unfold weight
  simp only [if_neg hneg, Int.toNat_natCast, List.getElem?_eq_getElem hd, if_neg hlow]

/-- The sum of the weights of digits, each in the table of its place. -/
def tableSum (tables : List (List Nat)) (digits : List Nat) : Nat :=
  (List.zipWith (fun table d => table.getD d 0) tables digits).foldr (· + ·) 0

theorem weightSum_digits {tables : List (List Nat)} {digits : List Nat}
    (ht : ∀ table ∈ tables, table.length = 10) (hd : ∀ d ∈ digits, d < 10)
    (hl : digits.length = tables.length) :
    weightSum tables (digits.map fun d : Nat => (d : Int)) = .ok (tableSum tables digits) := by
  have hweights : List.Forall₂ (fun place w => weight place.1 place.2 = .ok w)
      (tables.zip (digits.map fun d : Nat => (d : Int)))
      (List.zipWith (fun table d => table.getD d 0) tables digits) := by
    induction tables generalizing digits with
    | nil => exact List.Forall₂.nil
    | cons table tables ih =>
      obtain ⟨d, digits, rfl⟩ := List.exists_cons_of_length_eq_add_one hl
      have hlt : d < table.length := by
        rw [ht table List.mem_cons_self]
        exact hd d List.mem_cons_self
      refine List.Forall₂.cons ?_ (ih (fun x hx => ht x (List.mem_cons_of_mem _ hx))
        (fun x hx => hd x (List.mem_cons_of_mem _ hx)) (Nat.succ.inj hl))
      show weight table d = .ok (table.getD d 0)
      rw [weight_digit hlt, List.getD_eq_getElem _ _ hlt]
  rw [weightSum, if_pos (by rw [List.length_map, hl])]
  exact bind_eq_ok.mpr ⟨_, mapM_eq_ok.mpr hweights, rfl⟩

theorem idxOf_fiveMinus_lt {d : Nat} (hd : d < 10) : fiveMinus.idxOf d < 10 := by
  interval_cases d <;> decide

theorem payloadCheck_lt {p : Text} {d : Nat} (h : payloadCheck p = .ok d) : d < 10 := by
  rw [payloadCheck, bind_eq_ok] at h
  obtain ⟨digits, -, h⟩ := h
  rw [payloadCheck5, bind_eq_ok] at h
  obtain ⟨sum, -, h⟩ := h
  cases h
  exact idxOf_fiveMinus_lt (completion_lt sum)

theorem mapM_read_digits {p : Text} (hd : ∀ c ∈ p, c.isDigit = true) :
    p.mapM (fun c => Text.Numeral.read [c]) =
      .ok ((p.map Text.digitValue).map fun d : Nat => (d : Int)) := by
  rw [mapM_eq_ok, List.map_map, List.forall₂_map_right_iff, List.forall₂_same]
  intro c hc
  have h1 : isDigits 1 [c] = true := isDigits_iff.mpr ⟨rfl, by simpa using hd c hc⟩
  rw [Text.Numeral.read_isDigits (by decide) (by decide) h1]
  simp [Text.toNat, Nat.ofDigitChars_cons, Text.digitValue]

theorem payloadCheck_digits {p : Text} (hp : isDigits 5 p = true) :
    payloadCheck p =
      .ok (fiveMinus.idxOf (completion (tableSum fiveDigitTables (p.map Text.digitValue)))) := by
  obtain ⟨hl, hd⟩ := isDigits_iff.mp hp
  have hv : ∀ d ∈ p.map Text.digitValue, d < 10 := by
    intro d hm
    obtain ⟨c, hc, rfl⟩ := List.mem_map.mp hm
    exact Text.digitValue_lt (hd c hc)
  have hsum := weightSum_digits (by decide : ∀ table ∈ fiveDigitTables, table.length = 10) hv
    (by rw [List.length_map, hl]; rfl)
  rw [payloadCheck, bind_eq_ok]
  exact ⟨_, mapM_read_digits hd, bind_eq_ok.mpr ⟨_, hsum, rfl⟩⟩

/-- Every payload of five digits has a check digit. -/
theorem exists_payloadCheck {p : Text} (hp : isDigits 5 p = true) :
    ∃ d, payloadCheck p = .ok d :=
  ⟨_, payloadCheck_digits hp⟩

/-- A payload of any other number of digits has none. -/
theorem payloadCheck_eq_error {n : Nat} {p : Text} (hp : isDigits n p = true) (hn : n ≠ 5) :
    payloadCheck p = .error (.digitCount 5 n) := by
  obtain ⟨hl, hd⟩ := isDigits_iff.mp hp
  have hfive : fiveDigitTables.length = 5 := rfl
  rw [payloadCheck, bind_eq_error]
  refine Or.inr ⟨_, mapM_read_digits hd, ?_⟩
  rw [payloadCheck5, bind_eq_error]
  refine Or.inl ?_
  rw [weightSum, List.length_map, List.length_map, hl, hfive, if_neg hn]

/-- The check digit of a payload as text. -/
def payloadDigit (p : Text) : Text := Text.ofNat ((payloadCheck p).toOption.getD 0)

theorem payloadDigit_eq {p : Text} {d : Nat} (h : payloadCheck p = .ok d) :
    payloadDigit p = Text.ofNat d := by
  rw [payloadDigit, h]
  rfl

theorem isDigits_payloadDigit (p : Text) : isDigits 1 (payloadDigit p) = true := by
  rw [payloadDigit]
  cases h : payloadCheck p with
  | ok d => exact Text.isDigits_ofNat_digit (payloadCheck_lt h)
  | error fault => exact Text.isDigits_ofNat_digit (show 0 < 10 by decide)

end Barcode.Ean

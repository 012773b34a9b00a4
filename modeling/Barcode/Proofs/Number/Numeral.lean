import Barcode.Number.Scaled
import Barcode.Proofs.Text.Digits

/-!
# Decimal numerals

A decimal is written in one of four forms, with or without a point and with or without a power of
ten. `read?` reads numerals with a point anywhere among the digits, and knows nothing of the forms.
Every decimal is read back from its text with its sign, its coefficient and its exponent, so the
text tells decimals apart that denote one number.
-/

namespace Barcode.Number.Scaled

open Text (takeWhile_append_stop dropWhile_append_stop)
open Text.Numeral (splitSign)

/-! ## Reading -/

/-- Digits with an optional sign. -/
def integer? (t : Text) : Option Int :=
  let (negative, digits) := splitSign t
  if Text.isNumeric digits then
    some (if negative then -(Text.toNat digits : Int) else Text.toNat digits)
  else none

/-- The power of ten behind the digits, 0 when none is written. -/
def power? : Text → Option Int
  | [] => some 0
  | _ :: power => integer? power

/-- Reads a decimal numeral: an optional sign, digits among which a point may stand, and an
optional power of ten behind `E`. -/
def read? (t : Text) : Option Scaled :=
  let (negative, body) := splitSign t
  let mantissa := body.takeWhile (· != 'E')
  let whole := mantissa.takeWhile (· != '.')
  let fraction := (mantissa.dropWhile (· != '.')).tail
  if Text.isNumeric (whole ++ fraction) then
    (power? (body.dropWhile (· != 'E'))).map fun power =>
      ⟨negative, Text.toNat (whole ++ fraction), power - fraction.length⟩
  else none

/-! ## The parts of a numeral -/

/-- A numeral taken apart: its sign, the digits on either side of the point, and the power of ten
behind them. -/
structure Numeral where
  negative : Bool
  whole : Text
  fraction : Text
  power? : Option Int

namespace Numeral

/-- The digits with their point, which is left out when no digit follows it. -/
def mantissa (n : Numeral) : Text :=
  n.whole ++ if n.fraction = [] then [] else '.' :: n.fraction

def scale : Option Int → Text
  | none => []
  | some i => 'E' :: (if i < 0 then '-' else '+') :: Text.ofNat i.natAbs

def text (n : Numeral) : Text :=
  let body := n.mantissa ++ scale n.power?
  if n.negative then '-' :: body else body

def value (n : Numeral) : Scaled :=
  ⟨n.negative, Text.toNat (n.whole ++ n.fraction), n.power?.getD 0 - n.fraction.length⟩

structure WellFormed (n : Numeral) : Prop where
  whole : Text.isNumeric n.whole = true
  fraction : ∀ c ∈ n.fraction, c.isDigit = true

variable {n : Numeral}

theorem power?_scale (p : Option Int) : Scaled.power? (scale p) = some (p.getD 0) := by
  cases p with
  | none => rfl
  | some i =>
    have hdigits : Text.isNumeric (Text.ofNat i.natAbs) = true := by
      rw [Text.isNumeric_iff]
      exact ⟨Text.ofNat_ne_nil _, fun _ => Text.isDigit_ofNat⟩
    have hvalue := Text.toNat_ofNat i.natAbs
    by_cases hi : i < 0
    · simp only [scale, if_pos hi, Scaled.power?, integer?, splitSign, hdigits, if_true, hvalue,
        Option.getD_some, Option.some.injEq]
      omega
    · simp only [scale, if_neg hi, Scaled.power?, integer?, splitSign, hdigits, if_true, hvalue,
        Option.getD_some, Option.some.injEq, Bool.false_eq_true, if_false]
      omega

theorem scale_stop (p : Option Int) : ∀ c ∈ (scale p).head?, (c != 'E') = false := by
  cases p <;> simp [scale]

theorem WellFormed.ne_of_mem_mantissa (h : n.WellFormed) :
    ∀ c ∈ n.mantissa, (c != 'E') = true := by
  obtain ⟨-, hwhole⟩ := Text.isNumeric_iff.mp h.whole
  have hdigit : ∀ c : Char, c.isDigit = true → (c != 'E') = true := fun c hc =>
    bne_iff_ne.mpr (Text.Numeral.ne_of_isDigit hc (by decide))
  intro c hc
  rcases List.mem_append.mp hc with hc | hc
  · exact hdigit c (hwhole c hc)
  · split at hc
    · cases hc
    · rcases List.mem_cons.mp hc with rfl | hc
      · rfl
      · exact hdigit c (h.fraction c hc)

theorem WellFormed.splitSign_text (h : n.WellFormed) :
    splitSign n.text = (n.negative, n.mantissa ++ scale n.power?) := by
  obtain ⟨negative, whole, fraction, power?⟩ := n
  obtain ⟨hne, hdigits⟩ := Text.isNumeric_iff.mp h.whole
  cases negative with
  | true => rfl
  | false =>
    obtain ⟨c, whole, rfl⟩ := List.exists_cons_of_ne_nil hne
    exact Text.Numeral.splitSign_digit (hdigits c (by simp))

/-- The point is where the digits before it end. -/
theorem WellFormed.split_mantissa (h : n.WellFormed) :
    n.mantissa.takeWhile (· != '.') = n.whole ∧
      (n.mantissa.dropWhile (· != '.')).tail = n.fraction := by
  obtain ⟨-, hwhole⟩ := Text.isNumeric_iff.mp h.whole
  have hdigits : ∀ c ∈ n.whole, (c != '.') = true := fun c hc =>
    bne_iff_ne.mpr (Text.Numeral.ne_of_isDigit (hwhole c hc) (by decide))
  have hstop : ∀ c ∈ (if n.fraction = [] then [] else '.' :: n.fraction).head?,
      (c != '.') = false := by
    split <;> simp
  rw [mantissa, takeWhile_append_stop hdigits hstop, dropWhile_append_stop hdigits hstop]
  refine ⟨rfl, ?_⟩
  split
  · next hf => rw [hf, List.tail_nil]
  · rfl

/-- A numeral is read with the parts that it is made of. -/
theorem WellFormed.read? (h : n.WellFormed) : Scaled.read? n.text = some n.value := by
  obtain ⟨hne, hwhole⟩ := Text.isNumeric_iff.mp h.whole
  have hdigits : Text.isNumeric (n.whole ++ n.fraction) = true := by
    rw [Text.isNumeric_iff]
    exact ⟨by simp [hne], List.forall_mem_append.mpr ⟨hwhole, h.fraction⟩⟩
  have htake := takeWhile_append_stop h.ne_of_mem_mantissa (scale_stop n.power?)
  have hdrop := dropWhile_append_stop h.ne_of_mem_mantissa (scale_stop n.power?)
  obtain ⟨hw, hf⟩ := h.split_mantissa
  simp only [Scaled.read?, h.splitSign_text, htake, hdrop, hw, hf, hdigits, if_true,
    power?_scale, Option.map_some, value]

end Numeral

/-! ## Writing -/

section Forms

variable {c k : Nat} {e : Int}

/-- Zeros stand between the point and the digits. -/
theorem exists_numeral_of_small (negative : Bool) (hk : (Text.ofNat c).length = k)
    (hpoint : k + e ≤ 0) :
    ∃ n : Numeral, n.WellFormed ∧ n.value = ⟨negative, c, e⟩ ∧ n.negative = negative ∧
      n.mantissa ++ Numeral.scale n.power? =
        '0' :: '.' :: List.replicate (-(k + e)).toNat '0' ++ Text.ofNat c := by
  let zeros : Text := List.replicate (-(k + e)).toNat '0'
  have hdigits : ∀ d ∈ zeros ++ Text.ofNat c, d.isDigit = true :=
    List.forall_mem_append.mpr
      ⟨(Text.isDigits_iff.mp (Text.isDigits_zeros _)).2, fun _ => Text.isDigit_ofNat⟩
  have hvalue : Text.toNat ('0' :: (zeros ++ Text.ofNat c)) = c := by
    have hzeros : Text.toNat ('0' :: zeros) = 0 := Text.toNat_zeros ((-(k + e)).toNat + 1)
    rw [← List.cons_append, Text.toNat_append, hzeros, Text.toNat_ofNat, Nat.mul_zero,
      Nat.zero_add]
  have hlength : ((zeros ++ Text.ofNat c).length : Int) = -e := by
    rw [List.length_append, List.length_replicate, hk]
    omega
  have hne : zeros ++ Text.ofNat c ≠ [] :=
    List.append_ne_nil_of_right_ne_nil _ (Text.ofNat_ne_nil c)
  refine ⟨⟨negative, ['0'], zeros ++ Text.ofNat c, none⟩, ⟨rfl, hdigits⟩, ?_, rfl, ?_⟩
  · simp only [Numeral.value, List.cons_append, List.nil_append, hvalue, hlength,
      Option.getD_none, Int.zero_sub, Int.neg_neg]
  · simp only [Numeral.mantissa, if_neg hne, Numeral.scale, List.append_nil]
    rfl

/-- The point stands among the digits or behind them, in front of a power of ten or of none. -/
theorem exists_numeral_of_digits (negative : Bool) (p : Option Int) {m : Nat} (hm : 0 < m)
    (he : p.getD 0 - ((Text.ofNat c).drop m).length = e) :
    ∃ n : Numeral, n.WellFormed ∧ n.value = ⟨negative, c, e⟩ ∧ n.negative = negative ∧
      n.mantissa ++ Numeral.scale n.power? =
        (if (Text.ofNat c).length ≤ m then Text.ofNat c
          else (Text.ofNat c).take m ++ '.' :: (Text.ofNat c).drop m) ++ Numeral.scale p := by
  refine ⟨⟨negative, (Text.ofNat c).take m, (Text.ofNat c).drop m, p⟩, ⟨?_, ?_⟩, ?_, rfl, ?_⟩
  · rw [Text.isNumeric_iff]
    refine ⟨?_, fun d hd => Text.isDigit_ofNat (List.mem_of_mem_take hd)⟩
    simp [Text.ofNat_ne_nil, hm.ne']
  · exact fun d hd => Text.isDigit_ofNat (List.mem_of_mem_drop hd)
  · simp only [Numeral.value, List.take_append_drop, Text.toNat_ofNat, he]
  · simp only [Numeral.mantissa, List.drop_eq_nil_iff]
    split
    · next hle => rw [List.append_nil, List.take_of_length_le hle]
    · rfl

end Forms

/-- The text of a decimal is a numeral with its sign, its coefficient and its exponent. -/
theorem exists_numeral (x : Scaled) :
    ∃ n : Numeral, n.WellFormed ∧ n.value = x ∧ n.text = x.text := by
  obtain ⟨negative, c, e⟩ := x
  generalize hk : (Text.ofNat c).length = k
  have hpos : 0 < k := hk ▸ List.length_pos_of_ne_nil (Text.ofNat_ne_nil c)
  have hlength : ∀ m, (((Text.ofNat c).drop m).length : Int) = (k - m : Nat) := fun m => by
    rw [List.length_drop, hk]
  -- the forms differ in what stands behind the sign
  suffices h : ∃ n : Numeral, n.WellFormed ∧ n.value = ⟨negative, c, e⟩ ∧ n.negative = negative ∧
      (if negative then '-' :: (n.mantissa ++ Numeral.scale n.power?)
        else n.mantissa ++ Numeral.scale n.power?) = text ⟨negative, c, e⟩ by
    obtain ⟨n, hn, hvalue, hsign, htext⟩ := h
    refine ⟨n, hn, hvalue, ?_⟩
    rw [← htext, ← hsign]
    rfl
  unfold text
  simp only [hk, Bool.and_eq_true, decide_eq_true_eq]
  by_cases hplain : e ≤ 0 ∧ -6 < k + e
  · rw [if_pos hplain]
    by_cases hpoint : k + e ≤ 0
    · obtain ⟨n, hn, hvalue, hsign, hbody⟩ :=
        exists_numeral_of_small negative hk hpoint
      exact ⟨n, hn, hvalue, hsign, by rw [hbody, if_pos hpoint]⟩
    · obtain ⟨n, hn, hvalue, hsign, hbody⟩ := exists_numeral_of_digits (c := c) (e := e) negative
        none (m := (k + e).toNat) (by omega) (by rw [hlength, Option.getD_none]; omega)
      have hall : k ≤ (k + e).toNat ↔ e = 0 := by omega
      have hnone : Numeral.scale none = [] := rfl
      refine ⟨n, hn, hvalue, hsign, ?_⟩
      simp only [hbody, hk, hall, if_neg hpoint, hnone, List.append_nil]
  · rw [if_neg hplain]
    obtain ⟨n, hn, hvalue, hsign, hbody⟩ := exists_numeral_of_digits (c := c) (e := e) negative
      (some (k + e - 1)) (m := 1) Nat.one_pos (by rw [hlength, Option.getD_some]; omega)
    exact ⟨n, hn, hvalue, hsign, by rw [hbody, hk]; rfl⟩

/-- **Every decimal is read back from its text.** -/
theorem read?_text (x : Scaled) : read? x.text = some x := by
  obtain ⟨n, hn, hvalue, htext⟩ := exists_numeral x
  rw [← htext, hn.read?, hvalue]

end Barcode.Number.Scaled

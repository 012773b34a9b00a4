import Mathlib
import Barcode.Template.Split
import Barcode.Text.Numeral

/-!
# Runs of ASCII digits

A payload is written as the digits of a number with zeros in front, and read back as a number.
Both ways are taken apart here: which numbers fill a width, what padding keeps, and that
reading and writing undo each other on runs of a fixed width. The limit on the number of
digits is carried as a hypothesis; it is never assumed away.
-/

namespace Barcode.Text

/-! ## Runs of characters of a kind -/

theorem takeWhile_append_stop {f : Char → Bool} {s t : Text} (hs : ∀ c ∈ s, f c = true)
    (ht : ∀ c ∈ t.head?, f c = false) : (s ++ t).takeWhile f = s := by
  rw [List.takeWhile_append_of_pos hs]
  cases t with
  | nil => rw [List.takeWhile_nil, List.append_nil]
  | cons c t =>
    have hc : f c = false := ht c rfl
    rw [List.takeWhile_cons, hc, if_neg (by decide), List.append_nil]

theorem dropWhile_append_stop {f : Char → Bool} {s t : Text} (hs : ∀ c ∈ s, f c = true)
    (ht : ∀ c ∈ t.head?, f c = false) : (s ++ t).dropWhile f = t := by
  rw [List.dropWhile_append_of_pos hs]
  cases t with
  | nil => rfl
  | cons c t => rw [List.dropWhile_cons, ht c rfl, if_neg (by decide)]

theorem head?_dropWhile (f : Char → Bool) (t : Text) :
    ∀ c ∈ (t.dropWhile f).head?, f c = false := by
  intro c hc
  have h := List.head?_dropWhile_not f t
  rw [Option.mem_def.mp hc] at h
  exact h

/-! ## Runs of digits -/

theorem isDigit_bounds {c : Char} (hc : c.isDigit = true) : 48 ≤ c.toNat ∧ c.toNat ≤ 57 :=
  Char.isDigit_iff_toNat.mp hc

theorem isDigits_iff {n : Nat} {t : Text} :
    isDigits n t = true ↔ t.length = n ∧ ∀ c ∈ t, c.isDigit = true := by
  simp [isDigits]

/-- In front of a run of digits, a text is what the whole leaves for it. -/
theorem isDigits_append_iff {m n : Nat} {s t : Text} (ht : isDigits n t = true) :
    isDigits (m + n) (s ++ t) = true ↔ isDigits m s = true := by
  obtain ⟨hl, hd⟩ := isDigits_iff.mp ht
  rw [isDigits_iff, isDigits_iff, List.length_append, List.forall_mem_append, hl,
    Nat.add_right_cancel_iff]
  exact and_congr_right fun _ => and_iff_left hd

theorem isNumeric_iff {t : Text} :
    isNumeric t = true ↔ t ≠ [] ∧ ∀ c ∈ t, c.isDigit = true := by
  simp [isNumeric]

/-! ## Writing numbers -/

theorem isDigit_ofNat {n : Nat} {c : Char} (hc : c ∈ ofNat n) : c.isDigit = true :=
  Nat.isDigit_of_mem_toDigits (by decide) (by decide) hc

theorem ofNat_ne_nil (n : Nat) : ofNat n ≠ [] := Nat.toDigits_ne_nil

theorem length_ofNat_le_iff {n k : Nat} (hk : 0 < k) : (ofNat n).length ≤ k ↔ n < 10 ^ k :=
  Nat.length_toDigits_le_iff (by decide) hk

/-- A number of more than one digit lies between the powers of ten that its length gives. -/
theorem bounds_of_length_ofNat {n k : Nat} (hk : 1 < k) (hl : (ofNat n).length = k) :
    10 ^ k ≤ 10 * n ∧ n < 10 ^ k := by
  constructor
  · obtain ⟨d, rfl⟩ := Nat.exists_eq_add_of_lt hk
    have hlow : ¬ n < 10 ^ (1 + d) := by
      rw [← length_ofNat_le_iff (by omega)]
      omega
    rw [Nat.pow_succ]
    omega
  · exact (length_ofNat_le_iff (by omega)).mp hl.le

theorem ofNat_digit {d : Nat} (hd : d < 10) : ofNat d = [d.digitChar] :=
  Nat.toDigits_of_lt_base hd

theorem isDigits_ofNat_digit {d : Nat} (hd : d < 10) : isDigits 1 (ofNat d) = true := by
  rw [isDigits_iff]
  exact ⟨by rw [ofNat_digit hd]; rfl, fun _ => isDigit_ofNat⟩

theorem isDigit_padZeros {n : Nat} {t : Text} (ht : ∀ c ∈ t, c.isDigit = true) :
    ∀ c ∈ padZeros n t, c.isDigit = true := by
  intro c hc
  rcases List.mem_append.mp hc with hz | hd
  · rw [List.eq_of_mem_replicate hz]; decide
  · exact ht c hd

/-- A number that fits a width fills it once it is padded. -/
theorem isDigits_padZeros {n k : Nat} (hk : 0 < k) (hn : n < 10 ^ k) :
    isDigits k (padZeros k (ofNat n)) = true := by
  rw [isDigits_iff]
  constructor
  · rw [length_padZeros]
    exact Nat.max_eq_left ((length_ofNat_le_iff hk).mpr hn)
  · exact isDigit_padZeros fun _ => isDigit_ofNat

/-! ## Reading numbers -/

theorem isDigits_zeros (n : Nat) : isDigits n (List.replicate n '0') = true := by
  rw [isDigits_iff]
  refine ⟨List.length_replicate, ?_⟩
  intro c hc
  rw [List.eq_of_mem_replicate hc]
  decide

theorem toNat_append (s t : Text) : toNat (s ++ t) = 10 ^ t.length * toNat s + toNat t := by
  rw [toNat, Nat.ofDigitChars_append, Nat.ofDigitChars_eq_ofDigitChars_zero]
  rfl

theorem toNat_padZeros (n : Nat) (t : Text) : toNat (padZeros n t) = toNat t := by
  have hz : toNat (List.replicate (n - t.length) '0') = 0 := by
    rw [toNat, Nat.ofDigitChars_replicate_zero, Nat.mul_zero]
  rw [padZeros, List.leftpad, toNat_append, hz, Nat.mul_zero, Nat.zero_add]

theorem toNat_zeros (k : Nat) : toNat (List.replicate k '0') = 0 := by
  have h := toNat_padZeros k []
  rwa [padZeros, List.leftpad, List.append_nil] at h

theorem digitValue_lt {c : Char} (hc : c.isDigit = true) : digitValue c < 10 := by
  have h := isDigit_bounds hc
  have h0 : '0'.toNat = 48 := rfl
  rw [digitValue, h0]
  omega

theorem digitChar_digitValue {c : Char} (hc : c.isDigit = true) :
    (digitValue c).digitChar = c := by
  have h := isDigit_bounds hc
  have hd := digitValue_lt hc
  have h0 : '0'.toNat = 48 := rfl
  apply Char.toNat_inj.mp
  rw [Nat.toNat_digitChar_of_lt_ten hd, digitValue, h0]
  omega

theorem toNat_concat (t : Text) (c : Char) : toNat (t ++ [c]) = 10 * toNat t + digitValue c := by
  rw [toNat_append]
  simp [toNat, Nat.ofDigitChars_cons, digitValue]

theorem toNat_lt {t : Text} (ht : ∀ c ∈ t, c.isDigit = true) : toNat t < 10 ^ t.length := by
  induction t using List.reverseRecOn with
  | nil => decide
  | append_singleton t c ih =>
    have hi := ih fun d hd => ht d (by simp [hd])
    have hc := digitValue_lt (ht c (by simp))
    rw [toNat_concat, List.length_append, List.length_singleton, Nat.pow_succ]
    omega

/-- Two runs of digits of one length that denote one number are the same. -/
theorem toNat_injective {s t : Text} (hs : ∀ c ∈ s, c.isDigit = true)
    (ht : ∀ c ∈ t, c.isDigit = true) (hl : s.length = t.length) (h : toNat s = toNat t) :
    s = t := by
  induction s using List.reverseRecOn generalizing t with
  | nil => exact (List.length_eq_zero_iff.mp hl.symm).symm
  | append_singleton s c ih =>
    obtain ⟨t, d, rfl⟩ : ∃ t' d, t = t' ++ [d] := by
      rcases List.eq_nil_or_concat t with rfl | ⟨t', d, rfl⟩
      · simp at hl
      · exact ⟨t', d, by simp⟩
    have hc := ht d (by simp)
    have hd := hs c (by simp)
    rw [toNat_concat, toNat_concat] at h
    have hv : digitValue c = digitValue d := by
      have := digitValue_lt hc
      have := digitValue_lt hd
      omega
    have hr : s = t := ih (fun x hx => hs x (by simp [hx])) (fun x hx => ht x (by simp [hx]))
      (by simpa using hl) (by omega)
    rw [hr, ← digitChar_digitValue hd, hv, digitChar_digitValue hc]

/-- Runs of digits of one width that denote one number are the same. -/
theorem eq_of_isDigits {n : Nat} {s t : Text} (hs : isDigits n s = true)
    (ht : isDigits n t = true) (h : toNat s = toNat t) : s = t := by
  obtain ⟨hl, hd⟩ := isDigits_iff.mp hs
  obtain ⟨hl', hd'⟩ := isDigits_iff.mp ht
  exact toNat_injective hd hd' (hl.trans hl'.symm) h

/-- Padding the number that a run of digits denotes gives the run back. -/
theorem padZeros_ofNat_toNat {n : Nat} {t : Text} (hn : 0 < n) (ht : isDigits n t = true) :
    padZeros n (ofNat (toNat t)) = t := by
  obtain ⟨hl, hd⟩ := isDigits_iff.mp ht
  have hlt : toNat t < 10 ^ n := by rw [← hl]; exact toNat_lt hd
  refine eq_of_isDigits (isDigits_padZeros hn hlt) ht ?_
  rw [toNat_padZeros, toNat_ofNat]

end Barcode.Text

namespace Barcode.Text.Numeral

open Blank (aroundNumeral)
open DecimalDigit (value? isDecimalDigit)

theorem value?_digit {c : Char} (hc : c.isDigit = true) : value? c = some (digitValue c) := by
  obtain ⟨hl, hu⟩ := isDigit_bounds hc
  have hz : DecimalDigit.zeros = 48 :: DecimalDigit.zeros.tail := rfl
  have hin : (decide (48 ≤ c.toNat) && decide (c.toNat < 48 + 10)) = true := by
    simp only [Bool.and_eq_true, decide_eq_true_eq]
    omega
  rw [value?, hz, List.find?_cons, hin]
  rfl

theorem isDecimalDigit_digit {c : Char} (hc : c.isDigit = true) : isDecimalDigit c = true := by
  rw [isDecimalDigit, value?_digit hc]
  rfl

theorem ne_of_isDigit {c d : Char} (hc : c.isDigit = true) (hd : d.isDigit = false) : c ≠ d := by
  rintro rfl
  rw [hc] at hd
  exact Bool.noConfusion hd

theorem aroundNumeral_digit {c : Char} (hc : c.isDigit = true) : aroundNumeral c = false := by
  obtain ⟨hl, hu⟩ := isDigit_bounds hc
  have hw : Blank.wideBlanks.contains c.toNat = false := by
    have hmin : ∀ w ∈ Blank.wideBlanks, 0x85 ≤ w := by decide
    rw [List.contains_eq_mem, decide_eq_false_iff_not]
    intro hm
    have := hmin _ hm
    omega
  have hs : c ≠ ' ' := ne_of_isDigit hc (by decide)
  rw [aroundNumeral, hw, decide_eq_false hs]
  simp only [Bool.or_false, Bool.and_eq_false_imp, decide_eq_true_eq, decide_eq_false_iff_not]
  omega

theorem magnitude_digits {t : Text} (ht : ∀ c ∈ t, c.isDigit = true) :
    magnitude t = Text.toNat t := by
  induction t using List.reverseRecOn with
  | nil => rfl
  | append_singleton t c ih =>
    have hi := ih fun d hd => ht d (by simp [hd])
    rw [magnitude] at hi
    rw [toNat_concat, magnitude, List.foldl_append, hi]
    simp [value?_digit (ht c (by simp))]

theorem grouped_digits : ∀ {t : Text}, t ≠ [] → (∀ c ∈ t, c.isDigit = true) → grouped t = true
  | [c], _, ht => isDecimalDigit_digit (ht c (by simp))
  | c :: d :: t, _, ht => by
    have hd : d ≠ '_' := ne_of_isDigit (ht d (by simp)) (by decide)
    rw [grouped, if_neg hd, isDecimalDigit_digit (ht c (by simp)), Bool.true_and]
    exact grouped_digits (by simp) fun x hx => ht x (List.mem_cons_of_mem _ hx)

theorem splitSign_digit {c : Char} {t : Text} (hc : c.isDigit = true) :
    splitSign (c :: t) = (false, c :: t) := by
  have hm : c ≠ '-' := ne_of_isDigit hc (by decide)
  have hp : c ≠ '+' := ne_of_isDigit hc (by decide)
  unfold splitSign
  split <;> simp_all

/-- A run of digits reads as the number that it denotes, unless it is too long to be read. -/
theorem read_eq_of_digits {t : Text} (hn : t ≠ []) (ht : ∀ c ∈ t, c.isDigit = true) :
    read t =
      if digitLimit < t.length then .error (.numeralTooLong t.length) else .ok (Text.toNat t) := by
  obtain ⟨c, rest, rfl⟩ := List.exists_cons_of_ne_nil hn
  have hc := ht c (by simp)
  have hblank : (c :: rest).dropWhile aroundNumeral = c :: rest := by
    rw [List.dropWhile_cons_of_neg]
    rw [aroundNumeral_digit hc]; decide
  have hrun : ∀ x ∈ c :: rest, (isDecimalDigit x || x == '_') = true := fun x hx => by
    rw [isDecimalDigit_digit (ht x hx), Bool.true_or]
  have htake : (c :: rest).takeWhile (fun x => isDecimalDigit x || x == '_') = c :: rest :=
    List.takeWhile_eq_self_iff.mpr hrun
  have hdrop : (c :: rest).dropWhile (fun x => isDecimalDigit x || x == '_') = [] :=
    List.dropWhile_eq_nil_iff.mpr hrun
  have hfilter : (c :: rest).filter (· != '_') = c :: rest := by
    rw [List.filter_eq_self]
    intro x hx
    exact bne_iff_ne.mpr (ne_of_isDigit (ht x hx) (by decide))
  have hafter : ([] : Text).all aroundNumeral = true := rfl
  unfold read
  simp only [hblank, splitSign_digit hc, htake, hdrop, hfilter, grouped_digits hn ht]
  rw [if_neg (by decide), if_pos hafter, magnitude_digits ht]
  rfl

theorem read_digits {t : Text} (hn : t ≠ []) (ht : ∀ c ∈ t, c.isDigit = true)
    (hl : t.length ≤ digitLimit) : read t = .ok (Text.toNat t) := by
  rw [read_eq_of_digits hn ht, if_neg (by omega)]

theorem read_isDigits {n : Nat} {t : Text} (hn : 0 < n) (hl : n ≤ digitLimit)
    (ht : isDigits n t = true) : read t = .ok (Text.toNat t) := by
  obtain ⟨h, hd⟩ := isDigits_iff.mp ht
  exact read_digits (List.ne_nil_of_length_pos (by omega)) hd (by omega)

/-- A run of digits is read exactly when it is not too long. -/
theorem exists_read_iff {n : Nat} {t : Text} (hn : 0 < n) (ht : isDigits n t = true) :
    (∃ i, read t = .ok i) ↔ n ≤ digitLimit := by
  obtain ⟨hl, hd⟩ := isDigits_iff.mp ht
  rw [read_eq_of_digits (List.ne_nil_of_length_pos (by omega)) hd, hl]
  by_cases hlong : digitLimit < n
  · rw [if_pos hlong]
    exact iff_of_false (by rintro ⟨i, h⟩; cases h) (by omega)
  · rw [if_neg hlong]
    exact iff_of_true ⟨_, rfl⟩ (by omega)

/-- An integer of so few digits that it can be written. -/
def Writable (i : Int) : Prop := (Text.ofNat i.natAbs).length ≤ digitLimit

theorem writable_iff {n : Nat} : Writable n ↔ n < 10 ^ digitLimit := by
  rw [Writable, Int.natAbs_natCast]
  exact length_ofNat_le_iff (by decide)

theorem write_natCast {n : Nat} (hn : Writable n) : write n = .ok (ofNat n) := by
  have h : ¬ digitLimit < (ofNat n).length := by
    rw [Writable, Int.natAbs_natCast] at hn
    omega
  rw [write, Int.natAbs_natCast, if_neg h, if_neg (by omega)]

theorem eq_of_write {n : Nat} {digits : Text} (h : write n = .ok digits) : digits = ofNat n := by
  have hneg : ¬ (n : Int) < 0 := by omega
  simp only [write, Int.natAbs_natCast, if_neg hneg] at h
  split at h
  · cases h
  · exact (Except.ok.inj h).symm

theorem exists_write_iff {i : Int} : (∃ digits, write i = .ok digits) ↔ Writable i := by
  rw [write, Writable]
  by_cases hlong : digitLimit < (Text.ofNat i.natAbs).length
  · rw [if_pos hlong]
    exact iff_of_false (by rintro ⟨digits, h⟩; cases h) (by omega)
  · rw [if_neg hlong]
    exact iff_of_true ⟨_, rfl⟩ (by omega)

theorem write_negative {i : Int} (hi : Writable i) (hneg : i < 0) :
    write i = .ok ('-' :: ofNat i.natAbs) := by
  rw [Writable] at hi
  rw [write, if_neg (by omega), if_pos hneg]

end Barcode.Text.Numeral

import Barcode.Number.Scaled
import Barcode.Proofs.Text.Digits

/-!
# Rounding to significant digits

The decimal of an integer with a shifted point is the quotient that it stands for, rounded to 28
significant digits. `Rounded` says what this is for rational numbers, without numerals and without
carries, and leaves one result only. Up to 28 digits nothing is rounded away, and the exponent is
the one that was asked for.
-/

namespace Barcode.Number

/-- A quotient is rounded to the nearer neighbour, and half way between them to the even one. -/
theorem roundHalfEven_cases (num den : ℕ) :
    (roundHalfEven num den = num / den ∧ 2 * (num % den) ≤ den ∨
      roundHalfEven num den = num / den + 1 ∧ den ≤ 2 * (num % den)) ∧
    (2 * (num % den) = den → Even (roundHalfEven num den)) := by
  unfold roundHalfEven
  dsimp only
  rw [Nat.even_iff]
  split
  · exact ⟨Or.inl ⟨rfl, by omega⟩, by omega⟩
  · split
    · exact ⟨Or.inr ⟨rfl, by omega⟩, by omega⟩
    · exact ⟨by omega, by omega⟩

/-- The quotient lies within half a unit of its rounding, which is even where it is just half. -/
theorem roundHalfEven_near (num den : ℕ) (hden : 0 < den) :
    |(num : ℚ) - roundHalfEven num den * den| ≤ den / 2 ∧
      (|(num : ℚ) - roundHalfEven num den * den| = den / 2 → Even (roundHalfEven num den)) := by
  obtain ⟨hcases, heven⟩ := roundHalfEven_cases num den
  have hdiv : (num : ℚ) = den * (num / den : ℕ) + (num % den : ℕ) := by
    exact_mod_cast (Nat.div_add_mod num den).symm
  have hrest : ((num % den : ℕ) : ℚ) < den := by exact_mod_cast Nat.mod_lt num hden
  rcases hcases with ⟨hround, hle⟩ | ⟨hround, hle⟩
  · have hle' : 2 * ((num % den : ℕ) : ℚ) ≤ den := by exact_mod_cast hle
    have habs : |(num : ℚ) - roundHalfEven num den * den| = (num % den : ℕ) := by
      rw [hround, hdiv, mul_comm, add_sub_cancel_left, abs_of_nonneg (Nat.cast_nonneg _)]
    rw [habs]
    refine ⟨by linarith, fun htie => heven ?_⟩
    exact_mod_cast (by linarith : 2 * ((num % den : ℕ) : ℚ) = den)
  · have hle' : (den : ℚ) ≤ 2 * (num % den : ℕ) := by exact_mod_cast hle
    have habs : |(num : ℚ) - roundHalfEven num den * den| = den - (num % den : ℕ) := by
      have hdiff : (num : ℚ) - roundHalfEven num den * den = -(den - (num % den : ℕ)) := by
        rw [hround, hdiv]
        push_cast
        ring
      rw [hdiff, abs_neg, abs_of_nonneg (by linarith)]
    rw [habs]
    refine ⟨by linarith, fun htie => heven ?_⟩
    exact_mod_cast (by linarith : 2 * ((num % den : ℕ) : ℚ) = den)

/-! ## Significant digits -/

/-- The unit `10 ^ e` is that of the last of the significant digits of `q`, and `n` is the nearest
number of units, an even one where two are equally near. -/
structure RoundsAt (digits : ℕ) (q : ℚ) (e : ℤ) (n : ℕ) : Prop where
  lower : (10 : ℚ) ^ (digits - 1 + e) ≤ q
  upper : q < (10 : ℚ) ^ (digits + e)
  near : |q - n * 10 ^ e| ≤ 10 ^ e / 2
  even : |q - n * 10 ^ e| = 10 ^ e / 2 → Even n

/-- A number that is not negative, rounded half to even to a number of significant digits. -/
def Rounded (digits : ℕ) (q r : ℚ) : Prop :=
  q = 0 ∧ r = 0 ∨ ∃ (e : ℤ) (n : ℕ), RoundsAt digits q e n ∧ r = n * 10 ^ e

variable {digits : ℕ} {q r r' : ℚ} {e e' : ℤ} {n n' : ℕ}

theorem RoundsAt.pos (h : RoundsAt digits q e n) : 0 < q :=
  (zpow_pos (by norm_num) _).trans_le h.lower

theorem RoundsAt.le_exponent (h : RoundsAt digits q e n) (h' : RoundsAt digits q e' n') :
    e ≤ e' := by
  have hlt := (zpow_lt_zpow_iff_right₀ (by norm_num : (1 : ℚ) < 10)).mp (h.lower.trans_lt h'.upper)
  omega

/-- Of two neighbours that are equally near only one is even. -/
theorem RoundsAt.not_lt (h : RoundsAt digits q e n) (h' : RoundsAt digits q e n') : ¬ n < n' := by
  intro hlt
  have hunit : (0 : ℚ) < 10 ^ e := zpow_pos (by norm_num) e
  have hgap : ((n : ℚ) + 1) * 10 ^ e ≤ n' * 10 ^ e :=
    mul_le_mul_of_nonneg_right (by exact_mod_cast hlt) hunit.le
  obtain ⟨-, habove⟩ := abs_le.mp h.near
  obtain ⟨hbelow, -⟩ := abs_le.mp h'.near
  have hmid : q - n * 10 ^ e = 10 ^ e / 2 := by linarith
  have hmid' : q - n' * 10 ^ e = -(10 ^ e / 2) := by linarith
  have hnext : n' = n + 1 := by
    have hsame : (n' : ℚ) * 10 ^ e = (n + 1) * 10 ^ e := by linarith
    exact_mod_cast mul_right_cancel₀ hunit.ne' hsame
  have heven : Even n := h.even (by rw [hmid, abs_of_pos (half_pos hunit)])
  have heven' : Even n' := h'.even (by rw [hmid', abs_neg, abs_of_pos (half_pos hunit)])
  rw [hnext, Nat.even_add_one] at heven'
  exact heven' heven

theorem RoundsAt.eq (h : RoundsAt digits q e n) (h' : RoundsAt digits q e n') : n = n' :=
  le_antisymm (Nat.le_of_not_lt (h'.not_lt h)) (Nat.le_of_not_lt (h.not_lt h'))

/-- **A number is rounded in one way only.** -/
theorem Rounded.unique (h : Rounded digits q r) (h' : Rounded digits q r') : r = r' := by
  rcases h with ⟨rfl, rfl⟩ | ⟨e, n, h, rfl⟩ <;> rcases h' with ⟨hq, rfl⟩ | ⟨e', n', h', rfl⟩
  · rfl
  · exact absurd h'.pos (lt_irrefl 0)
  · exact absurd h.pos (by rw [hq]; exact lt_irrefl 0)
  · obtain rfl : e = e' := le_antisymm (h.le_exponent h') (h'.le_exponent h)
    rw [h.eq h']

/-- The significant digits stay the same when the point is moved. -/
theorem RoundsAt.shift (h : RoundsAt digits q e n) (j : ℤ) :
    RoundsAt digits (q * 10 ^ j) (e + j) n := by
  have hpos : (0 : ℚ) < 10 ^ j := zpow_pos (by norm_num) j
  have hunit : (10 : ℚ) ^ (e + j) = 10 ^ e * 10 ^ j := zpow_add₀ (by norm_num) e j
  have hdiff : |q * 10 ^ j - n * 10 ^ (e + j)| = |q - n * 10 ^ e| * 10 ^ j := by
    rw [hunit, ← mul_assoc, ← sub_mul, abs_mul, abs_of_pos hpos]
  constructor
  · rw [← add_assoc, zpow_add₀ (by norm_num)]
    exact mul_le_mul_of_nonneg_right h.lower hpos.le
  · rw [← add_assoc, zpow_add₀ (by norm_num)]
    exact mul_lt_mul_of_pos_right h.upper hpos
  · rw [hdiff, hunit, mul_div_right_comm]
    exact mul_le_mul_of_nonneg_right h.near hpos.le
  · rw [hdiff, hunit, mul_div_right_comm, mul_left_inj' hpos.ne']
    exact h.even

theorem Rounded.shift (h : Rounded digits q r) (j : ℤ) :
    Rounded digits (q * 10 ^ j) (r * 10 ^ j) := by
  rcases h with ⟨rfl, rfl⟩ | ⟨e, n, h, rfl⟩
  · exact Or.inl ⟨zero_mul _, zero_mul _⟩
  · refine Or.inr ⟨e + j, n, h.shift j, ?_⟩
    rw [zpow_add₀ (by norm_num), mul_assoc]

/-- A number that has no more digits is its own rounding. -/
theorem rounded_self {m : ℕ} (hlt : m < 10 ^ digits) : Rounded digits m m := by
  rcases Nat.eq_zero_or_pos m with rfl | hm
  · exact Or.inl ⟨Nat.cast_zero, Nat.cast_zero⟩
  -- zeros fill the number up until it has all digits
  obtain ⟨j, k, rfl, hlow, hhigh⟩ :
      ∃ j k, digits = j + 1 + k ∧ 10 ^ j ≤ m ∧ m < 10 ^ (j + 1) := by
    have hj : Nat.log 10 m < digits := Nat.log_lt_of_lt_pow hm.ne' hlt
    exact ⟨Nat.log 10 m, digits - (Nat.log 10 m + 1), by omega, Nat.pow_log_le_self 10 hm.ne',
      Nat.lt_pow_succ_log_self (by norm_num) m⟩
  have hfilled : ((m * 10 ^ k : ℕ) : ℚ) * 10 ^ (-k : ℤ) = m := by
    rw [Nat.cast_mul, Nat.cast_pow, Nat.cast_ofNat, zpow_neg, zpow_natCast,
      mul_inv_cancel_right₀ (by positivity)]
  refine Or.inr ⟨-k, m * 10 ^ k, ⟨?_, ?_, ?_, ?_⟩, hfilled.symm⟩
  · have hexp : ((j + 1 + k : ℕ) : ℤ) - 1 + -k = j := by omega
    rw [hexp, zpow_natCast]
    exact_mod_cast hlow
  · have hexp : ((j + 1 + k : ℕ) : ℤ) + -k = (j + 1 : ℕ) := by omega
    rw [hexp, zpow_natCast]
    exact_mod_cast hhigh
  · rw [hfilled, sub_self, abs_zero]
    positivity
  · rw [hfilled, sub_self, abs_zero]
    intro h
    exact absurd h (by positivity)

/-- A longer number is rounded where its last places are dropped. -/
theorem rounded_of_length {v places : ℕ} (hlow : 10 ^ (digits + places) ≤ 10 * v)
    (hhigh : v < 10 ^ (digits + places)) :
    Rounded digits v (roundHalfEven v (10 ^ places) * 10 ^ (places : ℤ)) := by
  obtain ⟨hnear, heven⟩ := roundHalfEven_near v (10 ^ places) (by positivity)
  rw [Nat.cast_pow, Nat.cast_ofNat] at hnear heven
  refine Or.inr ⟨places, _, ⟨?_, ?_, ?_, ?_⟩, rfl⟩
  · have hlow' : (10 : ℚ) ^ (digits + places) ≤ 10 * v := by exact_mod_cast hlow
    have hexp : (digits : ℤ) - 1 + places = (digits + places : ℕ) - 1 := by omega
    rw [hexp, zpow_sub_one₀ (by norm_num), zpow_natCast]
    linarith
  · exact_mod_cast hhigh
  · rw [zpow_natCast]
    exact hnear
  · rw [zpow_natCast]
    exact heven

namespace Scaled

/-- The number that a decimal denotes. -/
def toRat (x : Scaled) : ℚ :=
  (if x.negative then -1 else 1) * x.coefficient * (10 : ℚ) ^ x.exponent

theorem toRat_positive (c : ℕ) (e : ℤ) : toRat ⟨false, c, e⟩ = c * 10 ^ e := by
  simp [toRat]

/-! ## Decimals of shifted integers -/

/-- Between the bounds on exponents digits are dropped until 28 remain, and rounding up to the next
power of ten takes one more place. -/
theorem fit_of_bounds {x : Scaled} {last : ℤ} (hc : x.coefficient ≠ 0)
    (hlast : (Text.ofNat x.coefficient).length + x.exponent - precision = last)
    (hleast : leastExponent ≤ last) (hgreatest : last < greatestExponent) :
    fit x = .ok (if last ≤ x.exponent then x
      else
        let rounded := dropDigits x.coefficient (last - x.exponent).toNat
        if rounded < tenTo precision then ⟨x.negative, rounded, last⟩
        else ⟨x.negative, rounded / 10, last + 1⟩) := by
  unfold fit
  rw [if_neg hc]
  simp only [hlast]
  have hmore : ¬ greatestExponent < last + 1 := by omega
  rw [if_neg (by omega), max_eq_left hleast, if_neg hmore]
  split_ifs <;> rfl

variable {v f : ℕ}

/-- A coefficient of up to 28 digits and the exponent are kept. -/
theorem fit_of_lt (hv : v < 10 ^ precision) (hf : f ≤ 999999) :
    fit ⟨false, v, -f⟩ = .ok ⟨false, v, -f⟩ := by
  by_cases hzero : v = 0
  · have hexp : max leastExponent (min exponentLimit (-f : ℤ)) = -f := by
      simp only [leastExponent, exponentLimit]
      omega
    simp only [fit, if_pos hzero, hexp]
  · have hlength : (Text.ofNat v).length ≤ precision :=
      (Text.length_ofNat_le_iff (by decide)).mpr hv
    have hpos : 0 < (Text.ofNat v).length := List.length_pos_of_ne_nil (Text.ofNat_ne_nil v)
    rw [fit_of_bounds hzero rfl]
    · rw [if_pos]
      simp only
      omega
    · simp only [leastExponent, precision]
      omega
    · simp only [greatestExponent]
      omega

/-- Of a longer coefficient 28 digits are kept. -/
theorem fit_of_le {places : ℕ} (hlength : (Text.ofNat v).length = precision + places)
    (hpos : 0 < places) (hplaces : places < 999972) (hf : f ≤ 999999) :
    fit ⟨false, v, -f⟩ =
      .ok (if roundHalfEven v (10 ^ places) < 10 ^ precision then
          ⟨false, roundHalfEven v (10 ^ places), places - f⟩
        else ⟨false, roundHalfEven v (10 ^ places) / 10, places - f + 1⟩) := by
  have hzero : v ≠ 0 := by
    rintro rfl
    have hone : (Text.ofNat 0).length = 1 := rfl
    rw [hone, precision] at hlength
    omega
  have hdrop : dropDigits v places = roundHalfEven v (10 ^ places) := by
    rw [dropDigits, if_neg (by omega)]
    rfl
  have hlast : ((Text.ofNat v).length : ℤ) + -f - precision = places - f := by omega
  have hplace : ((places - f : ℤ) - -f).toNat = places := by omega
  rw [fit_of_bounds hzero hlast]
  · rw [if_neg (by simp only; omega)]
    simp only [hplace, hdrop]
    rfl
  · simp only [leastExponent]
    omega
  · simp only [greatestExponent]
    omega

/-- The carry changes the digits and the exponent, and not the number. -/
theorem toRat_carry {n : ℕ} (hn : n ≤ 10 ^ precision) (e : ℤ) :
    toRat (if n < 10 ^ precision then ⟨false, n, e⟩ else ⟨false, n / 10, e + 1⟩) = n * 10 ^ e := by
  split
  · exact toRat_positive n e
  · next hcarry =>
    obtain rfl : n = 10 ^ precision := le_antisymm hn (not_lt.mp hcarry)
    have hten : 10 ^ precision / 10 = 10 ^ (precision - 1) := rfl
    rw [hten, toRat_positive, zpow_add_one₀ (by norm_num)]
    norm_num [precision]
    ring

theorem roundHalfEven_le {places : ℕ} (hv : v < 10 ^ (precision + places)) :
    roundHalfEven v (10 ^ places) ≤ 10 ^ precision := by
  have hquotient : v / 10 ^ places < 10 ^ precision := by
    rw [Nat.div_lt_iff_lt_mul (by positivity), ← pow_add]
    exact hv
  rcases roundHalfEven_eq_or v (10 ^ places) with h | h <;> rw [h]
  · exact hquotient.le
  · exact hquotient

/-- **An integer with a shifted point is the quotient, rounded to 28 significant digits.** -/
theorem exists_shift (hv : Text.Numeral.Writable v) (hf : f ≤ 999999) :
    ∃ x, shift v (-f) = .ok x ∧ Rounded precision (v / 10 ^ f) x.toRat ∧
      (v < 10 ^ precision → x = ⟨false, v, -f⟩) := by
  have hshift : shift v (-f) = fit ⟨false, v, -f⟩ := by
    have hplaces : ¬ shiftLimit < (-(f : ℤ)).natAbs := by
      simp only [shiftLimit]
      omega
    have hsign : ¬ (v : ℤ) < 0 := by omega
    simp only [shift, if_neg hplaces, hsign, decide_false, Int.natAbs_natCast]
  rw [hshift]
  have hvalue : (v : ℚ) / 10 ^ f = v * 10 ^ (-f : ℤ) := by
    rw [zpow_neg, zpow_natCast, div_eq_mul_inv]
  rw [hvalue]
  by_cases hshort : v < 10 ^ precision
  · refine ⟨_, fit_of_lt hshort hf, ?_, fun _ => rfl⟩
    rw [toRat_positive]
    exact (rounded_self hshort).shift _
  · have hlong : ¬ (Text.ofNat v).length ≤ precision := by
      rwa [Text.length_ofNat_le_iff (by decide)]
    obtain ⟨places, hlength⟩ := Nat.exists_eq_add_of_le (Nat.le_of_not_le hlong)
    have hplaces : places < 999972 := by
      rw [Text.Numeral.Writable, Int.natAbs_natCast, Text.Numeral.digitLimit] at hv
      omega
    obtain ⟨hlow, hhigh⟩ := Text.bounds_of_length_ofNat (by simp only [precision]; omega) hlength
    refine ⟨_, fit_of_le hlength (by omega) hplaces hf, ?_, fun h => absurd h hshort⟩
    rw [toRat_carry (roundHalfEven_le hhigh), sub_eq_add_neg, zpow_add₀ (by norm_num), ← mul_assoc]
    exact (rounded_of_length hlow hhigh).shift _

end Scaled

end Barcode.Number

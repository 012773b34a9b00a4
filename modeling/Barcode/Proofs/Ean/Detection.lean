import Barcode.Proofs.Ean.Completion

/-!
# Errors that check digits show

With the check digit behind them, the digits of a number count once and three times in turn from
the right, and the check digit is the only one that makes the sum a multiple of ten. Both weights
are invertible modulo ten, so one wrong digit always shows; two neighbours that are exchanged
change the sum by twice their difference. In a payload every place has a table that weighs all
digits differently, so one wrong digit shows there as well.
-/

namespace Barcode.Ean

open Text (isDigits isNumeric isDigits_iff isNumeric_iff digitValue digitValue_lt)

/-! ## Sums with two weights in turn -/

/-- The sum of digits that count `a` times and `b` times in turn, the first one `a` times. -/
def alternating (a b : Nat) : List Nat → Nat
  | [] => 0
  | d :: rest => a * d + alternating b a rest

/-- The sum of digits that count once and three times in turn from the right. -/
def balance (digits : List Nat) : Nat := alternating 1 3 digits.reverse

theorem weightedSum_eq_alternating : ∀ digits, weightedSum digits = alternating 3 1 digits
  | [] => rfl
  | [_] => rfl
  | d :: e :: rest => by
    rw [weightedSum, weightedSum_eq_alternating rest, alternating, alternating]
    omega

section Places

variable (a b : Nat) (before after : List Nat)

/-- A digit counts with the weight of its place. -/
theorem alternating_place : ∃ w rest, (w = a ∨ w = b) ∧
    ∀ d, alternating a b (before ++ d :: after) = w * d + rest := by
  induction before generalizing a b with
  | nil => exact ⟨a, alternating b a after, Or.inl rfl, fun d => rfl⟩
  | cons e before ih =>
    obtain ⟨w, rest, hw, h⟩ := ih b a
    refine ⟨w, a * e + rest, hw.symm, fun d => ?_⟩
    rw [List.cons_append, alternating, h]
    omega

/-- Neighbours count with both weights. -/
theorem alternating_neighbours : ∃ v w rest, (v = a ∧ w = b ∨ v = b ∧ w = a) ∧
    ∀ d e, alternating a b (before ++ d :: e :: after) = v * d + w * e + rest := by
  induction before generalizing a b with
  | nil =>
    refine ⟨a, b, alternating a b after, Or.inl ⟨rfl, rfl⟩, fun d e => ?_⟩
    rw [List.nil_append, alternating, alternating, Nat.add_assoc]
  | cons x before ih =>
    obtain ⟨v, w, rest, hvw, h⟩ := ih b a
    refine ⟨v, w, a * x + rest, hvw.symm, fun d e => ?_⟩
    rw [List.cons_append, alternating, h]
    omega

theorem alternating_zeros (n : Nat) : alternating a b (List.replicate n 0) = 0 := by
  induction n generalizing a b with
  | zero => rfl
  | succ n ih => rw [List.replicate_succ, alternating, ih, Nat.mul_zero]

theorem alternating_append_zeros (n : Nat) :
    alternating a b (before ++ List.replicate n 0) = alternating a b before := by
  induction before generalizing a b with
  | nil => exact alternating_zeros a b n
  | cons d before ih => rw [List.cons_append, alternating, alternating, ih]

theorem balance_place : ∃ w rest, (w = 1 ∨ w = 3) ∧
    ∀ d, balance (before ++ d :: after) = w * d + rest := by
  obtain ⟨w, rest, hw, h⟩ := alternating_place 1 3 after.reverse before.reverse
  refine ⟨w, rest, hw, fun d => ?_⟩
  rw [balance, List.reverse_append, List.reverse_cons, List.append_assoc, List.singleton_append, h]

end Places

/-! ## The check digit of a number -/

section Number

variable {t before after : Text} {a b : Char} {x : Nat}

theorem completion_eq_iff {m n : Nat} : completion m = completion n ↔ m % 10 = n % 10 := by
  unfold completion
  omega

theorem digitValue_inj (ha : a.isDigit = true) (hb : b.isDigit = true) :
    digitValue a = digitValue b ↔ a = b := by
  refine ⟨fun h => ?_, fun h => h ▸ rfl⟩
  rw [← Text.digitChar_digitValue ha, h, Text.digitChar_digitValue hb]

theorem check_eq_completion (t : Text) :
    check t = completion (alternating 3 1 (t.map digitValue).reverse) := by
  rw [check, weightedSum_eq_alternating, List.map_reverse]

/-- The check digit is the one digit that makes the sum a multiple of ten. -/
theorem balance_concat_iff (hx : x < 10) :
    balance (t.map digitValue ++ [x]) % 10 = 0 ↔ x = check t := by
  rw [check_eq_completion, balance, List.reverse_append, List.reverse_singleton,
    List.singleton_append, alternating, completion]
  omega

/-- One wrong digit shows. -/
theorem check_ne_of_replaced (ha : a.isDigit = true) (hb : b.isDigit = true) (hne : b ≠ a) :
    check (before ++ b :: after) ≠ check (before ++ a :: after) := by
  obtain ⟨w, rest, hw, h⟩ := alternating_place 3 1 (after.map digitValue).reverse
    (before.map digitValue).reverse
  have hcheck : ∀ c, check (before ++ c :: after) = completion (w * digitValue c + rest) := by
    intro c
    rw [check_eq_completion, ← h, List.map_append, List.map_cons, List.reverse_append,
      List.reverse_cons, List.append_assoc, List.singleton_append]
  have hvalue := (digitValue_inj hb ha).not.mpr hne
  have hlta := digitValue_lt ha
  have hltb := digitValue_lt hb
  rw [hcheck, hcheck, ne_eq, completion_eq_iff]
  rcases hw with rfl | rfl <;> omega

/-- Neighbours that are exchanged show unless they are equal or five apart. -/
theorem check_exchanged_iff (ha : a.isDigit = true) (hb : b.isDigit = true) :
    check (before ++ b :: a :: after) = check (before ++ a :: b :: after) ↔
      a = b ∨ |(digitValue a : ℤ) - digitValue b| = 5 := by
  obtain ⟨v, w, rest, hvw, h⟩ := alternating_neighbours 3 1 (after.map digitValue).reverse
    (before.map digitValue).reverse
  have hcheck : ∀ c d, check (before ++ c :: d :: after) =
      completion (v * digitValue d + w * digitValue c + rest) := by
    intro c d
    rw [check_eq_completion, ← h]
    simp
  have hlta := digitValue_lt ha
  have hltb := digitValue_lt hb
  rw [hcheck, hcheck, completion_eq_iff, ← digitValue_inj ha hb, abs_eq (by decide)]
  rcases hvw with ⟨rfl, rfl⟩ | ⟨rfl, rfl⟩ <;> omega

theorem check_zeros_append (n : Nat) : check (List.replicate n '0' ++ t) = check t := by
  rw [check_eq_completion, check_eq_completion, List.map_append, List.map_replicate,
    List.reverse_append, List.reverse_replicate]
  exact congrArg completion (alternating_append_zeros 3 1 _ n)

theorem isNumeric_set (ht : isNumeric t = true) (i : Nat) (hb : b.isDigit = true) :
    isNumeric (t.set i b) = true := by
  obtain ⟨hne, hd⟩ := isNumeric_iff.mp ht
  refine isNumeric_iff.mpr ⟨?_, fun c hc => ?_⟩
  · rwa [ne_eq, List.set_eq_nil_iff]
  · rcases List.mem_or_eq_of_mem_set hc with h | rfl
    · exact hd c h
    · exact hb

/-- **The check digit of a number.** It is the only digit that makes the sum of all digits, which
count once and three times in turn from the right, a multiple of ten. It changes when one digit is
replaced, and when two neighbours are exchanged that are neither equal nor five apart; zeros in
front leave it as it is. -/
theorem checkDigit_balances (ht : isNumeric t = true) :
    ∃ x, checkDigit t = .ok x ∧ x < 10 ∧
      (∀ y < 10, balance (t.map digitValue ++ [y]) % 10 = 0 ↔ y = x) ∧
      (∀ (i : Nat) (hi : i < t.length) (b : Char), b.isDigit = true → b ≠ t[i] →
        ∃ y, checkDigit (t.set i b) = .ok y ∧ y ≠ x) ∧
      (∀ before a b after, t = before ++ a :: b :: after →
        ∃ y, checkDigit (before ++ b :: a :: after) = .ok y ∧
          (y = x ↔ a = b ∨ |(digitValue a : ℤ) - digitValue b| = 5)) ∧
      ∀ n, checkDigit (List.replicate n '0' ++ t) = .ok x := by
  obtain ⟨-, hd⟩ := isNumeric_iff.mp ht
  refine ⟨check t, (checkDigit_eq_ok_iff t _).mpr ⟨ht, rfl⟩, check_lt t,
    fun y hy => balance_concat_iff hy, ?_, ?_, ?_⟩
  · intro i hi b hb hne
    refine ⟨_, (checkDigit_eq_ok_iff _ _).mpr ⟨isNumeric_set ht i hb, rfl⟩, ?_⟩
    have hsplit : t = t.take i ++ t[i] :: t.drop (i + 1) := by
      rw [List.getElem_cons_drop, List.take_append_drop]
    rw [List.set_eq_take_append_cons_drop, if_pos hi]
    nth_rewrite 3 [hsplit]
    exact check_ne_of_replaced (hd _ (List.getElem_mem hi)) hb hne
  · intro before a b after hsplit
    subst hsplit
    have hnumeric : isNumeric (before ++ b :: a :: after) = true :=
      isNumeric_iff.mpr ⟨by simp, fun c hc => hd c (by simp at hc ⊢; tauto)⟩
    exact ⟨_, (checkDigit_eq_ok_iff _ _).mpr ⟨hnumeric, rfl⟩,
      check_exchanged_iff (hd a (by simp)) (hd b (by simp))⟩
  · intro n
    have hnumeric : isNumeric (List.replicate n '0' ++ t) = true := by
      refine isNumeric_iff.mpr ⟨?_, fun c hc => ?_⟩
      · exact List.append_ne_nil_of_right_ne_nil _ (isNumeric_iff.mp ht).1
      · rcases List.mem_append.mp hc with h | h
        · rw [List.eq_of_mem_replicate h]
          rfl
        · exact hd c h
    exact (checkDigit_eq_ok_iff _ _).mpr ⟨hnumeric, check_zeros_append n⟩

/-- A one and a six that are exchanged do not show, another digit in the place of the one does. -/
theorem checkDigit_balances_neighbours :
    isNumeric "295778300016".toList = true ∧
      ∃ x y, checkDigit "295778300016".toList = .ok x ∧
        checkDigit "295778300061".toList = .ok x ∧
        checkDigit "000295778300016".toList = .ok x ∧
        checkDigit "295778300026".toList = .ok y ∧ y ≠ x := by
  have hn : isNumeric "295778300016".toList = true := by decide
  obtain ⟨x, hx, -, -, hreplaced, hexchanged, hzeros⟩ := checkDigit_balances hn
  obtain ⟨y, hy, hne⟩ := hreplaced 10 (by decide) '2' (by decide) (by decide)
  obtain ⟨z, hz, hzx⟩ := hexchanged "2957783000".toList '1' '6' [] rfl
  obtain rfl := hzx.mpr (Or.inr (by decide))
  exact ⟨hn, z, y, hx, hz, hzeros 3, hy, hne⟩

end Number

/-! ## The check digit of a payload -/

section Payload

variable {a b : Char} {before after : Text} {d : Nat}

/-- A digit of a payload counts with its weight in the table of its place. -/
theorem tableSum_place {tables : List (List Nat)} {front : List Nat}
    (hl : front.length < tables.length) (back : List Nat) :
    ∃ table ∈ tables, ∃ rest,
      ∀ d, tableSum tables (front ++ d :: back) = table.getD d 0 + rest := by
  induction tables generalizing front with
  | nil => cases hl
  | cons table tables ih =>
    cases front with
    | nil => exact ⟨table, List.mem_cons_self, tableSum tables back, fun d => rfl⟩
    | cons e front =>
      obtain ⟨t, ht, rest, h⟩ := ih (Nat.lt_of_succ_lt_succ hl)
      refine ⟨t, List.mem_cons_of_mem _ ht, table.getD e 0 + rest, fun d => ?_⟩
      show table.getD e 0 + tableSum tables (front ++ d :: back) = _
      rw [h]
      omega

/-- No two digits have the same weight in a place of the payload. -/
theorem weight_injective : ∀ table ∈ fiveDigitTables, ∀ d < 10, ∀ e < 10,
    table.getD d 0 % 10 = table.getD e 0 % 10 → d = e := by decide

theorem idxOf_fiveMinus_injective : ∀ m < 10, ∀ n < 10,
    fiveMinus.idxOf m = fiveMinus.idxOf n → m = n := by decide

/-- One wrong digit of a payload shows. -/
theorem payloadCheck_ne_of_replaced (hp : isDigits 5 (before ++ a :: after) = true)
    (hb : b.isDigit = true) (hne : b ≠ a) (hd : payloadCheck (before ++ a :: after) = .ok d) :
    payloadCheck (before ++ b :: after) ≠ .ok d := by
  obtain ⟨hl, hdigits⟩ := isDigits_iff.mp hp
  have ha : a.isDigit = true := hdigits a (by simp)
  have hp' : isDigits 5 (before ++ b :: after) = true := by
    refine isDigits_iff.mpr ⟨by simpa using hl, fun c hc => ?_⟩
    simp only [List.mem_append, List.mem_cons] at hc
    rcases hc with hc | rfl | hc
    · exact hdigits c (by simp [hc])
    · exact hb
    · exact hdigits c (by simp [hc])
  have hfront : (before.map digitValue).length < fiveDigitTables.length := by
    rw [List.length_append, List.length_cons] at hl
    rw [List.length_map]
    show before.length < 5
    omega
  obtain ⟨table, htable, rest, h⟩ := tableSum_place hfront (after.map digitValue)
  have hsum : ∀ c : Char, tableSum fiveDigitTables ((before ++ c :: after).map digitValue) =
      table.getD (digitValue c) 0 + rest := by
    intro c
    rw [List.map_append, List.map_cons, h]
  rw [payloadCheck_digits hp, hsum] at hd
  rw [payloadCheck_digits hp', hsum, ← hd, ne_eq, Except.ok.injEq]
  intro heq
  have hcompletion := idxOf_fiveMinus_injective _ (completion_lt _) _ (completion_lt _) heq
  rw [completion_eq_iff] at hcompletion
  have hvalue := weight_injective table htable _ (digitValue_lt hb) _ (digitValue_lt ha) (by omega)
  exact hne ((digitValue_inj hb ha).mp hvalue)

end Payload

end Barcode.Ean

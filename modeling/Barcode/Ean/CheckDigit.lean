import Barcode.Fault.Basic

/-!
# The check digit of an article number

From right to left the digits of an article number count three times and once in turn; the
check digit completes their sum to a multiple of ten. Main statements: `checkDigit_eq_ok_iff`
says for which texts there is one, `check_lt` that it is a digit.
-/

namespace Barcode.Ean

/-- The weighted sum of digits given from right to left. -/
def weightedSum : List Nat → Nat
  | [] => 0
  | [d] => 3 * d
  | d :: e :: rest => 3 * d + e + weightedSum rest

/-- The digit that completes a sum to a multiple of ten. -/
def completion (sum : Nat) : Nat := (10 - sum % 10) % 10

def check (digits : Text) : Nat := completion (weightedSum (digits.reverse.map Text.digitValue))

/-- The check digit of a text, which must be numeric. -/
def checkDigit (digits : Text) : Except Fault Nat :=
  if Text.isNumeric digits then .ok (check digits) else .error .notNumeric

def lastDigit (code : Text) : Nat := (code.getLast?.map Text.digitValue).getD 0

theorem completion_lt (sum : Nat) : completion sum < 10 := Nat.mod_lt _ (by decide)

theorem check_lt (digits : Text) : check digits < 10 := completion_lt _

theorem checkDigit_eq_ok_iff (digits : Text) (d : Nat) :
    checkDigit digits = .ok d ↔ Text.isNumeric digits = true ∧ check digits = d := by
  unfold checkDigit
  split <;> simp_all

end Barcode.Ean

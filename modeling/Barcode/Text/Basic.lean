/-!
# Texts and decimal digits

Codes, template texts, identifiers and document strings are lists of code points, so every
length, position and slice counts code points. A digit is one of the ten ASCII digits unless
another module says otherwise. Main statements: `le_total`, `le_trans` and `le_antisymm`, by
which texts are in a total order.
-/

namespace Barcode

/-- The code points of a text, from left to right. -/
abbrev Text := List Char

namespace Text

/-- At least one character, and ASCII digits only. -/
def isNumeric (t : Text) : Bool := !t.isEmpty && t.all Char.isDigit

def digitValue (c : Char) : Nat := c.toNat - '0'.toNat

/-- The digits of a number, the most significant first and without leading zeros. -/
def ofNat (n : Nat) : Text := Nat.toDigits 10 n

def toNat (t : Text) : Nat := Nat.ofDigitChars 10 t 0

/-- Zeros in front of `t` until it is `width` characters long. -/
def padZeros (width : Nat) (t : Text) : Text := t.leftpad width '0'

/-- The text of a string in which square brackets stand for braces, as template texts are written:
`[i]` is the field `i` between braces. -/
def withBraces (s : String) : Text :=
  s.toList.map fun c => if c = '[' then '{' else if c = ']' then '}' else c

/-- The order of texts: by the first code point that differs, a shorter beginning first. -/
def le : Text → Text → Bool
  | [], _ => true
  | _ :: _, [] => false
  | a :: s, b :: t => a.toNat < b.toNat || (a = b && le s t)

theorem toNat_ofNat (n : Nat) : toNat (ofNat n) = n := Nat.ofDigitChars_ten_toDigits

theorem length_padZeros (width : Nat) (t : Text) :
    (padZeros width t).length = max width t.length := by
  simp only [padZeros, List.leftpad, List.length_append, List.length_replicate]
  omega

protected theorem le_total : ∀ s t : Text, (le s t || le t s) = true
  | [], _ => by simp [le]
  | _ :: _, [] => by simp [le]
  | a :: s, b :: t => by
    have tail := Text.le_total s t
    by_cases same : a = b
    · subst same
      simpa [le] using tail
    · have apart : a.toNat ≠ b.toNat := fun h => same (Char.toNat_inj.1 h)
      have order : a.toNat < b.toNat ∨ b.toNat < a.toNat := by omega
      simp only [le, Bool.or_eq_true, decide_eq_true_eq]
      exact order.imp Or.inl Or.inl

protected theorem le_trans : ∀ s t u : Text, le s t = true → le t u = true → le s u = true
  | [], _, _, _, _ => by simp [le]
  | _ :: _, [], _, h, _ => by simp [le] at h
  | _ :: _, _ :: _, [], _, h => by simp [le] at h
  | a :: s, b :: t, c :: u, hst, htu => by
    have tail := Text.le_trans s t u
    simp only [le, Bool.or_eq_true, Bool.and_eq_true, decide_eq_true_eq] at hst htu ⊢
    rcases hst with hab | ⟨rfl, hst⟩
    · rcases htu with hbc | ⟨rfl, _⟩
      · exact Or.inl (by omega)
      · exact Or.inl hab
    · rcases htu with hbc | ⟨rfl, htu⟩
      · exact Or.inl hbc
      · exact Or.inr ⟨rfl, tail hst htu⟩

protected theorem le_antisymm : ∀ s t : Text, le s t = true → le t s = true → s = t
  | [], [], _, _ => rfl
  | [], _ :: _, _, h => by simp [le] at h
  | _ :: _, [], h, _ => by simp [le] at h
  | a :: s, b :: t, hst, hts => by
    have tail := Text.le_antisymm s t
    simp only [le, Bool.or_eq_true, Bool.and_eq_true, decide_eq_true_eq] at hst hts
    rcases hst with hab | ⟨rfl, hst⟩
    · rcases hts with hba | ⟨rfl, _⟩ <;> omega
    · rcases hts with hba | ⟨_, hts⟩
      · omega
      · rw [tail hst hts]

end Text

end Barcode

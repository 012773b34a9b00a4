import Mathlib
import Barcode.Proofs.Fault.Sequence
import Barcode.Template.Basic

/-!
# What a compiled template satisfies

Compilation is taken apart into its stages: the scan of the text, the field of every token, the
rules on the whole, and the counts that a pattern can express. `Lawful` states the rules on the
whole as facts about the fields, and `sizes` names the lengths that a field is written with, all
of which are positive.
-/

namespace Barcode

open Sequence

/-- The lengths that a field is written with. -/
def Field.sizes : Field → List Nat
  | .code shape => if shape.kind = .fixed then [shape.size] else []
  | .embed size | .embedHundreds size | .price size => [size]
  | .embedDecimal integerDigits fractionDigits => [integerDigits, fractionDigits]
  | .skip (some size) => [size]
  | _ => []

namespace Grammar

/-- The rules on a whole template. -/
structure Lawful (fields : List Field) : Prop where
  nonempty : fields ≠ []
  single : ∀ p : Purpose, p.repeatable = false → fields.countP (·.purpose = p) ≤ 1
  payload : .payloadCheck ∈ fields → fields.findSome? Field.integerPayload? = some 5
  last : .eanCheck ∈ fields → fields.getLast? = some .eanCheck

/-- A purpose that is served once is not served again behind a field that serves it. -/
theorem Lawful.purpose_ne {a b : List Field} (hl : Lawful (a ++ b)) {f g : Field} (hf : f ∈ a)
    (hg : g ∈ b) (hr : g.purpose.repeatable = false) : f.purpose ≠ g.purpose := by
  intro heq
  have hone := hl.single g.purpose hr
  have ha : 0 < a.countP (·.purpose = g.purpose) :=
    List.countP_pos_iff.mpr ⟨f, hf, decide_eq_true heq⟩
  have hb : 0 < b.countP (·.purpose = g.purpose) :=
    List.countP_pos_iff.mpr ⟨g, hg, decide_eq_true rfl⟩
  rw [List.countP_append] at hone
  omega

theorem mem_single_iff (p : Purpose) : p ∈ Purpose.single ↔ p.repeatable = false := by
  cases p <;> decide

theorem duplicates_eq_nil_iff (fields : List Field) :
    duplicates fields = [] ↔
      ∀ p : Purpose, p.repeatable = false → fields.countP (·.purpose = p) ≤ 1 := by
  rw [duplicates, List.filter_eq_nil_iff]
  constructor
  · intro h p hp
    have := h p ((mem_single_iff p).mpr hp)
    simpa using this
  · intro h p hp
    have := h p ((mem_single_iff p).mp hp)
    simpa using this

theorem check_eq_ok_iff (fields : List Field) : check fields = .ok () ↔ Lawful fields := by
  have hd := duplicates_eq_nil_iff fields
  unfold check
  constructor
  · intro h
    split at h
    · cases h
    split at h
    · cases h
    split at h
    · cases h
    split at h
    · cases h
    next he hs hp hl =>
      refine ⟨by simpa using he, hd.mp (not_not.mp hs), ?_, ?_⟩
      · intro hm
        simpa [hm] using hp
      · intro hm
        simpa [hm] using hl
  · rintro ⟨he, hs, hp, hl⟩
    rw [if_neg (by simpa using he), if_neg (not_not.mpr (hd.mpr hs)), if_neg, if_neg]
    · rw [Bool.and_eq_true, List.contains_iff_mem, decide_eq_true_eq]
      exact fun ⟨hm, hne⟩ => hne (hl hm)
    · rw [Bool.and_eq_true, List.contains_iff_mem, decide_eq_true_eq]
      exact fun ⟨hm, hne⟩ => hne (hp hm)

/-! ## Lengths -/

theorem length_eq_ok_iff {value token : Text} {n : Nat} :
    length value token = .ok n ↔
      Text.isNumeric value = true ∧ value.length ≤ Text.Numeral.digitLimit ∧ 0 < n ∧
        Text.toNat value = n := by
  unfold length
  cases hnum : Text.isNumeric value with
  | false => simp
  | true =>
    rw [if_neg (by decide)]
    by_cases hlong : Text.Numeral.digitLimit < value.length
    · rw [if_pos hlong]
      constructor
      · intro h
        cases h
      · rintro ⟨-, hle, -⟩
        omega
    · rw [if_neg hlong]
      by_cases hzero : Text.toNat value = 0
      · rw [if_pos hzero]
        constructor
        · intro h
          cases h
        · rintro ⟨-, -, hpos, he⟩
          omega
      · rw [if_neg hzero, Except.ok.injEq]
        constructor
        · rintro rfl
          exact ⟨rfl, by omega, by omega, rfl⟩
        · exact fun h => h.2.2.2

theorem length_pos {value token : Text} {n : Nat} (h : length value token = .ok n) : 0 < n :=
  (length_eq_ok_iff.mp h).2.2.1

theorem sizes_pos_of_codeField {separator? : Option Char} {value token : Text} {f : Field}
    (h : codeField separator? value token = .ok f) : ∀ n ∈ f.sizes, 0 < n := by
  unfold codeField at h
  split at h
  · cases h; simp [Field.sizes]
  · split at h
    · cases h; simp [Field.sizes]
    · cases h; simp [Field.sizes]
    · cases h; simp [Field.sizes]
    · cases h; simp [Field.sizes]
    · obtain ⟨m, hm, rfl⟩ := map_eq_ok.mp h
      simpa [Field.sizes] using length_pos hm

theorem sizes_pos_of_embedField {value token : Text} {f : Field}
    (h : embedField value token = .ok f) : ∀ n ∈ f.sizes, 0 < n := by
  unfold embedField at h
  split at h
  · obtain ⟨m, hm, rfl⟩ := map_eq_ok.mp h
    simpa [Field.sizes] using length_pos hm
  · split at h
    · cases h
    · obtain ⟨i, hi, h⟩ := bind_eq_ok.mp h
      obtain ⟨j, hj, h⟩ := bind_eq_ok.mp h
      cases h
      simpa [Field.sizes] using ⟨length_pos hi, length_pos hj⟩

theorem sizes_pos_of_skipField {value token : Text} {f : Field}
    (h : skipField value token = .ok f) : ∀ n ∈ f.sizes, 0 < n := by
  unfold skipField at h
  split at h
  · cases h; simp [Field.sizes]
  · obtain ⟨m, hm, rfl⟩ := map_eq_ok.mp h
    simpa [Field.sizes] using length_pos hm

/-- Every length that a token writes is positive. -/
theorem sizes_pos_of_field {token : Token} {f : Field} (h : field token = .ok f) :
    ∀ n ∈ f.sizes, 0 < n := by
  unfold field at h
  split at h
  · unfold bracketedField at h
    simp only at h
    split at h
    · exact sizes_pos_of_codeField h
    · exact sizes_pos_of_embedField h
    · obtain ⟨m, hm, rfl⟩ := map_eq_ok.mp h
      simpa [Field.sizes] using length_pos hm
    · obtain ⟨m, hm, rfl⟩ := map_eq_ok.mp h
      simpa [Field.sizes] using length_pos hm
    · exact sizes_pos_of_skipField h
    · obtain ⟨m, hm, rfl⟩ := map_eq_ok.mp h
      simp [Field.sizes]
    · obtain ⟨m, hm, rfl⟩ := map_eq_ok.mp h
      simp [Field.sizes]
    · cases h
  · cases h
    simp [Field.sizes]

/-! ## Whole texts -/

theorem compile_eq_ok_iff {t : Text} {fields : List Field} :
    compile t = .ok fields ↔
      (Token.scan t).error? = none ∧
      List.Forall₂ (fun token f => field token = .ok f) (Token.scan t).tokens fields ∧
      Lawful fields := by
  unfold compile
  rw [bind_eq_ok, ← check_eq_ok_iff]
  constructor
  · rintro ⟨found, hm, h⟩
    cases he : (Token.scan t).error? with
    | some error => rw [he] at h; cases h
    | none =>
      rw [he] at h
      cases hc : check found with
      | error error => rw [hc] at h; cases h
      | ok u =>
        rw [hc] at h
        cases h
        exact ⟨rfl, mapM_eq_ok.mp hm, hc⟩
  · rintro ⟨he, hm, hc⟩
    refine ⟨fields, mapM_eq_ok.mpr hm, ?_⟩
    rw [he, hc]
    rfl

/-- Compilation fails with a token, else with the scan, else with a rule on the whole. -/
theorem compile_eq_error_iff_stages {t : Text} {fault : Fault} :
    compile t = .error fault ↔
      (Token.scan t).tokens.mapM field = .error fault ∨
      ∃ fields, (Token.scan t).tokens.mapM field = .ok fields ∧ ∃ error, fault = .grammar error ∧
        ((Token.scan t).error? = some error ∨
          (Token.scan t).error? = none ∧ check fields = .error error) := by
  unfold compile
  rw [bind_eq_error]
  refine or_congr_right (exists_congr fun fields => and_congr_right fun _ => ?_)
  cases (Token.scan t).error? with
  | some error =>
    constructor
    · intro h
      exact ⟨error, (Except.error.inj h).symm, Or.inl rfl⟩
    · rintro ⟨error', rfl, h | ⟨h, -⟩⟩ <;> cases h
      rfl
  | none =>
    simp only [reduceCtorEq, true_and, false_or]
    cases check fields with
    | ok u =>
      constructor
      · intro h
        cases h
      · rintro ⟨error, -, h⟩
        cases h
    | error error =>
      constructor
      · intro h
        exact ⟨error, (Except.error.inj h).symm, rfl⟩
      · rintro ⟨error', rfl, h⟩
        cases h
        rfl

end Grammar

namespace Template

theorem ofFields_eq_ok_iff {id text : Text} {fields : List Field} {t : Template} :
    ofFields id text fields = .ok t ↔ Pattern.check fields = .ok () ∧ t = ⟨id, text, fields⟩ := by
  unfold ofFields
  rw [bind_eq_ok]
  constructor
  · rintro ⟨u, hu, h⟩
    cases h
    exact ⟨hu, rfl⟩
  · rintro ⟨hu, rfl⟩
    exact ⟨(), hu, rfl⟩

theorem compile_eq_ok_iff {id text : Text} {t : Template} :
    compile id text = .ok t ↔
      ∃ fields, Grammar.compile text = .ok fields ∧ Pattern.check fields = .ok () ∧
        t = ⟨id, text, fields⟩ := by
  unfold compile
  rw [bind_eq_ok]
  simp only [ofFields_eq_ok_iff]

variable {id text : Text} {t : Template}

theorem id_of_compile (h : compile id text = .ok t) : t.id = id := by
  obtain ⟨fields, -, -, rfl⟩ := compile_eq_ok_iff.mp h
  rfl

theorem lawful_of_compile (h : compile id text = .ok t) : Grammar.Lawful t.fields := by
  obtain ⟨fields, hg, -, rfl⟩ := compile_eq_ok_iff.mp h
  exact (Grammar.compile_eq_ok_iff.mp hg).2.2

theorem sizes_pos_of_compile (h : compile id text = .ok t) :
    ∀ f ∈ t.fields, ∀ n ∈ f.sizes, 0 < n := by
  obtain ⟨fields, hg, -, rfl⟩ := compile_eq_ok_iff.mp h
  obtain ⟨-, hm, -⟩ := Grammar.compile_eq_ok_iff.mp hg
  intro f hf
  obtain ⟨token, -, ht⟩ := exists_of_mem_right hm hf
  exact Grammar.sizes_pos_of_field ht

end Template

end Barcode

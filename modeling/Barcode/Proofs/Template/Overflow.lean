import Barcode.Proofs.Template.Compiled
import Barcode.Proofs.Text.Digits

/-!
# Template texts that overflow

A text that breaks the grammar is refused with a grammar error. Two kinds of texts are not
refused so: a length of more digits than are read, when nothing before it is wrong, and a
template that the grammar accepts with a field wider than a pattern can count. These are all
the texts that compilation fails on with another fault.
-/

namespace Barcode

open Sequence
open Text.Numeral (digitLimit)

/-- A template text is refused for breaking the grammar. -/
def Fault.isGrammar : Fault → Bool
  | .grammar _ => true
  | _ => false

namespace Grammar

/-- The values that name a kind of code. -/
def codeNames : List Text :=
  [['*'], ['e', 'a', 'n', '8'], ['e', 'a', 'n', '1', '3'], ['e', 'a', 'n', '1', '4']]

/-- The lengths in the value of a code token. -/
def codeLengths (separator? : Option Char) (value : Text) : List Text :=
  if separator? = some '=' ∨ value ∈ codeNames then [] else [value]

/-- The lengths in the value of a payload token. -/
def embedLengths (value : Text) : List Text :=
  match value.dropWhile (· != '.') with
  | [] => [value]
  | _ :: fraction =>
    if fraction.contains '.' then [] else [value.takeWhile (· != '.'), fraction]

/-- The lengths in the value of a token that passes characters over. -/
def skipLengths (value : Text) : List Text := if value = ['*'] then [] else [value]

/-- The texts that a token gives for lengths, in the order in which they are read. -/
def lengths (token : Token) : List Text :=
  if token.bracketed then
    let parts := split (inner token.text)
    match Name.ofText? parts.name with
    | some .code => codeLengths parts.separator? parts.value
    | some .embed => embedLengths parts.value
    | some .skip => skipLengths parts.value
    | some _ => [parts.value]
    | none => []
  else []

/-- The first length of the token that cannot be read has too many digits. -/
def Overlong (token : Token) : Prop :=
  ∃ before v after, lengths token = before ++ v :: after ∧
    (∀ b ∈ before, ∃ n, length b token.text = .ok n) ∧
    Text.isNumeric v = true ∧ digitLimit < v.length

theorem length_eq_error_iff {value token : Text} {fault : Fault} (hf : fault.isGrammar = false) :
    length value token = .error fault ↔
      Text.isNumeric value = true ∧ digitLimit < value.length ∧
        fault = .numeralTooLong value.length := by
  unfold length
  cases hnum : Text.isNumeric value with
  | false =>
    rw [if_pos (by decide)]
    constructor
    · intro h
      obtain rfl := Except.error.inj h
      cases hf
    · rintro ⟨h, -⟩
      cases h
  | true =>
    rw [if_neg (by decide)]
    by_cases hlong : digitLimit < value.length
    · rw [if_pos hlong, Except.error.injEq]
      constructor
      · intro h
        exact ⟨rfl, hlong, h.symm⟩
      · exact fun h => h.2.2.symm
    · rw [if_neg hlong]
      constructor
      · intro h
        split at h
        · obtain rfl := Except.error.inj h
          cases hf
        · cases h
      · exact fun h => absurd h.2.1 hlong

section Lengths

variable {token : Text} {fault : Fault}

theorem not_mapM_nil : ¬ ([] : List Text).mapM (length · token) = .error fault := by
  intro h
  cases h

theorem not_grammar {α : Type} (hf : fault.isGrammar = false) (e : GrammarError) :
    ¬ (.error (.grammar e) : Except Fault α) = .error fault := by
  intro h
  obtain rfl := Except.error.inj h
  cases hf

theorem mapM_singleton {value : Text} :
    [value].mapM (length · token) = .error fault ↔ length value token = .error fault := by
  rw [List.mapM_cons, List.mapM_nil, bind_eq_error]
  constructor
  · intro h
    rcases h with h | ⟨n, -, h⟩
    · exact h
    · cases h
  · exact Or.inl

theorem codeField_eq_error_iff {separator? : Option Char} {value : Text} :
    codeField separator? value token = .error fault ↔
      (codeLengths separator? value).mapM (length · token) = .error fault := by
  unfold codeField codeLengths
  by_cases hs : separator? = some '='
  · rw [if_pos hs, if_pos (Or.inl hs)]
    exact iff_of_false (by intro h; cases h) not_mapM_nil
  · rw [if_neg hs]
    by_cases hv : value ∈ codeNames
    · rw [if_pos (Or.inr hv)]
      simp only [codeNames, List.mem_cons, List.not_mem_nil, or_false] at hv
      rcases hv with rfl | rfl | rfl | rfl <;>
        exact iff_of_false (by intro h; cases h) not_mapM_nil
    · rw [if_neg (not_or.mpr ⟨hs, hv⟩), mapM_singleton]
      simp only [codeNames, List.mem_cons, List.not_mem_nil, or_false, not_or] at hv
      split
      · exact absurd rfl hv.1
      · exact absurd rfl hv.2.1
      · exact absurd rfl hv.2.2.1
      · exact absurd rfl hv.2.2.2
      · exact map_eq_error

theorem embedField_eq_error_iff {value : Text} (hf : fault.isGrammar = false) :
    embedField value token = .error fault ↔
      (embedLengths value).mapM (length · token) = .error fault := by
  unfold embedField embedLengths
  cases value.dropWhile (· != '.') with
  | nil =>
    simp only
    rw [map_eq_error, mapM_singleton]
  | cons point fraction =>
    simp only
    by_cases hp : fraction.contains '.' = true
    · rw [if_pos hp, if_pos hp]
      exact iff_of_false (not_grammar hf _) not_mapM_nil
    · rw [if_neg hp, if_neg hp, List.mapM_cons, bind_eq_error, bind_eq_error]
      apply or_congr_right
      apply exists_congr
      intro n
      rw [bind_pure_eq_error, bind_pure_eq_error, mapM_singleton]

theorem skipField_eq_error_iff {value : Text} :
    skipField value token = .error fault ↔
      (skipLengths value).mapM (length · token) = .error fault := by
  unfold skipField skipLengths
  split
  · exact iff_of_false (by intro h; cases h) not_mapM_nil
  · rw [map_eq_error, mapM_singleton]

end Lengths

/-- A token fails with another fault than a grammar error as its lengths do. -/
theorem field_eq_error_iff {token : Token} {fault : Fault} (hf : fault.isGrammar = false) :
    field token = .error fault ↔ (lengths token).mapM (length · token.text) = .error fault := by
  unfold field lengths
  split
  · unfold bracketedField
    simp only
    cases Name.ofText? (split (inner token.text)).name with
    | none => exact iff_of_false (not_grammar hf _) not_mapM_nil
    | some name =>
      cases name with
      | code => exact codeField_eq_error_iff
      | embed => exact embedField_eq_error_iff hf
      | skip => exact skipField_eq_error_iff
      | embedHundreds | price | payloadCheck | eanCheck =>
        simp only
        rw [map_eq_error, mapM_singleton]
  · exact iff_of_false (by intro h; cases h) not_mapM_nil

theorem overlong_iff {token : Token} :
    Overlong token ↔ ∃ fault, fault.isGrammar = false ∧ field token = .error fault := by
  constructor
  · rintro ⟨before, v, after, he, hb, hnum, hlong⟩
    refine ⟨.numeralTooLong v.length, rfl, ?_⟩
    rw [field_eq_error_iff rfl, mapM_eq_error]
    exact ⟨before, v, after, he, hb, (length_eq_error_iff rfl).mpr ⟨hnum, hlong, rfl⟩⟩
  · rintro ⟨fault, hf, h⟩
    rw [field_eq_error_iff hf, mapM_eq_error] at h
    obtain ⟨before, v, after, he, hb, hv⟩ := h
    obtain ⟨hnum, hlong, -⟩ := (length_eq_error_iff hf).mp hv
    exact ⟨before, v, after, he, hb, hnum, hlong⟩

/-- The grammar fails with another fault than a grammar error at the first token that fails. -/
theorem compile_eq_error_iff {t : Text} {fault : Fault} (hf : fault.isGrammar = false) :
    compile t = .error fault ↔ (Token.scan t).tokens.mapM field = .error fault := by
  rw [compile_eq_error_iff_stages]
  constructor
  · rintro (h | ⟨fields, -, error, rfl, -⟩)
    · exact h
    · cases hf
  · exact Or.inl

end Grammar

namespace Pattern

theorem writable_of_lt {n : Nat} (h : n < countLimit) : (Text.ofNat n).length ≤ digitLimit := by
  have hlt : n < 10 ^ 10 := lt_trans h (by decide)
  have hten : (Text.ofNat n).length ≤ 10 := (Text.length_ofNat_le_iff (by decide)).mpr hlt
  exact hten.trans (by decide)

theorem check_eq_ok_iff {fields : List Field} :
    check fields = .ok () ↔ ∀ n ∈ counts fields, n < countLimit := by
  unfold check checkWritable
  constructor
  · intro h n hn
    by_contra hge
    have hany : (counts fields).any (countLimit ≤ ·) = true :=
      List.any_eq_true.mpr ⟨n, hn, by simpa using hge⟩
    obtain ⟨u, -, h⟩ := bind_eq_ok.mp h
    rw [hany] at h
    cases h
  · intro h
    rw [if_neg, bind_eq_ok]
    · refine ⟨(), rfl, ?_⟩
      rw [if_neg]
      · rfl
      · rw [List.any_eq_true]
        intro hex
        obtain ⟨n, hn, hle⟩ := hex
        have hlt := h n hn
        have hge : countLimit ≤ n := of_decide_eq_true hle
        omega
    · rw [List.any_eq_true]
      intro hex
      obtain ⟨n, hn, hlong⟩ := hex
      have hw := writable_of_lt (h n hn)
      have hlt : digitLimit < (Text.ofNat n).length := of_decide_eq_true hlong
      omega

theorem isGrammar_of_check {fields : List Field} {fault : Fault}
    (h : check fields = .error fault) : fault.isGrammar = false := by
  unfold check checkWritable at h
  rcases bind_eq_error.mp h with h | ⟨u, -, h⟩
  · split at h
    · obtain rfl := Except.error.inj h
      rfl
    · cases h
  · split at h
    · obtain rfl := Except.error.inj h
      rfl
    · cases h

end Pattern

namespace Template

/-- The first thing wrong with the text is a length with too many digits, or nothing is wrong
with it and a field is wider than a pattern can count. -/
def Overflows (text : Text) : Prop :=
  (∃ before token after, (Token.scan text).tokens = before ++ token :: after ∧
    (∀ b ∈ before, ∃ f, Grammar.field b = .ok f) ∧ Grammar.Overlong token) ∨
  ∃ fields, Grammar.compile text = .ok fields ∧
    ∃ n ∈ Pattern.counts fields, Pattern.countLimit ≤ n

theorem ofFields_eq_error_iff {id text : Text} {fields : List Field} {fault : Fault} :
    ofFields id text fields = .error fault ↔ Pattern.check fields = .error fault := by
  unfold ofFields
  exact bind_pure_eq_error

/-- **Compilation fails with another fault than a grammar error exactly on the texts that
overflow.** -/
theorem overflows_iff (id text : Text) :
    Overflows text ↔ ∃ fault, fault.isGrammar = false ∧ compile id text = .error fault := by
  constructor
  · intro h
    rcases h with ⟨before, token, after, hscan, hb, hlong⟩ | ⟨fields, hg, n, hn, hge⟩
    · obtain ⟨fault, hf, htok⟩ := Grammar.overlong_iff.mp hlong
      refine ⟨fault, hf, ?_⟩
      rw [compile, bind_eq_error]
      refine Or.inl ((Grammar.compile_eq_error_iff hf).mpr ?_)
      exact mapM_eq_error.mpr ⟨before, token, after, hscan, hb, htok⟩
    · cases hc : Pattern.check fields with
      | ok u =>
        have hlt := Pattern.check_eq_ok_iff.mp hc n hn
        omega
      | error fault =>
        refine ⟨fault, Pattern.isGrammar_of_check hc, ?_⟩
        rw [compile, bind_eq_error]
        exact Or.inr ⟨fields, hg, ofFields_eq_error_iff.mpr hc⟩
  · intro h
    obtain ⟨fault, hf, h⟩ := h
    rw [compile, bind_eq_error] at h
    rcases h with h | ⟨fields, hg, h⟩
    · obtain ⟨before, token, after, hscan, hb, htok⟩ :=
        mapM_eq_error.mp ((Grammar.compile_eq_error_iff hf).mp h)
      exact Or.inl ⟨before, token, after, hscan, hb, Grammar.overlong_iff.mpr ⟨fault, hf, htok⟩⟩
    · refine Or.inr ⟨fields, hg, ?_⟩
      by_contra hno
      have hok : Pattern.check fields = .ok () := by
        rw [Pattern.check_eq_ok_iff]
        intro n hn
        by_contra hge
        exact hno ⟨n, hn, by omega⟩
      rw [ofFields_eq_error_iff, hok] at h
      cases h

theorem not_overflows_iff (id text : Text) :
    ¬ Overflows text ↔
      (∃ t, compile id text = .ok t) ∨ ∃ e, compile id text = .error (.grammar e) := by
  rw [overflows_iff id]
  cases h : compile id text with
  | ok t =>
    refine iff_of_true ?_ (Or.inl ⟨t, rfl⟩)
    intro hex
    obtain ⟨fault, -, hf⟩ := hex
    cases hf
  | error fault =>
    cases fault with
    | grammar e =>
      refine iff_of_true ?_ (Or.inr ⟨e, rfl⟩)
      intro hex
      obtain ⟨fault, hg, hf⟩ := hex
      obtain rfl := Except.error.inj hf
      cases hg
    | _ => exact iff_of_false (fun hno => hno ⟨_, rfl, rfl⟩) (by simp)

end Template

end Barcode

import Barcode.Proofs.Template.Compiled
import Barcode.Proofs.Template.Pieces
import Barcode.Proofs.Text.Digits

/-!
# The language of template texts

The language is given by its pieces: a literal denotes itself, and what stands between braces is
one of the documented forms, each with the field that it denotes. A length is written with ASCII
digits, no more than are read, and is 1 when it is left out. The grammar compiles exactly the
texts of the language whose fields obey the rules on the whole, to the fields that their pieces
denote.
-/

namespace Barcode

open Sequence
open Piece (Divides)
open Text (takeWhile_append_stop dropWhile_append_stop head?_dropWhile)
open Text.Numeral (digitLimit)

namespace Grammar

def Name.text : Name → Text
  | .code => ['c', 'o', 'd', 'e']
  | .embed => ['e', 'm', 'b', 'e', 'd']
  | .embedHundreds => ['e', 'm', 'b', 'e', 'd', '1', '0', '0']
  | .price => ['p', 'r', 'i', 'c', 'e']
  | .skip => ['_']
  | .payloadCheck => ['i']
  | .eanCheck => ['e', 'c']

/-- ASCII digits that denote a positive number, at most as many as are read. -/
structure Numeral (v : Text) (n : Nat) : Prop where
  nonempty : v ≠ []
  digits : ∀ c ∈ v, c.isDigit = true
  short : v.length ≤ digitLimit
  value : Text.toNat v = n
  positive : 0 < n

def IsSeparator (c : Char) : Prop := c = ':' ∨ c = '='

/-- What follows a name with a length: nothing, or a separator and a numeral. -/
inductive Sized : Text → Nat → Prop
  | absent : Sized [] 1
  | given {separator : Char} {v : Text} {n : Nat} (hs : IsSeparator separator)
      (hv : Numeral v n) : Sized (separator :: v) n

/-- What follows the colon of a code: the name of a kind, or the length of a code of given
length. -/
inductive CodeValue : Text → CodeShape → Prop
  | named {kind : CodeKind} (hk : kind ∈ [.any, .ean8, .ean13, .ean14]) :
      CodeValue kind.name.toList { kind }
  | sized {v : Text} {n : Nat} (hv : Numeral v n) : CodeValue v { kind := .fixed, size := n }

/-- The bodies of the language with the fields that they denote. -/
inductive Denotes : Text → Field → Prop
  | code : Denotes Name.code.text (.code { kind := .fixed, size := 1 })
  | codeValue {v : Text} {shape : CodeShape} (hv : CodeValue v shape) :
      Denotes (Name.code.text ++ ':' :: v) (.code shape)
  | codeConstant (v : Text) :
      Denotes (Name.code.text ++ '=' :: v) (.code { kind := .constant, constant := v })
  | embed {w : Text} {n : Nat} (hw : Sized w n) : Denotes (Name.embed.text ++ w) (.embed n)
  | embedDecimal {separator : Char} {v w : Text} {n m : Nat} (hs : IsSeparator separator)
      (hv : Numeral v n) (hw : Numeral w m) :
      Denotes (Name.embed.text ++ separator :: (v ++ '.' :: w)) (.embedDecimal n m)
  | embedHundreds {w : Text} {n : Nat} (hw : Sized w n) :
      Denotes (Name.embedHundreds.text ++ w) (.embedHundreds n)
  | price {w : Text} {n : Nat} (hw : Sized w n) : Denotes (Name.price.text ++ w) (.price n)
  | skip {w : Text} {n : Nat} (hw : Sized w n) : Denotes (Name.skip.text ++ w) (.skip (some n))
  | skipAll {separator : Char} (hs : IsSeparator separator) :
      Denotes (Name.skip.text ++ [separator, '*']) (.skip none)
  | payloadCheck {w : Text} {n : Nat} (hw : Sized w n) :
      Denotes (Name.payloadCheck.text ++ w) .payloadCheck
  | eanCheck {w : Text} {n : Nat} (hw : Sized w n) : Denotes (Name.eanCheck.text ++ w) .eanCheck

/-! ## Names and values -/

theorem ofText?_eq_some_iff {t : Text} {name : Name} :
    Name.ofText? t = some name ↔ t = name.text := by
  constructor
  · intro h
    unfold Name.ofText? at h
    split at h <;> cases h <;> rfl
  · rintro rfl
    cases name <;> rfl

theorem isNameChar_text (name : Name) : ∀ c ∈ name.text, isNameChar c = true := by
  cases name <;> simp [Name.text, isNameChar]

theorem isSeparator_iff {c : Char} : IsSeparator c ↔ isNameChar c = false := by
  rw [IsSeparator, isNameChar, Bool.and_eq_false_iff, bne_eq_false_iff_eq, bne_eq_false_iff_eq]

theorem length_eq_ok_iff_numeral {value token : Text} {n : Nat} :
    length value token = .ok n ↔ Numeral value n := by
  rw [length_eq_ok_iff, Text.isNumeric_iff]
  constructor
  · rintro ⟨⟨hne, hd⟩, hl, hpos, hv⟩
    exact ⟨hne, hd, hl, hv, hpos⟩
  · rintro ⟨hne, hd, hl, hv, hpos⟩
    exact ⟨⟨hne, hd⟩, hl, hpos, hv⟩

theorem map_length_eq_ok_iff {value token : Text} {g : Nat → Field} {f : Field} :
    (length value token).map g = .ok f ↔ ∃ n, Numeral value n ∧ f = g n := by
  rw [map_eq_ok]
  constructor
  · rintro ⟨n, hn, rfl⟩
    exact ⟨n, length_eq_ok_iff_numeral.mp hn, rfl⟩
  · rintro ⟨n, hn, rfl⟩
    exact ⟨n, length_eq_ok_iff_numeral.mpr hn, rfl⟩

theorem numeral_one : Numeral ['1'] 1 :=
  ⟨by simp, by simp, by simp [digitLimit], rfl, Nat.one_pos⟩

theorem split_eq_iff {body name value : Text} {separator? : Option Char} :
    split body = ⟨name, separator?, value⟩ ↔
      (∀ c ∈ name, isNameChar c = true) ∧
      ((separator? = none ∧ value = ['1'] ∧ body = name) ∨
        ∃ s, separator? = some s ∧ IsSeparator s ∧ body = name ++ s :: value) := by
  constructor
  · intro h
    have hcut := List.takeWhile_append_dropWhile (p := isNameChar) (l := body)
    have hstop := head?_dropWhile isNameChar body
    unfold split at h
    split at h
    · next hd =>
      obtain ⟨rfl, rfl, rfl⟩ := Parts.mk.inj h
      rw [hd, List.append_nil] at hcut
      exact ⟨fun c hc => List.mem_takeWhile_imp hc, Or.inl ⟨rfl, rfl, hcut.symm⟩⟩
    · next s value' hd =>
      obtain ⟨rfl, rfl, rfl⟩ := Parts.mk.inj h
      rw [hd] at hcut hstop
      refine ⟨fun c hc => List.mem_takeWhile_imp hc, Or.inr ⟨s, rfl, ?_, hcut.symm⟩⟩
      exact isSeparator_iff.mpr (hstop s rfl)
  · rintro ⟨hname, ⟨rfl, rfl, rfl⟩ | ⟨s, rfl, hs, rfl⟩⟩
    · unfold split
      rw [List.takeWhile_eq_self_iff.mpr hname, List.dropWhile_eq_nil_iff.mpr hname]
    · have hstop : ∀ c ∈ (s :: value).head?, isNameChar c = false := by
        intro c hc
        obtain rfl : s = c := Option.some.inj hc
        exact isSeparator_iff.mp hs
      unfold split
      rw [takeWhile_append_stop hname hstop, dropWhile_append_stop hname hstop]

/-- A name with a length, as it is split. -/
theorem exists_sized_iff {name : Name} {body : Text} {n : Nat} :
    (∃ w, body = name.text ++ w ∧ Sized w n) ↔
      ∃ separator? value, split body = ⟨name.text, separator?, value⟩ ∧ Numeral value n := by
  constructor
  · rintro ⟨w, rfl, hw⟩
    cases hw with
    | absent =>
      refine ⟨none, ['1'], split_eq_iff.mpr ⟨isNameChar_text name, Or.inl ⟨rfl, rfl, ?_⟩⟩,
        numeral_one⟩
      rw [List.append_nil]
    | @given separator v n hs hv =>
      exact ⟨some separator, v,
        split_eq_iff.mpr ⟨isNameChar_text name, Or.inr ⟨separator, rfl, hs, rfl⟩⟩, hv⟩
  · rintro ⟨separator?, value, hsplit, hv⟩
    obtain ⟨-, ⟨-, rfl, rfl⟩ | ⟨s, -, hs, rfl⟩⟩ := split_eq_iff.mp hsplit
    · refine ⟨[], (List.append_nil _).symm, ?_⟩
      obtain rfl : 1 = n := hv.value
      exact .absent
    · exact ⟨s :: value, rfl, .given hs hv⟩

theorem point_not_digit {v : Text} {n : Nat} (hv : Numeral v n) :
    ∀ c ∈ v, (c != '.') = true := by
  intro c hc
  exact bne_iff_ne.mpr (Text.Numeral.ne_of_isDigit (hv.digits c hc) (by decide))

theorem embedField_eq_ok_iff {value token : Text} {f : Field} :
    embedField value token = .ok f ↔
      (∃ n, Numeral value n ∧ f = .embed n) ∨
      ∃ v w n m, value = v ++ '.' :: w ∧ Numeral v n ∧ Numeral w m ∧ f = .embedDecimal n m := by
  constructor
  · intro h
    have hcut := List.takeWhile_append_dropWhile (p := (· != '.')) (l := value)
    have hstop := head?_dropWhile (· != '.') value
    unfold embedField at h
    split at h
    · exact Or.inl (map_length_eq_ok_iff.mp h)
    · next point fraction hd =>
      rw [hd] at hcut hstop
      obtain rfl : point = '.' := by simpa using hstop point rfl
      split at h
      · cases h
      · obtain ⟨n, hn, h⟩ := bind_eq_ok.mp h
        obtain ⟨m, hm, h⟩ := bind_eq_ok.mp h
        exact Or.inr ⟨_, _, n, m, hcut.symm, length_eq_ok_iff_numeral.mp hn,
          length_eq_ok_iff_numeral.mp hm, (Except.ok.inj h).symm⟩
  · rintro (⟨n, hv, rfl⟩ | ⟨v, w, n, m, rfl, hv, hw, rfl⟩)
    · unfold embedField
      rw [List.dropWhile_eq_nil_iff.mpr (point_not_digit hv)]
      exact map_length_eq_ok_iff.mpr ⟨n, hv, rfl⟩
    · have hstop : ∀ c ∈ ('.' :: w).head?, (c != '.') = false := by simp
      have hw' : w.contains '.' = false := by
        rw [List.contains_eq_mem, decide_eq_false_iff_not]
        intro hm
        exact absurd (point_not_digit hw _ hm) (by decide)
      unfold embedField
      rw [dropWhile_append_stop (point_not_digit hv) hstop]
      simp only
      rw [hw', if_neg (by decide), takeWhile_append_stop (point_not_digit hv) hstop, bind_eq_ok]
      exact ⟨n, length_eq_ok_iff_numeral.mpr hv,
        bind_eq_ok.mpr ⟨m, length_eq_ok_iff_numeral.mpr hw, rfl⟩⟩

/-- Without the sign of equality the value of a code names a kind or is a length. -/
theorem codeField_eq_ok_iff {separator? : Option Char} (hs : separator? ≠ some '=')
    {value token : Text} {f : Field} :
    codeField separator? value token = .ok f ↔
      ∃ shape, CodeValue value shape ∧ f = .code shape := by
  unfold codeField
  rw [if_neg hs]
  constructor
  · intro h
    split at h
    · obtain rfl := Except.ok.inj h
      exact ⟨_, @CodeValue.named .any (by decide), rfl⟩
    · obtain rfl := Except.ok.inj h
      exact ⟨_, @CodeValue.named .ean8 (by decide), rfl⟩
    · obtain rfl := Except.ok.inj h
      exact ⟨_, @CodeValue.named .ean13 (by decide), rfl⟩
    · obtain rfl := Except.ok.inj h
      exact ⟨_, @CodeValue.named .ean14 (by decide), rfl⟩
    · obtain ⟨n, hn, rfl⟩ := map_length_eq_ok_iff.mp h
      exact ⟨_, .sized hn, rfl⟩
  · rintro ⟨shape, hv, rfl⟩
    cases hv with
    | @named kind hk =>
      simp only [List.mem_cons, List.not_mem_nil, or_false] at hk
      rcases hk with rfl | rfl | rfl | rfl <;> rfl
    | @sized v n hv =>
      split
      · exact absurd (hv.digits '*' (by simp)) (by decide)
      · exact absurd (hv.digits 'e' (by simp)) (by decide)
      · exact absurd (hv.digits 'e' (by simp)) (by decide)
      · exact absurd (hv.digits 'e' (by simp)) (by decide)
      · exact map_length_eq_ok_iff.mpr ⟨n, hv, rfl⟩

theorem skipField_eq_ok_iff {value token : Text} {f : Field} :
    skipField value token = .ok f ↔
      (value = ['*'] ∧ f = .skip none) ∨ ∃ n, Numeral value n ∧ f = .skip (some n) := by
  unfold skipField
  by_cases hv : value = ['*']
  · rw [if_pos hv]
    constructor
    · intro h
      exact Or.inl ⟨hv, (Except.ok.inj h).symm⟩
    · rintro (⟨-, rfl⟩ | ⟨n, hn, -⟩)
      · rfl
      · exact absurd (hn.digits '*' (by simp [hv])) (by decide)
  · rw [if_neg hv, map_length_eq_ok_iff]
    constructor
    · exact Or.inr
    · rintro (⟨h, -⟩ | h)
      · exact absurd h hv
      · exact h

/-! ## Bodies -/

theorem inner_bracketed (body : Text) : inner (Field.bracketed body) = body := by
  rw [inner, Field.bracketed, List.cons_append, List.tail_cons, List.dropLast_concat]

/-- The field of a name with a separator and a value. -/
def namedField (name : Name) (separator? : Option Char) (value token : Text) :
    Except Fault Field :=
  match name with
  | .code => codeField separator? value token
  | .embed => embedField value token
  | .embedHundreds => (length value token).map .embedHundreds
  | .price => (length value token).map .price
  | .skip => skipField value token
  | .payloadCheck => (length value token).map fun _ => .payloadCheck
  | .eanCheck => (length value token).map fun _ => .eanCheck

theorem bracketedField_eq_ok_iff {body : Text} {f : Field} :
    bracketedField (Field.bracketed body) = .ok f ↔
      ∃ name separator? value, split body = ⟨name.text, separator?, value⟩ ∧
        namedField name separator? value (Field.bracketed body) = .ok f := by
  unfold bracketedField
  rw [inner_bracketed]
  obtain ⟨t, separator?, value⟩ := split body
  simp only
  constructor
  · intro h
    cases hname : Name.ofText? t with
    | none =>
      rw [hname] at h
      cases h
    | some name =>
      rw [hname] at h
      rw [ofText?_eq_some_iff.mp hname]
      refine ⟨name, separator?, value, rfl, ?_⟩
      cases name <;> exact h
  · rintro ⟨name, separator?', value', hsplit, h⟩
    obtain ⟨rfl, rfl, rfl⟩ := Parts.mk.inj hsplit
    rw [ofText?_eq_some_iff.mpr rfl]
    cases name <;> exact h

/-- A body that is compiled is of the language. -/
theorem denotes_of_bracketedField {body : Text} {f : Field}
    (h : bracketedField (Field.bracketed body) = .ok f) : Denotes body f := by
  obtain ⟨name, separator?, value, hsplit, h⟩ := bracketedField_eq_ok_iff.mp h
  have hsized : ∀ {n}, Numeral value n → ∃ w, body = name.text ++ w ∧ Sized w n := fun hv =>
    exists_sized_iff.mpr ⟨separator?, value, hsplit, hv⟩
  cases name with
  | code =>
    obtain ⟨-, ⟨rfl, rfl, rfl⟩ | ⟨s, rfl, hs, rfl⟩⟩ := split_eq_iff.mp hsplit
    · obtain rfl := Except.ok.inj h
      exact .code
    · rcases hs with rfl | rfl
      · obtain ⟨shape, hv, rfl⟩ := (codeField_eq_ok_iff (by decide)).mp h
        exact .codeValue hv
      · obtain rfl := Except.ok.inj h
        exact .codeConstant value
  | embed =>
    obtain ⟨n, hn, rfl⟩ | ⟨v, w, n, m, rfl, hv, hw, rfl⟩ := embedField_eq_ok_iff.mp h
    · obtain ⟨w, rfl, hw⟩ := hsized hn
      exact .embed hw
    · obtain ⟨-, ⟨-, hone, -⟩ | ⟨s, -, hs, rfl⟩⟩ := split_eq_iff.mp hsplit
      · have hpoint : '.' ∈ ['1'] := by rw [← hone]; simp
        exact absurd hpoint (by simp)
      · exact .embedDecimal hs hv hw
  | skip =>
    obtain ⟨rfl, rfl⟩ | ⟨n, hn, rfl⟩ := skipField_eq_ok_iff.mp h
    · obtain ⟨-, ⟨-, hone, -⟩ | ⟨s, -, hs, rfl⟩⟩ := split_eq_iff.mp hsplit
      · exact absurd hone (by simp)
      · exact .skipAll hs
    · obtain ⟨w, rfl, hw⟩ := hsized hn
      exact .skip hw
  | embedHundreds =>
    obtain ⟨n, hn, rfl⟩ := map_length_eq_ok_iff.mp h
    obtain ⟨w, rfl, hw⟩ := hsized hn
    exact .embedHundreds hw
  | price =>
    obtain ⟨n, hn, rfl⟩ := map_length_eq_ok_iff.mp h
    obtain ⟨w, rfl, hw⟩ := hsized hn
    exact .price hw
  | payloadCheck =>
    obtain ⟨n, hn, rfl⟩ := map_length_eq_ok_iff.mp h
    obtain ⟨w, rfl, hw⟩ := hsized hn
    exact .payloadCheck hw
  | eanCheck =>
    obtain ⟨n, hn, rfl⟩ := map_length_eq_ok_iff.mp h
    obtain ⟨w, rfl, hw⟩ := hsized hn
    exact .eanCheck hw

/-- A name is split from the value behind a separator. -/
theorem split_name (name : Name) {s : Char} (hs : IsSeparator s) (value : Text) :
    split (name.text ++ s :: value) = ⟨name.text, some s, value⟩ :=
  split_eq_iff.mpr ⟨isNameChar_text name, Or.inr ⟨s, rfl, hs, rfl⟩⟩

/-- A body of the language is compiled to the field that it denotes. -/
theorem bracketedField_of_denotes {body : Text} {f : Field} (h : Denotes body f) :
    bracketedField (Field.bracketed body) = .ok f := by
  rw [bracketedField_eq_ok_iff]
  have hsized : ∀ (name : Name) {w : Text} {n : Nat}, Sized w n → ∃ separator? value,
      split (name.text ++ w) = ⟨name.text, separator?, value⟩ ∧ Numeral value n :=
    fun name w n hw => exists_sized_iff.mp ⟨w, rfl, hw⟩
  cases h with
  | code =>
    exact ⟨.code, none, ['1'],
      split_eq_iff.mpr ⟨isNameChar_text .code, Or.inl ⟨rfl, rfl, rfl⟩⟩,
      (codeField_eq_ok_iff (by decide)).mpr ⟨_, .sized numeral_one, rfl⟩⟩
  | @codeValue v shape hv =>
    exact ⟨.code, some ':', v, split_name .code (Or.inl rfl) v,
      (codeField_eq_ok_iff (by decide)).mpr ⟨shape, hv, rfl⟩⟩
  | codeConstant v => exact ⟨.code, some '=', v, split_name .code (Or.inr rfl) v, rfl⟩
  | embed hw =>
    obtain ⟨separator?, value, hsplit, hv⟩ := hsized .embed hw
    exact ⟨.embed, separator?, value, hsplit, embedField_eq_ok_iff.mpr (Or.inl ⟨_, hv, rfl⟩)⟩
  | embedDecimal hs hv hw =>
    exact ⟨.embed, _, _, split_name .embed hs _,
      embedField_eq_ok_iff.mpr (Or.inr ⟨_, _, _, _, rfl, hv, hw, rfl⟩)⟩
  | embedHundreds hw =>
    obtain ⟨separator?, value, hsplit, hv⟩ := hsized .embedHundreds hw
    exact ⟨.embedHundreds, separator?, value, hsplit, map_length_eq_ok_iff.mpr ⟨_, hv, rfl⟩⟩
  | price hw =>
    obtain ⟨separator?, value, hsplit, hv⟩ := hsized .price hw
    exact ⟨.price, separator?, value, hsplit, map_length_eq_ok_iff.mpr ⟨_, hv, rfl⟩⟩
  | skip hw =>
    obtain ⟨separator?, value, hsplit, hv⟩ := hsized .skip hw
    exact ⟨.skip, separator?, value, hsplit, skipField_eq_ok_iff.mpr (Or.inr ⟨_, hv, rfl⟩)⟩
  | skipAll hs =>
    exact ⟨.skip, _, _, split_name .skip hs _, skipField_eq_ok_iff.mpr (Or.inl ⟨rfl, rfl⟩)⟩
  | payloadCheck hw =>
    obtain ⟨separator?, value, hsplit, hv⟩ := hsized .payloadCheck hw
    exact ⟨.payloadCheck, separator?, value, hsplit, map_length_eq_ok_iff.mpr ⟨_, hv, rfl⟩⟩
  | eanCheck hw =>
    obtain ⟨separator?, value, hsplit, hv⟩ := hsized .eanCheck hw
    exact ⟨.eanCheck, separator?, value, hsplit, map_length_eq_ok_iff.mpr ⟨_, hv, rfl⟩⟩

end Grammar

namespace Piece

/-- A literal denotes itself, and a body what the language says. -/
def Denotes : Piece → Field → Prop
  | .literal text, f => f = .literal text
  | .braced body, f => Grammar.Denotes body f

/-- A piece is compiled to the field that it denotes, wherever it stands. -/
theorem field_eq_ok_iff {p : Piece} {f : Field} (position : Nat) :
    Grammar.field ⟨p.text, !p.isLiteral, position⟩ = .ok f ↔ p.Denotes f := by
  cases p with
  | literal text =>
    constructor
    · intro h
      exact (Except.ok.inj h).symm
    · rintro rfl
      rfl
  | braced body =>
    exact ⟨Grammar.denotes_of_bracketedField, Grammar.bracketedField_of_denotes⟩

theorem forall₂_field_iff {ps : List Piece} {fields : List Field} (position : Nat) :
    List.Forall₂ (fun token f => Grammar.field token = .ok f) (tokens position ps) fields ↔
      List.Forall₂ Denotes ps fields := by
  induction ps generalizing position fields with
  | nil => rw [tokens, List.forall₂_nil_left_iff, List.forall₂_nil_left_iff]
  | cons p ps ih =>
    rw [tokens, List.forall₂_cons_left_iff, List.forall₂_cons_left_iff]
    simp only [field_eq_ok_iff, ih]

theorem denotes_unique {p : Piece} {f g : Field} (hf : p.Denotes f) (hg : p.Denotes g) : f = g := by
  have hf := (field_eq_ok_iff 0).mpr hf
  have hg := (field_eq_ok_iff 0).mpr hg
  exact Except.ok.inj (hf.symm.trans hg)

end Piece

namespace Grammar

/-- A text is compiled to the fields that its pieces denote. -/
theorem compile_eq_ok_iff_pieces {s : Text} {fields : List Field} :
    compile s = .ok fields ↔
      ∃ ps, Divides s ps ∧ List.Forall₂ Piece.Denotes ps fields ∧ Lawful fields := by
  rw [compile_eq_ok_iff, Piece.scan_error?_eq_none_iff]
  constructor
  · rintro ⟨⟨ps, hps⟩, hf, hl⟩
    rw [Token.scan, hps.scanFrom, Piece.forall₂_field_iff] at hf
    exact ⟨ps, hps, hf, hl⟩
  · rintro ⟨ps, hps, hf, hl⟩
    refine ⟨⟨ps, hps⟩, ?_, hl⟩
    rw [Token.scan, hps.scanFrom, Piece.forall₂_field_iff]
    exact hf

/-- **The grammar compiles exactly the documented language.** A text is compiled to the fields
that its pieces denote when the fields obey the rules on the whole, and not at all otherwise. A
text is made of pieces in one way only, and a piece denotes one field only. -/
theorem compile_eq_ok_iff_denotes (s : Text) :
    (∀ fields, compile s = .ok fields ↔
      ∃ ps, Divides s ps ∧ List.Forall₂ Piece.Denotes ps fields ∧ Lawful fields) ∧
    (∀ ps ps', Divides s ps → Divides s ps' → ps = ps') ∧
    ∀ (p : Piece) (f g : Field), p.Denotes f → p.Denotes g → f = g :=
  ⟨fun _ => compile_eq_ok_iff_pieces, fun _ _ => Divides.unique, fun _ _ _ =>
    Piece.denotes_unique⟩

end Grammar

end Barcode

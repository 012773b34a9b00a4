import Barcode.Proofs.Ean.Validity
import Barcode.Proofs.Template.Feasible

/-!
# The flaws that a reading can have

Reading a code along a compiled template takes none of the branches that guard against templates
that break the grammar. Every field has a slice, every digit that is read is an ASCII digit, and
there is a payload of five digits wherever one is checked. So the flaws that a reading can have are
those of `Mistaken`: a code field that holds no article number, and wrong check digits.
-/

namespace Barcode

open Sequence
open Grammar (Lawful)
open Text (isDigits isDigits_iff isNumeric isNumeric_iff)
open Ean (Complete)

/-- A field whose slice is read as a number. -/
def Field.isNumeral : Field → Bool
  | .embed _ | .embedHundreds _ | .embedDecimal _ _ | .price _ | .payloadCheck | .eanCheck => true
  | _ => false

namespace Reading

/-- What can be wrong with the slice of a field. -/
inductive Mistaken (r : Reading) : Field → Text → Flaw → Prop
  | ean {shape : CodeShape} {e : Ean.Encoding} {s : Text} (he : shape.kind.encoding? = some e)
    (hs : ¬ Complete s) : Mistaken r (.code shape) s (.ean (Ean.validate s (some e)).defects)
  | payloadCheck {payload s : Text} {d : Nat} (hp : r.checkedPayload? = some payload)
    (hd : Ean.payloadCheck payload = .ok d) (hs : s ≠ Text.ofNat d) :
    Mistaken r .payloadCheck s (.payloadCheck d s)
  | notEan {s : Text} (hc : Ean.parse? r.code = none) : Mistaken r .eanCheck s .notEan
  | checkDigit {s : Text} {ean : Ean.Code} (hc : Ean.parse? r.code = some ean)
    (hs : Text.toNat s ≠ ean.checkDigit) : Mistaken r .eanCheck s (.checkDigit ean.checkDigit s)

/-- Whatever is read as a number, as a whole or digit by digit, is made of ASCII digits. -/
structure Legible (r : Reading) : Prop where
  numeral : ∀ f s, (f, s) ∈ r.entries → f.isNumeral = true → isNumeric s = true
  payload : .payloadCheck ∈ r.entries.map Prod.fst →
    ∃ payload digits, r.checkedPayload? = some payload ∧
      payload.mapM (fun d => Text.Numeral.read [d]) = .ok digits ∧ digits.length = 5 ∧
      ∀ d ∈ digits, 0 ≤ d ∧ d ≤ 9
  article : ∀ shape s e, (.code shape, s) ∈ r.entries →
    (Ean.validate s (some e)).checkDigits? ≠ none → isNumeric s = true
  ean : ∀ code, Ean.parse? r.code = some code → isNumeric r.code = true ∧ isNumeric code.text = true

variable {r : Reading} {f : Field} {s : Text} {flaw : Flaw} {found : List (Field × Flaw)}

theorem Mistaken.not_guard (h : r.Mistaken f s flaw) : flaw ≠ .noPayload ∧
    (∀ m n, flaw ≠ .codeLength m n) ∧ ∀ k, flaw ≠ .constant k := by
  cases h <;> simp

/-- The flaws of a reading are those of its entries. -/
theorem mem_flaws_iff (hf : r.flaws = .ok found) : (f, flaw) ∈ found ↔
    ∃ s, (f, s) ∈ r.entries ∧ r.flaw? (f, s) = .ok (some flaw) := by
  obtain ⟨options, hm, hr⟩ := bind_eq_ok.mp hf
  obtain rfl : options.reduceOption = found := Except.ok.inj hr
  have hall := mapM_eq_ok.mp hm
  rw [List.reduceOption_mem_iff]
  constructor
  · intro h
    obtain ⟨⟨g, s⟩, he, h⟩ := exists_of_mem_right hall h
    obtain ⟨flaw?, hflaw, h⟩ := bind_eq_ok.mp h
    obtain ⟨flaw', rfl, hpair⟩ := Option.map_eq_some_iff.mp (Except.ok.inj h)
    obtain ⟨rfl, rfl⟩ := Prod.mk.inj hpair
    exact ⟨s, he, hflaw⟩
  · intro h
    obtain ⟨s, he, hflaw⟩ := h
    obtain ⟨option, hm, h⟩ := exists_of_mem_left hall he
    rw [hflaw] at h
    obtain rfl := Except.ok.inj h
    exact hm

/-! ## Code fields -/

theorem mistaken_code_iff {shape : CodeShape} : r.Mistaken (.code shape) s flaw ↔
    ∃ e, shape.kind.encoding? = some e ∧ ¬ Complete s ∧
      flaw = .ean (Ean.validate s (some e)).defects := by
  constructor
  · intro h
    cases h with
    | ean he hs => exact ⟨_, he, hs, rfl⟩
  · rintro ⟨e, he, hs, rfl⟩
    exact .ean he hs

theorem length_of_encoding? {shape : CodeShape} {e : Ean.Encoding}
    (he : shape.kind.encoding? = some e) (hs : (Field.code shape).admits s = true) :
    s.length = e.length := by
  obtain ⟨kind, size, constant⟩ := shape
  cases kind with
  | ean8 | ean13 | ean14 =>
    obtain rfl := Option.some.inj he
    exact of_decide_eq_true hs
  | fixed | any | constant => cases he

/-- The length of a slice and the text of a constant are right once the field admits the slice. -/
theorem codeFlaw?_eq_none_of_encoding? {shape : CodeShape} (he : shape.kind.encoding? = none)
    (hs : (Field.code shape).admits s = true) : codeFlaw? shape s = none := by
  obtain ⟨kind, size, constant⟩ := shape
  cases kind with
  | ean8 | ean13 | ean14 => cases he
  | fixed =>
    have hl : s.length = size := of_decide_eq_true hs
    exact if_pos hl
  | any => rfl
  | constant =>
    have hc : s = constant := of_decide_eq_true hs
    exact if_pos hc

theorem codeFlaw?_eq_some_iff {shape : CodeShape} (hs : (Field.code shape).admits s = true) :
    codeFlaw? shape s = some flaw ↔ r.Mistaken (.code shape) s flaw := by
  rw [mistaken_code_iff]
  cases he : shape.kind.encoding? with
  | none => simp [codeFlaw?_eq_none_of_encoding? he hs]
  | some e =>
    have hvalid := Ean.validate_some_valid_iff (s := s) (e := e)
    rw [and_iff_left (length_of_encoding? he hs)] at hvalid
    rw [codeFlaw?, he]
    by_cases hc : Complete s
    · simp [hvalid.mpr hc, hc]
    · have hfalse : (Ean.validate s (some e)).valid = false := by
        rw [Bool.eq_false_iff]
        exact fun h => hc (hvalid.mp h)
      simp [hfalse, hc, eq_comm]

end Reading

namespace Template

variable {id text : Text} {t : Template} {c s : Text} {r : Reading} {f : Field} {flaw : Flaw}

/-! ## Check digits -/

theorem flaw?_payloadCheck_eq_some_iff (hl : Lawful t.fields) (hs : t.split? c = some r)
    (he : (.payloadCheck, s) ∈ r.entries) :
    r.flaw? (.payloadCheck, s) = .ok (some flaw) ↔ r.Mistaken .payloadCheck s flaw := by
  have hf : .payloadCheck ∈ t.fields := by
    rw [← fields_of_split? hs]
    exact List.mem_map_of_mem he
  obtain ⟨payload, hp, hp5⟩ := exists_checkedPayload hl hs hf
  obtain ⟨d, hd⟩ := Ean.exists_payloadCheck hp5
  have hflaw : r.flaw? (.payloadCheck, s) =
      .ok (if Text.ofNat d = s then none else some (.payloadCheck d s)) := by
    rw [Reading.flaw?, Reading.payloadFlaw?, hp]
    exact bind_eq_ok.mpr ⟨d, hd, rfl⟩
  rw [hflaw, Except.ok.injEq]
  constructor
  · intro h
    split at h
    · cases h
    · next hne =>
      obtain rfl := Option.some.inj h
      exact .payloadCheck hp hd (Ne.symm hne)
  · intro h
    cases h with
    | payloadCheck hp' hd' hne =>
      obtain rfl := Option.some.inj (hp.symm.trans hp')
      obtain rfl := Except.ok.inj (hd.symm.trans hd')
      exact if_neg (Ne.symm hne)

theorem flaw?_eanCheck_eq_some_iff (hs : t.split? c = some r) (he : (.eanCheck, s) ∈ r.entries) :
    r.flaw? (.eanCheck, s) = .ok (some flaw) ↔ r.Mistaken .eanCheck s flaw := by
  have hread : Text.Numeral.read s = .ok (Text.toNat s) :=
    Text.Numeral.read_isDigits (by decide) (by decide) (admits_of_split? hs he)
  cases hc : Ean.parse? r.code with
  | none =>
    rw [Reading.flaw?, Reading.eanFlaw?, hc, Except.ok.injEq]
    constructor
    · intro h
      obtain rfl := Option.some.inj h
      exact .notEan hc
    · intro h
      cases h with
      | notEan _ => rfl
      | checkDigit hc' _ => cases hc.symm.trans hc'
  | some ean =>
    have hflaw : r.flaw? (.eanCheck, s) = .ok (if (Text.toNat s : Int) = ean.checkDigit then none
        else some (.checkDigit ean.checkDigit s)) := by
      rw [Reading.flaw?, Reading.eanFlaw?, hc]
      exact bind_eq_ok.mpr ⟨_, hread, rfl⟩
    rw [hflaw, Except.ok.injEq]
    constructor
    · intro h
      split at h
      · cases h
      · next hne =>
        obtain rfl := Option.some.inj h
        exact .checkDigit hc fun hd => hne (congrArg Nat.cast hd)
    · intro h
      cases h with
      | notEan hc' => cases hc.symm.trans hc'
      | checkDigit hc' hne =>
        obtain rfl := Option.some.inj (hc.symm.trans hc')
        exact if_neg fun hd => hne (Int.natCast_inj.mp hd)

theorem flaw?_eq_some_iff (hl : Lawful t.fields) (hs : t.split? c = some r)
    (he : (f, s) ∈ r.entries) : r.flaw? (f, s) = .ok (some flaw) ↔ r.Mistaken f s flaw := by
  cases f with
  | code shape =>
    rw [Reading.flaw?, Except.ok.injEq]
    exact Reading.codeFlaw?_eq_some_iff (admits_of_split? hs he)
  | payloadCheck => exact flaw?_payloadCheck_eq_some_iff hl hs he
  | eanCheck => exact flaw?_eanCheck_eq_some_iff hs he
  | _ =>
    constructor
    · intro h
      cases h
    · intro h
      cases h

/-! ## Digits -/

theorem isNumeric_of_isNumeral (h : compile id text = .ok t) (hs : t.split? c = some r)
    (he : (f, s) ∈ r.entries) (hf : f.isNumeral = true) : isNumeric s = true := by
  have hadmit := admits_of_split? hs he
  have hmem : f ∈ t.fields := by
    rw [← fields_of_split? hs]
    exact List.mem_map_of_mem he
  have hsizes := sizes_pos_of_compile h f hmem
  cases f with
  | embed n | embedHundreds n | price n =>
    exact Ean.isNumeric_of_isDigits (hsizes n List.mem_cons_self) hadmit
  | embedDecimal i j =>
    exact Ean.isNumeric_of_isDigits (Nat.add_pos_left (hsizes i List.mem_cons_self) j) hadmit
  | payloadCheck | eanCheck => exact Ean.isNumeric_of_isDigits Nat.one_pos hadmit
  | literal _ | code _ | skip _ => cases hf

/-- The check digit of a payload is asked of five numbers from 0 to 9. -/
theorem exists_payloadDigits (hl : Lawful t.fields) (hs : t.split? c = some r)
    (hc : .payloadCheck ∈ t.fields) : ∃ payload digits, r.checkedPayload? = some payload ∧
      payload.mapM (fun d => Text.Numeral.read [d]) = .ok digits ∧ digits.length = 5 ∧
      ∀ d ∈ digits, 0 ≤ d ∧ d ≤ 9 := by
  obtain ⟨payload, hp, hp5⟩ := exists_checkedPayload hl hs hc
  obtain ⟨hlength, hd⟩ := isDigits_iff.mp hp5
  refine ⟨payload, _, hp, Ean.mapM_read_digits hd, by simpa using hlength, ?_⟩
  intro d hm
  obtain ⟨n, hn, rfl⟩ := List.mem_map.mp hm
  obtain ⟨x, hx, rfl⟩ := List.mem_map.mp hn
  have hlt := Text.digitValue_lt (hd x hx)
  omega

theorem legible_of_split? (h : compile id text = .ok t) (hs : t.split? c = some r) :
    r.Legible where
  numeral _ _ he hf := isNumeric_of_isNumeral h hs he hf
  payload hc := exists_payloadDigits (lawful_of_compile h) hs (fields_of_split? hs ▸ hc)
  article _ _ _ _ hd := Ean.isNumeric_of_checkDigits? hd
  ean code hc := by
    obtain ⟨e, hl, hn, -, rfl⟩ := Ean.parse?_eq_some_iff.mp hc
    exact ⟨hn, Ean.isNumeric_completed (Ean.isDigits_take hl hn)⟩

/-- **A reading reports mistakes in the code only.** Reading a code along a compiled template never
fails. When the pattern takes the code there is one slice for each field; what is reported are
exactly the mistakes of the slices, so the guards against a missing payload, a slice of the wrong
length and a wrong constant are never reached; and whatever is read as a number is made of ASCII
digits, five of them where the check digit of a payload is computed. -/
theorem reports_mistakes (h : compile id text = .ok t) (c : Text) :
    (∃ outcome, t.read c = .ok outcome) ∧
    ∀ v, Split.slices? t.fields c = some v →
      v.length = t.fields.length ∧
      ∃ r found, t.split? c = some r ∧ r.entries = t.fields.zip v ∧
        t.read c = .ok (if found.isEmpty then .accepted r else .rejected found) ∧
        r.flaws = .ok found ∧
        (∀ f flaw, (f, flaw) ∈ found ↔ ∃ s, (f, s) ∈ r.entries ∧ r.Mistaken f s flaw) ∧
        (∀ e ∈ found, e.2 ≠ .noPayload ∧ (∀ m n, e.2 ≠ .codeLength m n) ∧
          ∀ k, e.2 ≠ .constant k) ∧
        r.Legible := by
  have hl := lawful_of_compile h
  refine ⟨exists_outcome hl c, fun v hv => ?_⟩
  have hs : t.split? c = some ⟨t, t.fields.zip v⟩ := split?_eq_some_iff.mpr ⟨v, hv, rfl⟩
  obtain ⟨found, hf⟩ := exists_flaws hl hs
  have hread : t.read c =
      .ok (if found.isEmpty then .accepted ⟨t, t.fields.zip v⟩ else .rejected found) := by
    rw [read, hs]
    exact bind_eq_ok.mpr ⟨found, hf, rfl⟩
  have hmistaken : ∀ f flaw, (f, flaw) ∈ found ↔ ∃ s, (f, s) ∈ t.fields.zip v ∧
      (Reading.mk t (t.fields.zip v)).Mistaken f s flaw := by
    intro f flaw
    rw [Reading.mem_flaws_iff hf]
    exact exists_congr fun s => and_congr_right (flaw?_eq_some_iff hl hs)
  refine ⟨(Split.admitted_of_slices? hv).1.length_eq.symm, _, found, hs, rfl, hread, hf, hmistaken,
    ?_, legible_of_split? h hs⟩
  intro e he
  obtain ⟨s, -, hm⟩ := (hmistaken e.1 e.2).mp he
  exact hm.not_guard

/-- Five digits that count hundreds are the payload that is checked, although fewer plain digits
follow; both check digits are wrong. -/
theorem reports_mistakes_hundreds :
    ∃ t r, compile [] (Text.withBraces "[embed100:5][embed:3][i][ec]") = .ok t ∧
      t.split? "0007412300".toList = some r ∧
      t.read "0007412300".toList =
        .ok (.rejected [(.payloadCheck, .payloadCheck 3 ['0']), (.eanCheck, .notEan)]) ∧
      r.Mistaken .payloadCheck ['0'] (.payloadCheck 3 ['0']) ∧ r.Mistaken .eanCheck ['0'] .notEan ∧
      r.Legible := by
  let t : Template := ⟨[], Text.withBraces "[embed100:5][embed:3][i][ec]",
    [.embedHundreds 5, .embed 3, .payloadCheck, .eanCheck]⟩
  have hc : compile [] t.text = .ok t := by cbv
  have hv : Split.slices? t.fields "0007412300".toList =
      some ["00074".toList, "123".toList, ['0'], ['0']] := rfl
  obtain ⟨-, hread⟩ := reports_mistakes hc "0007412300".toList
  obtain ⟨-, r, found, hs, he, hr, hf, hmistaken, -, hlegible⟩ := hread _ hv
  have hrejected : t.read "0007412300".toList =
      .ok (.rejected [(.payloadCheck, .payloadCheck 3 ['0']), (.eanCheck, .notEan)]) := by cbv
  obtain rfl : found = [(.payloadCheck, .payloadCheck 3 ['0']), (.eanCheck, .notEan)] := by
    have heq := Except.ok.inj (hr.symm.trans hrejected)
    split at heq
    · cases heq
    · exact Outcome.rejected.inj heq
  obtain ⟨s, hm, hpayload⟩ := (hmistaken .payloadCheck (.payloadCheck 3 ['0'])).mp (by simp)
  obtain rfl : s = ['0'] := by simpa [he, t] using hm
  obtain ⟨s, hm, hean⟩ := (hmistaken .eanCheck .notEan).mp (by simp)
  obtain rfl : s = ['0'] := by simpa [he, t] using hm
  exact ⟨t, r, hc, hs, hrejected, hpayload, hean, hlegible⟩

end Template

end Barcode

import Barcode.Proofs.Ean.Completion
import Barcode.Proofs.Template.Slices
import Barcode.Template.Reading

/-!
# When a code is accepted

A template accepts a code with the reading of its only split when no entry has a flaw. The
length that a template expects never turns away a code that has a split. The flaws of the three
kinds of checked fields are put as conditions on the slices.
-/

namespace Barcode

open Sequence

namespace Reading

/-- Every entry is checked without a fault, and none has a flaw. -/
def Sound (r : Reading) : Prop := ∀ e ∈ r.entries, r.flaw? e = .ok none

theorem flaws_eq_nil_iff {r : Reading} : r.flaws = .ok [] ↔ r.Sound := by
  unfold flaws Sound
  rw [bind_eq_ok]
  constructor
  · rintro ⟨found, hm, h⟩
    have hf := mapM_eq_ok.mp hm
    have hnone : ∀ x ∈ found, x = none := by
      have hr : found.reduceOption = [] := Except.ok.inj h
      intro x hx
      cases x with
      | none => rfl
      | some y =>
        have hy := (List.reduceOption_mem_iff).mpr hx
        rw [hr] at hy
        cases hy
    intro e he
    obtain ⟨x, hx, hex⟩ := exists_of_mem_left hf he
    obtain ⟨flaw?, hflaw, h⟩ := bind_eq_ok.mp hex
    have hmap : flaw?.map (fun flaw => (e.1, flaw)) = none :=
      (Except.ok.inj h).trans (hnone x hx)
    rw [hflaw, Option.map_eq_none_iff.mp hmap]
  · intro h
    refine ⟨r.entries.map fun _ => none, ?_, ?_⟩
    · rw [mapM_eq_ok, List.forall₂_map_right_iff, List.forall₂_same]
      intro e he
      exact bind_eq_ok.mpr ⟨none, h e he, rfl⟩
    · have hr : (r.entries.map fun _ => (none : Option (Field × Flaw))).reduceOption = [] := by
        rw [List.reduceOption_eq_nil_iff]
        exact ⟨_, List.map_const'⟩
      rw [hr]
      rfl

theorem code_zip {t : Template} {fields : List Field} {v : List Text}
    (hl : fields.length = v.length) : (Reading.mk t (fields.zip v)).code = v.flatten := by
  rw [code, List.flatMap_def, List.map_snd_zip hl.ge]

/-! ## Checked fields -/

theorem flaw?_code {r : Reading} {shape : CodeShape} {s : Text} :
    r.flaw? (.code shape, s) = .ok none ↔ codeFlaw? shape s = none := by
  rw [flaw?, Except.ok.injEq]

theorem flaw?_payloadCheck {r : Reading} {s : Text} :
    r.flaw? (.payloadCheck, s) = .ok none ↔
      ∃ payload d, r.checkedPayload? = some payload ∧ Ean.payloadCheck payload = .ok d ∧
        s = Text.ofNat d := by
  rw [flaw?, payloadFlaw?]
  cases hp : r.checkedPayload? with
  | none => simp
  | some payload =>
    simp only
    rw [bind_eq_ok]
    constructor
    · rintro ⟨d, hd, h⟩
      by_cases hs : Text.ofNat d = s
      · exact ⟨payload, d, rfl, hd, hs.symm⟩
      · rw [if_neg hs] at h
        cases h
    · rintro ⟨payload', d, he, hd, rfl⟩
      cases he
      exact ⟨d, hd, by rw [if_pos rfl]; rfl⟩

theorem flaw?_eanCheck {r : Reading} {s : Text} :
    r.flaw? (.eanCheck, s) = .ok none ↔
      ∃ ean, Ean.parse? r.code = some ean ∧ Text.Numeral.read s = .ok ean.checkDigit := by
  rw [flaw?, eanFlaw?]
  cases hp : Ean.parse? r.code with
  | none => simp
  | some ean =>
    simp only
    rw [bind_eq_ok]
    constructor
    · rintro ⟨d, hd, h⟩
      by_cases hs : d = ean.checkDigit
      · exact ⟨ean, rfl, by rw [hd, hs]⟩
      · rw [if_neg hs] at h
        cases h
    · rintro ⟨ean', he, hd⟩
      cases he
      exact ⟨_, hd, by rw [if_pos rfl]; rfl⟩

/-- The lookup code is the slice that all code fields have. -/
theorem lookupCode_of_entries {r : Reading} {s : Text} {shape : CodeShape}
    (hall : ∀ e ∈ r.entries, ∀ shape, e.1 = .code shape → e.2 = s)
    (hc : .code shape ∈ r.entries.map Prod.fst) : r.lookupCode = s := by
  obtain ⟨⟨f, y⟩, he, hf⟩ := List.mem_map.mp hc
  unfold lookupCode
  generalize hx : List.findSome? _ r.entries = found
  cases found with
  | none =>
    have hnone := List.findSome?_eq_none_iff.mp hx _ he
    obtain rfl : f = .code shape := hf
    cases hnone
  | some x =>
    obtain ⟨⟨g, z⟩, hm, hz⟩ := List.exists_of_findSome?_eq_some hx
    cases g with
    | code shape' =>
      obtain rfl := Option.some.inj hz
      exact hall _ hm shape' rfl
    | _ => cases hz

/-! ## The first integer payload -/

section Payload

variable {r : Reading} {before after : List (Field × Text)} {n : Nat} {p : Text}

/-- The first field for an integer payload is the one behind fields for none. -/
theorem find?_integerPayload {f : Field} (he : r.entries = before ++ (f, p) :: after)
    (hb : ∀ e ∈ before, e.1.integerPayload? = none) (hf : f.integerPayload? = some n) :
    r.entries.find? (fun e => e.1.integerPayload?.isSome) = some (f, p) := by
  rw [he, List.find?_append, List.find?_eq_none.mpr, Option.none_or, List.find?_cons, hf]
  · rfl
  · intro e hm
    rw [hb e hm]
    decide

theorem embeddedData_of_entries (he : r.entries = before ++ (.embed n, p) :: after)
    (hb : ∀ e ∈ before, e.1.integerPayload? = none) (hpos : 0 < n)
    (hn : n ≤ Text.Numeral.digitLimit) (hp : Text.isDigits n p = true) :
    r.embeddedData = .ok (some (Text.toNat p : Int)) := by
  unfold embeddedData
  rw [find?_integerPayload he hb rfl]
  simp only
  rw [Text.Numeral.read_isDigits hpos hn hp]
  rfl

theorem checkedPayload_of_entries {f : Field} (he : r.entries = before ++ (f, p) :: after)
    (hb : ∀ e ∈ before, e.1.integerPayload? = none) (hf : f.integerPayload? = some 5) :
    r.checkedPayload? = some p := by
  rw [checkedPayload?, he, List.findSome?_append, List.findSome?_eq_none_iff.mpr, Option.none_or,
    List.findSome?_cons, hf]
  · rfl
  · intro e hm
    rw [hb e hm]
    rfl

end Payload

/-- The check digit that completes a code is right. -/
theorem flaw?_of_completed {r : Reading} {body : Text} (hb : Text.isDigits 12 body = true)
    (hcode : r.code = Ean.completed body) :
    r.flaw? (.eanCheck, Text.ofNat (Ean.check body)) = .ok none := by
  rw [flaw?_eanCheck, hcode]
  refine ⟨_, Ean.parse?_completed (e := .ean13) hb, ?_⟩
  rw [Ean.checkDigit_completed, Text.Numeral.read_isDigits (by decide) (by decide)
    (Text.isDigits_ofNat_digit (Ean.check_lt body)), Text.toNat_ofNat]

/-- Entries without a check digit are checked by themselves. -/
theorem flaw?_of_ne {r r' : Reading} {e : Field × Text} (hp : e.1 ≠ .payloadCheck)
    (he : e.1 ≠ .eanCheck) : r.flaw? e = r'.flaw? e := by
  obtain ⟨f, s⟩ := e
  cases f with
  | payloadCheck => exact absurd rfl hp
  | eanCheck => exact absurd rfl he
  | _ => rfl

end Reading

namespace Template

variable {t : Template} {c : Text} {r : Reading}

theorem width_of_all_bounded {fields : List Field} (h : fields.any (·.width = 0) = false) :
    ∀ f ∈ fields, f.isUnbounded = false := by
  intro f hf
  rw [Bool.eq_false_iff]
  intro hu
  have hw := Field.width_of_isUnbounded hu
  have : fields.any (·.width = 0) = true := List.any_eq_true.mpr ⟨f, hf, by simpa using hw⟩
  rw [h] at this
  cases this

/-- The expected length is that of every code that has a split. -/
theorem length_eq_expectedLength {v : List Text} (hv : Split.slices? t.fields c = some v)
    (hne : t.expectedLength ≠ 0) : c.length = t.expectedLength := by
  obtain ⟨ha, rfl⟩ := Split.admitted_of_slices? hv
  unfold expectedLength at hne ⊢
  cases hz : t.fields.any (·.width = 0) with
  | true =>
    rw [hz] at hne
    exact absurd rfl hne
  | false => exact Split.length_flatten_admitted (width_of_all_bounded hz) ha

theorem split?_eq_some_iff :
    t.split? c = some r ↔
      ∃ v, Split.slices? t.fields c = some v ∧ r = ⟨t, t.fields.zip v⟩ := by
  unfold split?
  split
  · next hlen =>
    constructor
    · intro h
      cases h
    · rintro ⟨v, hv, -⟩
      exact absurd (length_eq_expectedLength hv hlen.1) hlen.2
  · rw [Option.map_eq_some_iff]
    simp only [eq_comm]

theorem read_eq_accepted_iff :
    t.read c = .ok (.accepted r) ↔ t.split? c = some r ∧ r.Sound := by
  rw [← Reading.flaws_eq_nil_iff]
  unfold read
  cases hs : t.split? c with
  | none =>
    constructor
    · intro h
      cases h
    · rintro ⟨h, -⟩
      cases h
  | some r' =>
    simp only
    rw [bind_eq_ok]
    constructor
    · rintro ⟨found, hf, h⟩
      cases found with
      | nil =>
        cases h
        exact ⟨rfl, hf⟩
      | cons flaw found => cases h
    · rintro ⟨he, hf⟩
      cases he
      exact ⟨[], hf, rfl⟩

/-! ## The reading of an accepted code -/

theorem admitted_of_split? (h : t.split? c = some r) :
    ∃ v, r = ⟨t, t.fields.zip v⟩ ∧ Split.Admitted t.fields v ∧ v.flatten = c := by
  obtain ⟨v, hv, rfl⟩ := split?_eq_some_iff.mp h
  obtain ⟨ha, hc⟩ := Split.admitted_of_slices? hv
  exact ⟨v, rfl, ha, hc⟩

theorem template_of_split? (h : t.split? c = some r) : r.template = t := by
  obtain ⟨v, rfl, -, -⟩ := admitted_of_split? h
  rfl

theorem code_of_split? (h : t.split? c = some r) : r.code = c := by
  obtain ⟨v, rfl, ha, rfl⟩ := admitted_of_split? h
  exact Reading.code_zip ha.length_eq

theorem fields_of_split? (h : t.split? c = some r) : r.entries.map Prod.fst = t.fields := by
  obtain ⟨v, rfl, ha, -⟩ := admitted_of_split? h
  exact List.map_fst_zip ha.length_eq.le

theorem admits_of_split? (h : t.split? c = some r) {e : Field × Text} (he : e ∈ r.entries) :
    e.1.admits e.2 = true := by
  obtain ⟨v, rfl, ha, -⟩ := admitted_of_split? h
  exact List.forall₂_zip ha he

end Template

end Barcode

import Barcode.Proofs.Template.Detection
import Barcode.Proofs.Template.Feasible

/-!
# Relaxed templates

A field is relaxed when it asks for no more than the width of its slice. A template with at most
one field of any number of characters splits a code in one way only, and so does the template with
relaxed fields, which is why a checked layout reads no code that its unchecked form does not read
with the same slices. The checks that are left must not lose what they look at: the check digit of a
payload needs the payload that it was checked with, and the check digit of the EAN needs the whole
code, which is the same.
-/

namespace Barcode

/-- The second field takes slices of the same width and asks for no more than the first. -/
inductive Field.Relaxes : Field → Field → Prop
  | kept (f : Field) : Relaxes f f
  | payloadCheck : Relaxes .payloadCheck (.skip (some 1))
  | eanCheck : Relaxes .eanCheck (.skip (some 1))
  | embed (size : Nat) : Relaxes (.embed size) (.skip (some size))
  | embedHundreds (size : Nat) : Relaxes (.embedHundreds size) (.skip (some size))
  | embedDecimal (integerDigits fractionDigits : Nat) :
    Relaxes (.embedDecimal integerDigits fractionDigits)
      (.skip (some (integerDigits + fractionDigits)))
  | price (size : Nat) : Relaxes (.price size) (.skip (some size))
  | ean8 : Relaxes (.code { kind := .ean8 }) (.code { kind := .fixed, size := 8 })
  | ean13 : Relaxes (.code { kind := .ean13 }) (.code { kind := .fixed, size := 13 })
  | ean14 : Relaxes (.code { kind := .ean14 }) (.code { kind := .fixed, size := 14 })

namespace Field

variable {f g : Field} {s : Text}

theorem Relaxes.isUnbounded_eq (h : f.Relaxes g) : g.isUnbounded = f.isUnbounded := by
  cases h <;> rfl

/-- A relaxed field admits what the field admits. -/
theorem Relaxes.admits (h : f.Relaxes g) (hs : f.admits s = true) : g.admits s = true := by
  cases h with
  | kept => exact hs
  | ean8 | ean13 | ean14 => exact hs
  | _ => exact decide_eq_true (Text.isDigits_iff.mp hs).1

/-- A field that takes no integer payload is not relaxed to one that does. -/
theorem Relaxes.integerPayload?_eq_none (h : f.Relaxes g) (hf : f.integerPayload? = none) :
    g.integerPayload? = none := by
  cases h with
  | kept => exact hf
  | _ => rfl

end Field

namespace Split

variable {fields fields' : List Field} {v : List Text}

theorem admitted_relaxed (h : List.Forall₂ Field.Relaxes fields fields')
    (hv : Admitted fields v) : Admitted fields' v := by
  induction h generalizing v with
  | nil => exact hv
  | cons hf _ ih =>
    obtain ⟨s, w, hs, hw, rfl⟩ := List.forall₂_cons_left_iff.mp hv
    exact .cons (hf.admits hs) (ih hw)

theorem countP_isUnbounded_relaxed (h : List.Forall₂ Field.Relaxes fields fields') :
    fields'.countP Field.isUnbounded = fields.countP Field.isUnbounded := by
  induction h with
  | nil => rfl
  | cons hf _ ih => rw [List.countP_cons, List.countP_cons, ih, hf.isUnbounded_eq]

/-- Without a choice of lengths, a code is split into the slices that its fields admit. -/
theorem slices?_of_admitted (hu : fields.countP Field.isUnbounded ≤ 1) (hv : Admitted fields v) :
    slices? fields v.flatten = some v :=
  slices?_eq_some_iff.mpr
    ⟨_, isGreatest_of_feasible hu (feasible_of_admitted hv), splitLengths_flatten v⟩

/-- Relaxed fields split a code as the fields do. -/
theorem slices?_relaxed {c : Text} (h : List.Forall₂ Field.Relaxes fields fields')
    (hu : fields.countP Field.isUnbounded ≤ 1) (hv : slices? fields c = some v) :
    slices? fields' c = some v := by
  obtain ⟨ha, rfl⟩ := admitted_of_slices? hv
  exact slices?_of_admitted (by rwa [countP_isUnbounded_relaxed h]) (admitted_relaxed h ha)

end Split

namespace Reading

variable {t t' : Template} {fields fields' : List Field} {v : List Text}

/-- Every slice of the relaxed fields is one of the fields as well. -/
theorem exists_strict (h : List.Forall₂ Field.Relaxes fields fields') {g : Field} {s : Text}
    (hg : (g, s) ∈ fields'.zip v) : ∃ f, f.Relaxes g ∧ (f, s) ∈ fields.zip v := by
  induction h generalizing v with
  | nil => cases hg
  | @cons f g' _ _ hf _ ih =>
    cases v with
    | nil => cases hg
    | cons s' v =>
      rw [List.zip_cons_cons, List.mem_cons] at hg
      rcases hg with he | hg
      · obtain ⟨rfl, rfl⟩ := Prod.mk.inj he
        exact ⟨f, hf, List.mem_cons_self⟩
      · obtain ⟨f', hf', hm⟩ := ih hg
        exact ⟨f', hf', List.mem_cons_of_mem _ hm⟩

/-- The payload that is checked is the same when the field that takes it is kept. -/
theorem checkedPayload?_relaxed (h : List.Forall₂ Field.Relaxes fields fields')
    (hkeep : ∀ k, fields.findIdx? Field.isIntegerPayload = some k → fields'[k]? = fields[k]?)
    (hfive : fields.findSome? Field.integerPayload? = some 5) (v : List Text) :
    (Reading.mk t' (fields'.zip v)).checkedPayload? =
      (Reading.mk t (fields.zip v)).checkedPayload? := by
  unfold checkedPayload?
  induction h generalizing v with
  | nil => rfl
  | @cons f g fields fields' hf _ ih =>
    cases v with
    | nil => rfl
    | cons s v =>
      simp only [List.zip_cons_cons, List.findSome?_cons]
      rw [List.findSome?_cons] at hfive
      cases hp : f.integerPayload? with
      | some n =>
        have hidx : (f :: fields).findIdx? Field.isIntegerPayload = some 0 := by
          rw [List.findIdx?_cons, Field.isIntegerPayload, hp]
          rfl
        obtain rfl : g = f := Option.some.inj (hkeep 0 hidx)
        rw [hp] at hfive
        obtain rfl : n = 5 := Option.some.inj hfive
        rw [hp]
        rfl
      | none =>
        rw [hp] at hfive
        rw [hf.integerPayload?_eq_none hp]
        refine ih (fun k hk => ?_) hfive v
        have hidx : (f :: fields).findIdx? Field.isIntegerPayload = some (k + 1) := by
          rw [List.findIdx?_cons, Field.isIntegerPayload, hp, hk]
          rfl
        exact hkeep (k + 1) hidx

/-- A relaxed field has no flaw where the field has none. -/
theorem flaw?_relaxed {r r' : Reading} {f g : Field} {s : Text} (h : f.Relaxes g)
    (hs : g.admits s = true) (hcode : r'.code = r.code)
    (hpayload : g = .payloadCheck → r'.checkedPayload? = r.checkedPayload?)
    (hf : r.flaw? (f, s) = .ok none) : r'.flaw? (g, s) = .ok none := by
  cases h with
  | kept =>
    by_cases hp : f = .payloadCheck
    · subst hp
      rw [flaw?_payloadCheck] at hf ⊢
      rwa [hpayload rfl]
    by_cases he : f = .eanCheck
    · subst he
      rw [flaw?_eanCheck] at hf ⊢
      rwa [hcode]
    have hsame : r'.flaw? (f, s) = r.flaw? (f, s) := flaw?_of_ne hp he
    rwa [hsame]
  | ean8 | ean13 | ean14 =>
    have hlength := of_decide_eq_true hs
    exact flaw?_code.mpr (if_pos hlength)
  | _ => rfl

end Reading

namespace Template

variable {id text : Text} {t t' : Template} {c : Text} {r : Reading}

/-- The fields of the second template are those of the first, some of them relaxed. The field of the
first integer payload is kept if a payload is still checked. -/
structure Relaxes (t t' : Template) : Prop where
  fields : List.Forall₂ Field.Relaxes t.fields t'.fields
  payload : .payloadCheck ∈ t'.fields →
    ∀ k, t.fields.findIdx? Field.isIntegerPayload = some k → t'.fields[k]? = t.fields[k]?

/-- Only a check of a payload becomes one. -/
theorem Relaxes.payloadCheck_mem (h : t.Relaxes t') (hc : .payloadCheck ∈ t'.fields) :
    .payloadCheck ∈ t.fields := by
  obtain ⟨f, hf, hr⟩ := Sequence.exists_of_mem_right h.fields hc
  cases hr
  exact hf

/-- **Relaxing fields only widens a template.** A code that is read along a template with at most
one field of any number of characters is read along the relaxed template, field by field with the
same slices. -/
theorem read_relaxed (h : compile id text = .ok t)
    (hu : t.fields.countP Field.isUnbounded ≤ 1) (hrelax : t.Relaxes t')
    (hr : t.read c = .ok (.accepted r)) :
    ∃ r', t'.read c = .ok (.accepted r') ∧ r'.entries.map Prod.fst = t'.fields ∧
      r'.entries.map Prod.snd = r.entries.map Prod.snd := by
  obtain ⟨hs, hsound⟩ := read_eq_accepted_iff.mp hr
  obtain ⟨v, hv, rfl⟩ := split?_eq_some_iff.mp hs
  have hv' := Split.slices?_relaxed hrelax.fields hu hv
  have hs' : t'.split? c = some ⟨t', t'.fields.zip v⟩ := split?_eq_some_iff.mpr ⟨v, hv', rfl⟩
  refine ⟨⟨t', t'.fields.zip v⟩, read_eq_accepted_iff.mpr ⟨hs', ?_⟩, fields_of_split? hs', ?_⟩
  · rintro ⟨g, s⟩ hg
    obtain ⟨f, hf, hm⟩ := Reading.exists_strict hrelax.fields hg
    refine Reading.flaw?_relaxed hf (admits_of_split? hs' hg) ?_ ?_ (hsound _ hm)
    · rw [code_of_split? hs, code_of_split? hs']
    · rintro rfl
      have hc : .payloadCheck ∈ t'.fields :=
        fields_of_split? hs' ▸ List.mem_map_of_mem (f := Prod.fst) hg
      have hfive := (lawful_of_compile h).payload (hrelax.payloadCheck_mem hc)
      exact Reading.checkedPayload?_relaxed hrelax.fields (hrelax.payload hc) hfive v
  · have hlength := (Split.admitted_of_slices? hv).1.length_eq
    have hlength' := (Split.admitted_of_slices? hv').1.length_eq
    rw [List.map_snd_zip hlength.ge, List.map_snd_zip hlength'.ge]

/-- A checked article number, a payload with its check digit, a price and anything behind it. -/
def checkedArticle : Template :=
  ⟨[], Text.withBraces "[code:ean8][i][embed:5][price:2][_:*]",
    [.code { kind := .ean8 }, .payloadCheck, .embed 5, .price 2, .skip none]⟩

/-- The same layout, in which only the payload is checked. -/
def uncheckedArticle : Template :=
  ⟨[], Text.withBraces "[code:8][i][embed:5][_:2][_:*]",
    [.code { kind := .fixed, size := 8 }, .payloadCheck, .embed 5, .skip (some 2), .skip none]⟩

theorem read_relaxed_article :
    compile [] checkedArticle.text = .ok checkedArticle ∧
      compile [] uncheckedArticle.text = .ok uncheckedArticle ∧
      checkedArticle.fields.countP Field.isUnbounded ≤ 1 ∧
      checkedArticle.Relaxes uncheckedArticle ∧
      ∃ r, checkedArticle.read "2957781130007405xyz".toList = .ok (.accepted r) ∧
        ∃ r', uncheckedArticle.read "2957781130007405xyz".toList = .ok (.accepted r') ∧
          r'.entries.map Prod.fst = uncheckedArticle.fields ∧
          r'.entries.map Prod.snd = r.entries.map Prod.snd := by
  have hcompile : compile [] checkedArticle.text = .ok checkedArticle := by cbv
  have hcompile' : compile [] uncheckedArticle.text = .ok uncheckedArticle := by cbv
  have hu : checkedArticle.fields.countP Field.isUnbounded ≤ 1 := by decide
  have hrelax : checkedArticle.Relaxes uncheckedArticle := by
    constructor
    · exact .cons .ean8 (.cons (.kept .payloadCheck) (.cons (.kept (.embed 5))
        (.cons (.price 2) (.cons (.kept (.skip none)) .nil))))
    · intro _ k hk
      obtain rfl : 2 = k := Option.some.inj hk
      rfl
  have hread : checkedArticle.read "2957781130007405xyz".toList = .ok (.accepted ⟨checkedArticle,
      [(.code { kind := .ean8 }, "29577811".toList), (.payloadCheck, "3".toList),
        (.embed 5, "00074".toList), (.price 2, "05".toList), (.skip none, "xyz".toList)]⟩) := by
    cbv
  exact ⟨hcompile, hcompile', hu, hrelax, _, hread, read_relaxed hcompile hu hrelax hread⟩

end Template

end Barcode

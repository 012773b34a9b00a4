import Barcode.Proofs.Embedding.Failure
import Barcode.Proofs.Registry.Outcome

/-!
# When a registry fails

Whatever its history, a registry answers with a value or with none. It fails on integers that
have too many digits to be written or read, and embedding fails in the templates whose payload
has no check digit although they ask for one. No other input makes it fail.
-/

namespace Barcode

open Document (Value)
open Sequence
open Text.Numeral (Writable digitLimit)

/-- The members from which a code to send onward is built are texts, or null. -/
structure Override.Textual (o : Override) : Prop where
  template : o.transmissionTemplate = .null ∨ ∃ id, o.transmissionTemplate = .text id
  code : o.transmissionCode = .null ∨ ∃ s, o.transmissionCode = .text s

namespace Registry

variable {registry : Registry} {project code id s : Text} {data : Int} {data? : Option Int}
  {o : Override} {r : Reading} {overrides? : Option (List Override)}

/-! ## Sending a code onward -/

/-- An override has a short code and a stored template to build a code from. -/
def Builds (registry : Registry) (project : Text) (o : Override) : Prop :=
  ∃ id s, o.transmissionTemplate = .text id ∧ o.transmissionCode = .text s ∧
    registry.find? id (some project) ≠ none

theorem transmission_of_null (h : o.transmissionTemplate = .null ∨ o.transmissionCode = .null) :
    registry.transmission o project data? = .ok o.transmissionCode := by
  have hnull : (o.transmissionTemplate.isNull || o.transmissionCode.isNull) = true := by
    rcases h with h | h <;> simp [h, Value.isNull]
  cases data? with
  | none => rfl
  | some data => simp only [transmission, if_pos hnull]

theorem not_builds_of_null (h : o.transmissionTemplate = .null ∨ o.transmissionCode = .null) :
    ¬ registry.Builds project o := by
  intro hb
  obtain ⟨id, s, hid, hs, -⟩ := hb
  rcases h with h | h
  · exact Value.noConfusion (h.symm.trans hid)
  · exact Value.noConfusion (h.symm.trans hs)

theorem transmission_of_text (hid : o.transmissionTemplate = .text id)
    (hs : o.transmissionCode = .text s) :
    registry.transmission o project (some data) =
      (registry.synthesize (.text id) (.text s) data (some project)).outcome.map Value.ofText? := by
  have hnull : ¬ (o.transmissionTemplate.isNull || o.transmissionCode.isNull) = true := by
    simp [hid, hs, Value.isNull]
  simp only [transmission, if_neg hnull]
  rw [hid, hs]

theorem builds_iff_of_text (hid : o.transmissionTemplate = .text id)
    (hs : o.transmissionCode = .text s) :
    registry.Builds project o ↔ registry.find? id (some project) ≠ none := by
  constructor
  · intro h
    obtain ⟨id', s', hid', -, hfound⟩ := h
    rw [hid, Value.text.injEq] at hid'
    rwa [hid']
  · exact fun h => ⟨id, s, hid, hs, h⟩

/-- What is sent onward is there, unless a code has to be built with a payload that cannot be
written. -/
theorem exists_transmission_iff (ho : o.Textual) :
    (∃ sent, registry.transmission o project data? = .ok sent) ↔
      (registry.Builds project o → ∀ data, data? = some data → Writable data) := by
  by_cases hnull : o.transmissionTemplate = .null ∨ o.transmissionCode = .null
  · exact iff_of_true ⟨_, transmission_of_null hnull⟩ fun h => absurd h (not_builds_of_null hnull)
  obtain ⟨id, hid⟩ := ho.template.resolve_left fun h => hnull (Or.inl h)
  obtain ⟨s, hs⟩ := ho.code.resolve_left fun h => hnull (Or.inr h)
  cases data? with
  | none => exact iff_of_true ⟨_, rfl⟩ (fun _ data h => nomatch h)
  | some data =>
    rw [transmission_of_text hid hs, builds_iff_of_text hid hs]
    simp only [Option.some.injEq, forall_eq']
    rw [← exists_outcome_synthesize_iff id s]
    cases (registry.synthesize (.text id) (.text s) data (some project)).outcome <;>
      simp [Except.map]

/-! ## Looking an override up -/

theorem exists_applyOverride_iff (ho : o.Textual) :
    (∃ l, (registry.applyOverride r o project).outcome = .ok l) ↔
      (∃ data?, r.embeddedData = .ok data?) ∧
        (registry.Builds project o → ∀ data, r.embeddedData = .ok (some data) →
          Writable data) := by
  constructor
  · intro h
    obtain ⟨l, hl⟩ := h
    obtain ⟨hdata, hsent, -⟩ := applyOverride_eq_ok.mp hl
    refine ⟨⟨_, hdata⟩, ?_⟩
    intro hb data hsome
    rw [hdata, Except.ok.injEq] at hsome
    exact (exists_transmission_iff ho).mp ⟨_, hsent⟩ hb data hsome
  · intro h
    obtain ⟨⟨data?, hdata⟩, hwrite⟩ := h
    rw [hdata] at hwrite
    simp only [Except.ok.injEq] at hwrite
    obtain ⟨sent, hsent⟩ := (exists_transmission_iff ho).mpr hwrite
    exact ⟨⟨r.lookupCode, o.lookupTemplate, sent, data?⟩,
      applyOverride_eq_ok.mpr ⟨hdata, hsent, rfl, rfl⟩⟩

/-- The override that applies is looked up unless its payload is too wide to be read, or too
long to be written into a code. -/
theorem exists_lookupOverride_iff (hs : registry.Compiled)
    (ho : ∀ o r, registry.winner? project code (overrides?.getD []) = some (o, r) → o.Textual) :
    (∃ l?, (registry.lookupOverride code project overrides?).outcome = .ok l?) ↔
      ∀ o r, registry.winner? project code (overrides?.getD []) = some (o, r) →
        (∀ n, r.template.fields.findSome? Field.integerPayload? = some n → n ≤ digitLimit) ∧
        (registry.Builds project o → ∀ data, r.embeddedData = .ok (some data) →
          Writable data) := by
  rw [outcome_lookupOverride hs]
  cases hw : registry.winner? project code (overrides?.getD []) with
  | none => exact iff_of_true ⟨none, rfl⟩ (fun o r h => nomatch h)
  | some found =>
    obtain ⟨o, r⟩ := found
    obtain ⟨-, -, -, hr, -⟩ := winner?_eq_some_iff.mp hw
    obtain ⟨t, ht, hread⟩ := reading?_eq_some_iff.mp hr
    have hto : o.Textual := ho o r hw
    have htemplate : r.template = t :=
      Template.template_of_split? (Template.read_eq_accepted_iff.mp hread).1
    have hdata := Reading.exists_embeddedData_iff (hs project o.id t ht) hread
    have hmap : (∃ l?, (registry.applyOverride r o project).outcome.map some = .ok l?) ↔
        ∃ l, (registry.applyOverride r o project).outcome = .ok l := by
      cases (registry.applyOverride r o project).outcome <;> simp [Except.map]
    simp only [Option.some.injEq, Prod.mk.injEq]
    rw [hmap, exists_applyOverride_iff hto, hdata, ← htemplate]
    constructor
    · intro h o' r' hor
      obtain ⟨rfl, rfl⟩ := hor
      exact h
    · intro h
      exact h o r ⟨rfl, rfl⟩

/-- **What fails, and on what.** Embedding fails when the payload fits a plain field that is not
of five digits beside a check digit for it. Building a code fails when a template is found and
the payload cannot be written, and looking an override up fails when the one that applies has a
payload that is too wide to be read, or one that is too long to be written into a code. -/
theorem faults_iff (history : List Operation) :
    (∀ id text t code r data fault, Template.compile id text = .ok t →
      t.read code = .ok (.accepted r) → Writable data →
      (r.embed data = .error fault ↔ ∃ n, .embed n ∈ t.fields ∧ .payloadCheck ∈ t.fields ∧
        n ≠ 5 ∧ 0 ≤ data ∧ data < 10 ^ n ∧ fault = .digitCount 5 n)) ∧
    (∀ id s data project?,
      (∃ built, ((run history).synthesize (.text id) (.text s) data project?).outcome =
        .ok built) ↔ ((run history).find? id project? ≠ none → Writable data)) ∧
    ∀ code project overrides?, (∀ o ∈ overrides?.getD [], o.Textual) →
      ((∃ l?, ((run history).lookupOverride code project overrides?).outcome = .ok l?) ↔
        ∀ o r, (run history).winner? project code (overrides?.getD []) = some (o, r) →
          (∀ n, r.template.fields.findSome? Field.integerPayload? = some n → n ≤ digitLimit) ∧
          ((run history).Builds project o → ∀ data, r.embeddedData = .ok (some data) →
            Writable data)) := by
  refine ⟨?_, ?_, ?_⟩
  · intro id text t code r data fault hcompile hread hwrite
    exact Reading.embed_eq_error_iff hcompile hread hwrite
  · intro id s data project?
    exact exists_outcome_synthesize_iff id s project?
  · intro code project overrides? ho
    refine exists_lookupOverride_iff (compiled_run history) ?_
    intro o r hw
    obtain ⟨before, after, hsplit, -⟩ := winner?_eq_some_iff.mp hw
    exact ho o (by rw [hsplit]; simp)

/-- A payload of three digits beside a check digit that belongs to five digits of hundreds. -/
theorem embed_hundreds_faults :
    ∃ t r, Template.compile ['t'] (Text.withBraces "[embed100:5][embed:3][i]") = .ok t ∧
      t.read "000741233".toList = .ok (.accepted r) ∧ r.embed 5 = .error (.digitCount 5 3) := by
  let t : Template := ⟨['t'], Text.withBraces "[embed100:5][embed:3][i]",
    [.embedHundreds 5, .embed 3, .payloadCheck]⟩
  let r : Reading := ⟨t, [(.embedHundreds 5, "00074".toList), (.embed 3, "123".toList),
    (.payloadCheck, "3".toList)]⟩
  have ht : Template.compile ['t'] (Text.withBraces "[embed100:5][embed:3][i]") = .ok t := by
    cbv
  have hr : t.read "000741233".toList = .ok (.accepted r) := by cbv
  refine ⟨t, r, ht, hr, ((faults_iff []).1 _ _ t _ r 5 _ ht hr ?_).mpr ?_⟩
  · show (Text.ofNat 5).length ≤ digitLimit
    decide
  · exact ⟨3, by decide, by decide, by decide, by decide, by decide, rfl⟩

end Registry

end Barcode

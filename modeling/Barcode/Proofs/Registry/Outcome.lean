import Barcode.Proofs.Instore.Assembly
import Barcode.Proofs.Registry.History
import Barcode.Proofs.Template.Feasible

/-!
# Answers without their events

What a registry answers, with the events left out. Reading a code along a compiled template
always has an answer, so the search for the override that applies is a search through the list
of overrides, and only what is made of the one that is found can fail.
-/

namespace Barcode

open Document (Value)
open Sequence
open Text.Numeral (Writable)

namespace Template

variable {t : Template} {code id text : Text} {r : Reading}

/-- The reading of a code, if the template accepts the code. -/
def reading? (t : Template) (code : Text) : Option Reading :=
  (t.read code).toOption.bind Outcome.reading?

theorem reading?_eq_some_iff : t.reading? code = some r ↔ t.read code = .ok (.accepted r) := by
  rw [reading?]
  cases t.read code with
  | error fault => simp [Except.toOption]
  | ok outcome => cases outcome <;> simp [Except.toOption, Outcome.reading?]

theorem outcome_readTraced (h : compile id text = .ok t) (code : Text) :
    (t.readTraced code).outcome = .ok (t.reading? code) := by
  obtain ⟨outcome, ho⟩ := exists_outcome (lawful_of_compile h) code
  rw [reading?, readTraced, Traced.outcome_bind, Traced.outcome_ofExcept, ho]
  cases outcome <;> rfl

end Template

namespace Registry

variable {registry : Registry} {project code id s : Text} {data : Int} {data? : Option Int}
  {t : Template} {o : Override} {r : Reading} {overrides : List Override}

/-! ## Building -/

theorem outcome_synthesize_text (id s : Text) (data : Int) (project? : Option Text) :
    (registry.synthesize (.text id) (.text s) data project?).outcome =
      match registry.find? id project? with
      | none => .ok none
      | some t => (t.synthesize s data).map fun built => built.map Ean.Code.text := by
  rw [synthesize, Traced.outcome_bind, Traced.outcome_ofExcept, findByValue]
  cases registry.find? id project? with
  | none => rfl
  | some t =>
    show (Traced.ofExcept (t.synthesizeWith (.text s) data) >>= _).outcome =
      (t.synthesize s data).map fun built => built.map Ean.Code.text
    rw [Traced.outcome_bind, Traced.outcome_ofExcept, Template.synthesizeWith]
    cases t.synthesize s data <;> rfl

/-- Building fails on payloads that cannot be written, once a template is found. -/
theorem exists_outcome_synthesize_iff (id s : Text) (project? : Option Text) :
    (∃ built, (registry.synthesize (.text id) (.text s) data project?).outcome = .ok built) ↔
      (registry.find? id project? ≠ none → Writable data) := by
  rw [outcome_synthesize_text]
  cases registry.find? id project? with
  | none => exact iff_of_true ⟨none, rfl⟩ (fun h => absurd rfl h)
  | some t =>
    rw [← Template.exists_synthesize_iff (t := t) (s := s)]
    show (∃ built, (t.synthesize s data).map (fun built => built.map Ean.Code.text) = .ok built) ↔ _
    cases t.synthesize s data <;> simp [Except.map]

/-! ## What an override makes of a reading -/

/-- The code that an override sends onward with a payload. -/
def transmission (registry : Registry) (o : Override) (project : Text) (data? : Option Int) :
    Except Fault Value :=
  match data? with
  | some data =>
    if o.transmissionTemplate.isNull || o.transmissionCode.isNull then .ok o.transmissionCode
    else (registry.synthesize o.transmissionTemplate o.transmissionCode data
      (some project)).outcome.map Value.ofText?
  | none => .ok o.transmissionCode

theorem outcome_applyOverride (r : Reading) (o : Override) (project : Text) :
    (registry.applyOverride r o project).outcome = (do
      let data? ← r.embeddedData
      let sent ← registry.transmission o project data?
      return ⟨r.lookupCode, o.lookupTemplate, sent, data?⟩) := by
  rw [applyOverride, Traced.outcome_bind, Traced.outcome_ofExcept]
  cases r.embeddedData with
  | error fault => rfl
  | ok data? =>
    rw [ok_bind, ok_bind]
    cases data? with
    | none => rfl
    | some data =>
      by_cases hnull : (o.transmissionTemplate.isNull || o.transmissionCode.isNull) = true
      · simp only [transmission, if_pos hnull]
        rfl
      · simp only [transmission, if_neg hnull, Traced.outcome_bind]
        cases (registry.synthesize o.transmissionTemplate o.transmissionCode data
          (some project)).outcome <;> rfl

theorem applyOverride_eq_ok {l : OverrideLookup} :
    (registry.applyOverride r o project).outcome = .ok l ↔
      r.embeddedData = .ok l.embeddedData ∧
        registry.transmission o project l.embeddedData = .ok l.transmissionCode ∧
        l.lookupCode = r.lookupCode ∧ l.lookupTemplate = o.lookupTemplate := by
  rw [outcome_applyOverride, bind_eq_ok]
  constructor
  · intro h
    obtain ⟨data?, hdata, h⟩ := h
    obtain ⟨sent, hsent, h⟩ := bind_eq_ok.mp h
    obtain rfl := Except.ok.inj h
    exact ⟨hdata, hsent, rfl, rfl⟩
  · intro h
    obtain ⟨hdata, hsent, hcode, htemplate⟩ := h
    refine ⟨_, hdata, bind_eq_ok.mpr ⟨_, hsent, ?_⟩⟩
    rw [← hcode, ← htemplate]
    rfl

/-! ## The override that applies -/

/-- The reading of a code along the template that is stored for an override. -/
def reading? (registry : Registry) (project code : Text) (o : Override) : Option Reading :=
  (registry.template? project o.id).bind fun t => t.reading? code

theorem reading?_eq_some_iff : registry.reading? project code o = some r ↔
    ∃ t, registry.template? project o.id = some t ∧ t.read code = .ok (.accepted r) := by
  rw [reading?, Option.bind_eq_some_iff]
  simp only [Template.reading?_eq_some_iff]

/-- The first override whose stored template accepts a code, with the reading. -/
def winner? (registry : Registry) (project code : Text) (overrides : List Override) :
    Option (Override × Reading) :=
  overrides.findSome? fun o => (registry.reading? project code o).map (o, ·)

theorem winner?_eq_some_iff : registry.winner? project code overrides = some (o, r) ↔
    ∃ before after, overrides = before ++ o :: after ∧
      registry.reading? project code o = some r ∧
      ∀ b ∈ before, registry.reading? project code b = none := by
  rw [winner?, List.findSome?_eq_some_iff]
  simp only [Option.map_eq_none_iff, Option.map_eq_some_iff, Prod.mk.injEq]
  constructor
  · intro h
    obtain ⟨before, o', after, hsplit, ⟨r', hr, rfl, rfl⟩, hb⟩ := h
    exact ⟨before, after, hsplit, hr, hb⟩
  · intro h
    obtain ⟨before, after, hsplit, hr, hb⟩ := h
    exact ⟨before, o, after, hsplit, ⟨r, hr, rfl, rfl⟩, hb⟩

/-- The search through the overrides ends at the first one that applies. -/
theorem outcome_firstOverride (hs : registry.Compiled) (code project : Text)
    (overrides : List Override) :
    (registry.firstOverride code project overrides).outcome =
      match registry.winner? project code overrides with
      | none => .ok none
      | some (o, r) => (registry.applyOverride r o project).outcome.map some := by
  induction overrides with
  | nil => rfl
  | cons o rest ih =>
    rw [firstOverride, winner?, List.findSome?_cons, reading?]
    cases ht : registry.template? project o.id with
    | none => exact ih
    | some t =>
      rw [Option.bind_some, Traced.outcome_bind, Template.outcome_readTraced (hs project o.id t ht)]
      cases t.reading? code with
      | none => exact ih
      | some r =>
        show (registry.applyOverride r o project >>= fun l => pure (some l)).outcome =
          (registry.applyOverride r o project).outcome.map some
        rw [Traced.outcome_bind]
        cases (registry.applyOverride r o project).outcome <;> rfl

theorem firstOverride_of_templates_eq_nil (h : registry.templates project = []) (code : Text)
    (overrides : List Override) :
    registry.firstOverride code project overrides = return none := by
  induction overrides with
  | nil => rfl
  | cons o rest ih =>
    have hnone : registry.template? project o.id = none := by rw [template?, h]; rfl
    rw [firstOverride, hnone, ih]

/-- What is not tried would not apply: an absent list is an empty one. -/
theorem lookupOverride_eq_firstOverride (registry : Registry) (code project : Text)
    (overrides? : Option (List Override)) :
    registry.lookupOverride code project overrides? =
      registry.firstOverride code project (overrides?.getD []) := by
  unfold lookupOverride
  split
  · rfl
  · rfl
  · next overrides _ =>
    split
    · next h => rw [firstOverride_of_templates_eq_nil (List.isEmpty_iff.mp h)]
    · rfl

theorem outcome_lookupOverride (hs : registry.Compiled) (code project : Text)
    (overrides? : Option (List Override)) :
    (registry.lookupOverride code project overrides?).outcome =
      match registry.winner? project code (overrides?.getD []) with
      | none => .ok none
      | some (o, r) => (registry.applyOverride r o project).outcome.map some := by
  rw [lookupOverride_eq_firstOverride, outcome_firstOverride hs]

end Registry
end Barcode

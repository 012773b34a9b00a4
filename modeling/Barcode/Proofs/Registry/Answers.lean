import Barcode.Proofs.Registry.Outcome
import Barcode.Proofs.Registry.Record

/-!
# What answers depend on

A code is read along the templates of its project, and along no others. An override and a code to
send onward are looked up by identifier, so for these answers not even the order of the templates
counts. The readings of a code in a registry with a history are the templates that accept it, each
under an identifier of its own.
-/

namespace Barcode

open Document (Value)
open Sequence

namespace Registry

variable {s s' : Registry} {project code id : Text} {r : Reading} {t : Template}

/-! ## Registries that agree on a project -/

theorem template?_congr (h : s.templates project = s'.templates project) (id : Text) :
    s.template? project id = s'.template? project id := by
  rw [template?, template?, h]

theorem readings_congr (h : s.templates project = s'.templates project) (code : Text) :
    s.readings code project = s'.readings code project := by
  rw [readings, readings, h]

section Found

variable (h : ∀ id, s.template? project id = s'.template? project id)

include h

theorem find?_congr (id : Text) : s.find? id (some project) = s'.find? id (some project) := h id

theorem synthesize_congr (id code : Value) (data : Int) :
    s.synthesize id code data (some project) = s'.synthesize id code data (some project) := by
  have hfind : s.findByValue id (some project) = s'.findByValue id (some project) := by
    cases id with
    | text t => rw [findByValue, findByValue, find?_congr h t]
    | _ => rfl
  rw [synthesize, synthesize, hfind]

theorem applyOverride_congr (r : Reading) (o : Override) :
    s.applyOverride r o project = s'.applyOverride r o project := by
  simp only [applyOverride, synthesize_congr h]

theorem firstOverride_congr (code : Text) (overrides : List Override) :
    s.firstOverride code project overrides = s'.firstOverride code project overrides := by
  induction overrides with
  | nil => rfl
  | cons o rest ih =>
    rw [firstOverride, firstOverride, h o.id, ih]
    simp only [applyOverride_congr h]

theorem lookupOverride_congr (code : Text) (overrides? : Option (List Override)) :
    s.lookupOverride code project overrides? = s'.lookupOverride code project overrides? := by
  rw [lookupOverride_eq_firstOverride, lookupOverride_eq_firstOverride, firstOverride_congr h]

end Found

/-! ## The readings of a code -/

/-- The readings of a code along the templates of a project that accept it. -/
def accepted (s : Registry) (code project : Text) : List Reading :=
  (s.templates project).filterMap fun entry => entry.2.reading? code

theorem template?_eq_some_iff (hs : s.Ordered) :
    s.template? project id = some t ↔ (id, t) ∈ s.templates project :=
  ⟨Table.mem_of_get?, Table.get?_of_mem (hs.templates project)⟩

/-- Reading a code has an answer along every template, so it has one along all of them. -/
theorem outcome_readings (hc : s.Compiled) (hs : s.Ordered) (code project : Text) :
    (s.readings code project).outcome = .ok (s.accepted code project) := by
  have hall : ((s.templates project).mapM fun entry => (entry.2.readTraced code).outcome) =
      .ok ((s.templates project).map fun entry => entry.2.reading? code) := by
    rw [mapM_eq_ok, List.forall₂_map_right_iff, List.forall₂_same]
    intro entry he
    have hstored := hc project entry.1 entry.2 ((template?_eq_some_iff hs).mpr he)
    exact Template.outcome_readTraced hstored code
  rw [readings, Traced.outcome_bind, Traced.outcome_mapM, hall, ok_bind, accepted]
  show Except.ok ((s.templates project).map fun entry => entry.2.reading? code).reduceOption = _
  rw [List.reduceOption, List.filterMap_map]
  rfl

theorem template_of_reading? (h : t.reading? code = some r) : r.template = t :=
  Template.template_of_split? (Template.read_eq_accepted_iff.mp
    (Template.reading?_eq_some_iff.mp h)).1

/-- A template is stored under its own identifier. -/
theorem Compiled.id_eq (hc : s.Compiled) (h : s.template? project id = some t) : t.id = id :=
  Template.id_of_compile (hc project id t h)

theorem mem_accepted_iff (hc : s.Compiled) (hs : s.Ordered) :
    r ∈ s.accepted code project ↔
      ∃ t, s.template? project r.template.id = some t ∧ t.read code = .ok (.accepted r) := by
  rw [accepted, List.mem_filterMap]
  simp only [← Template.reading?_eq_some_iff]
  constructor
  · intro h
    obtain ⟨entry, he, hr⟩ := h
    have hstored := (template?_eq_some_iff hs).mpr he
    rw [template_of_reading? hr, hc.id_eq hstored]
    exact ⟨entry.2, hstored, hr⟩
  · intro h
    obtain ⟨t, ht, hr⟩ := h
    exact ⟨(r.template.id, t), (template?_eq_some_iff hs).mp ht, hr⟩

/-- No identifier comes twice among the readings of a code. -/
theorem pairwise_accepted (hc : s.Compiled) (hs : s.Ordered) (code project : Text) :
    (s.accepted code project).Pairwise fun a b => a.template.id ≠ b.template.id := by
  rw [accepted, List.pairwise_filterMap]
  have hkeys : (s.templates project).Pairwise fun a b => a.1 ≠ b.1 :=
    List.pairwise_map.mp (hs.templates project)
  have hid : ∀ e ∈ s.templates project, e.2.id = e.1 :=
    fun e he => hc.id_eq ((template?_eq_some_iff hs).mpr he)
  refine hkeys.imp_of_mem ?_
  intro a b ha hb hne ra hra rb hrb
  rw [template_of_reading? hra, template_of_reading? hrb, hid a ha, hid b hb]
  exact hne

end Registry

end Barcode

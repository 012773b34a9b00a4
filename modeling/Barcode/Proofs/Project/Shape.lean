import Barcode.Project.Basic
import Barcode.Proofs.Fault.Sequence

/-!
# Documents of projects

A document is accepted by its shape: it lists objects with an identifier, whose templates are an
object and whose overrides are a list of objects with an identifier and a template. Templates and
overrides without content may be of any kind. One element of another shape refuses the whole
document; an accepted one gives a project for each element, with all templates and overrides in
the order of the document.
-/

namespace Barcode

open Document (Value)
open Sequence
open Table (keys get?)

/-! ## Price overrides -/

namespace Override

/-- An object that names a price override and gives its template. -/
def Shaped (document : Value) : Prop :=
  ∃ members, document = .object members ∧ "id".toList ∈ keys members ∧
    "template".toList ∈ keys members

/-- The override that an object describes. -/
def Described (document : Value) (o : Override) : Prop :=
  ∃ members id template, document = .object members ∧ get? members "id".toList = some id ∧
    get? members "template".toList = some template ∧ o = {
      id := id.plain
      template := template.plain
      lookupTemplate := member members "lookupTemplate"
      transmissionTemplate := member members "transmissionTemplate"
      transmissionCode := member members "transmissionCode" }

variable {document : Value} {o : Override}

theorem ofDocument_eq_ok_iff : ofDocument document = .ok o ↔ Described document o := by
  constructor
  · intro h
    unfold ofDocument at h
    split at h
    · split at h
      · next members _ _ id template hid htemplate =>
        exact ⟨members, id, template, rfl, hid, htemplate, (Except.ok.inj h).symm⟩
      · cases h
    · cases h
  · intro h
    obtain ⟨members, id, template, rfl, hid, htemplate, rfl⟩ := h
    simp only [ofDocument, hid, htemplate]

theorem exists_ofDocument_iff : (∃ o, ofDocument document = .ok o) ↔ Shaped document := by
  simp only [ofDocument_eq_ok_iff, Described, Shaped, Table.mem_keys_iff]
  constructor
  · intro h
    obtain ⟨-, members, id, template, hdocument, hid, htemplate, -⟩ := h
    exact ⟨members, hdocument, ⟨id, hid⟩, template, htemplate⟩
  · intro h
    obtain ⟨members, hdocument, ⟨id, hid⟩, template, htemplate⟩ := h
    exact ⟨_, members, id, template, hdocument, hid, htemplate, rfl⟩

end Override

/-! ## Projects -/

namespace Project

/-- The members of an object, none of any other value. -/
def membersOf : Value → List (Text × Value)
  | .object members => members
  | _ => []

/-- The items of a list, none of any other value. -/
def itemsOf : Value → List Value
  | .list items => items
  | _ => []

/-- The templates of a project are an object, its overrides a list of described overrides. Both
may be missing, and may be of any kind without content. -/
structure Shaped (document : Value) : Prop where
  object : ∃ members, document = .object members
  id : "id".toList ∈ keys (membersOf document)
  templates : ∀ v, get? (membersOf document) "codeTemplates".toList = some v →
    v.isEmpty = true ∨ ∃ members, v = .object members
  overrides : ∀ v, get? (membersOf document) "priceOverrideCodes".toList = some v →
    v.isEmpty = true ∨ ∃ items, v = .list items ∧ ∀ o ∈ items, Override.Shaped o

/-- The project that an object describes, with its templates and overrides in order. -/
structure Described (document : Value) (p : Project) : Prop where
  id : ∃ id, get? (membersOf document) "id".toList = some id ∧ p.id = id.plain
  templates : p.templates = (membersOf (member (membersOf document) "codeTemplates")).map
    fun (name, template) => ⟨name, template.plain⟩
  overrides : List.Forall₂ Override.Described
    (itemsOf (member (membersOf document) "priceOverrideCodes")) p.overrides

variable {document value : Value} {p : Project} {members : List (Text × Value)}

/-- A condition that null meets holds of a member when it holds of the value it is given. -/
theorem forall_get?_iff {P : Value → Prop} (hnull : P .null) (members : List (Text × Value))
    (name : String) : (∀ v, get? members name.toList = some v → P v) ↔ P (member members name) := by
  rw [member]
  cases get? members name.toList with
  | none => simpa using hnull
  | some v => simp

theorem templatesOf_eq_ok_iff {found : List Definition} : templatesOf value = .ok found ↔
    (value.isEmpty = true ∨ ∃ members, value = .object members) ∧
      (membersOf value).map (fun (name, template) => ⟨name, template.plain⟩) = found := by
  unfold templatesOf
  cases value with
  | object members => cases members <;> simp [membersOf, Value.isEmpty]
  | _ =>
    split
    · next h => simp [membersOf, h]
    · next h => simp [h]

theorem overridesOf_eq_ok_iff {found : List Value} : overridesOf value = .ok found ↔
    (value.isEmpty = true ∨ ∃ items, value = .list items) ∧ itemsOf value = found := by
  unfold overridesOf
  cases value with
  | list items => cases items <;> simp [itemsOf, Value.isEmpty]
  | _ =>
    split
    · next h => simp [itemsOf, h]
    · next h => simp [h]

/-- The overrides that a member may hold: a list of them, or anything without content. -/
theorem overrides_iff : (value.isEmpty = true ∨
      ∃ items, value = .list items ∧ ∀ o ∈ items, Override.Shaped o) ↔
    (value.isEmpty = true ∨ ∃ items, value = .list items) ∧
      ∀ o ∈ itemsOf value, Override.Shaped o := by
  cases value with
  | list items => cases items <;> simp [itemsOf, Value.isEmpty]
  | _ => simp [itemsOf]

/-- Every step of reading an object must give its part of the project. -/
theorem ofDocument_object_eq_ok_iff : ofDocument (.object members) = .ok p ↔
    (∃ id, get? members "id".toList = some id ∧ p.id = id.plain) ∧
    templatesOf (member members "codeTemplates") = .ok p.templates ∧
    ∃ items, overridesOf (member members "priceOverrideCodes") = .ok items ∧
      items.mapM Override.ofDocument = .ok p.overrides := by
  unfold ofDocument
  constructor
  · intro h
    simp only at h
    split at h
    · next id hid =>
      obtain ⟨templates, htemplates, h⟩ := bind_eq_ok.mp h
      obtain ⟨items, hitems, h⟩ := bind_eq_ok.mp h
      obtain ⟨overrides, hoverrides, h⟩ := bind_eq_ok.mp h
      obtain rfl := Except.ok.inj h
      exact ⟨⟨id, hid, rfl⟩, htemplates, items, hitems, hoverrides⟩
    · cases h
  · intro h
    obtain ⟨⟨id, hid, hplain⟩, htemplates, items, hitems, hoverrides⟩ := h
    simp only [hid]
    refine bind_eq_ok.mpr ⟨_, htemplates, bind_eq_ok.mpr ⟨_, hitems, ?_⟩⟩
    refine bind_eq_ok.mpr ⟨_, hoverrides, ?_⟩
    rw [← hplain]
    rfl

theorem shaped_object_iff : Shaped (.object members) ↔ "id".toList ∈ keys members ∧
    ((member members "codeTemplates").isEmpty = true ∨
      ∃ ms, member members "codeTemplates" = .object ms) ∧
    ((member members "priceOverrideCodes").isEmpty = true ∨
      ∃ items, member members "priceOverrideCodes" = .list items) ∧
    ∀ o ∈ itemsOf (member members "priceOverrideCodes"), Override.Shaped o := by
  have htemplates := forall_get?_iff (P := fun v => v.isEmpty = true ∨ ∃ ms, v = .object ms)
    (Or.inl rfl) members "codeTemplates"
  have hoverrides := forall_get?_iff (P := fun v => v.isEmpty = true ∨
    ∃ items, v = .list items ∧ ∀ o ∈ items, Override.Shaped o) (Or.inl rfl) members
    "priceOverrideCodes"
  rw [← overrides_iff, ← htemplates, ← hoverrides]
  constructor
  · intro h
    exact ⟨h.id, h.templates, h.overrides⟩
  · intro h
    exact ⟨⟨members, rfl⟩, h.1, h.2.1, h.2.2⟩

/-- A document is read as a project when it has the shape of one, and as the project that it
describes. -/
theorem ofDocument_eq_ok_iff : ofDocument document = .ok p ↔
    Shaped document ∧ Described document p := by
  cases document with
  | object members =>
    rw [ofDocument_object_eq_ok_iff, shaped_object_iff, Table.mem_keys_iff]
    simp only [templatesOf_eq_ok_iff, overridesOf_eq_ok_iff, mapM_eq_ok]
    constructor
    · intro h
      obtain ⟨⟨id, hid, hplain⟩, ⟨htemplates, hfound⟩, items, ⟨hitems, rfl⟩, hoverrides⟩ := h
      refine ⟨⟨⟨id, hid⟩, htemplates, hitems, fun o ho => ?_⟩, ⟨id, hid, hplain⟩, hfound.symm,
        hoverrides.imp fun _ _ => Override.ofDocument_eq_ok_iff.mp⟩
      obtain ⟨override, -, hread⟩ := exists_of_mem_left hoverrides ho
      exact Override.exists_ofDocument_iff.mp ⟨override, hread⟩
    · intro h
      obtain ⟨⟨-, htemplates, hitems, -⟩, hdescribed⟩ := h
      exact ⟨hdescribed.id, ⟨htemplates, hdescribed.templates.symm⟩, _, ⟨hitems, rfl⟩,
        hdescribed.overrides.imp fun _ _ => Override.ofDocument_eq_ok_iff.mpr⟩
  | _ =>
    constructor
    · intro h
      cases h
    · intro h
      obtain ⟨members, hobject⟩ := h.1.object
      cases hobject

theorem exists_ofDocument_iff : (∃ p, ofDocument document = .ok p) ↔ Shaped document := by
  constructor
  · intro h
    obtain ⟨p, h⟩ := h
    exact (ofDocument_eq_ok_iff.mp h).1
  · intro h
    obtain ⟨members, rfl⟩ := h.object
    obtain ⟨hid, htemplates, hitems, hshaped⟩ := shaped_object_iff.mp h
    obtain ⟨id, hid⟩ := Table.mem_keys_iff.mp hid
    obtain ⟨overrides, hoverrides⟩ :=
      exists_mapM_eq_ok fun o ho => Override.exists_ofDocument_iff.mpr (hshaped o ho)
    exact ⟨⟨id.plain, _, overrides⟩, ofDocument_object_eq_ok_iff.mpr ⟨⟨id, hid, rfl⟩,
      templatesOf_eq_ok_iff.mpr ⟨htemplates, rfl⟩, _,
      overridesOf_eq_ok_iff.mpr ⟨hitems, rfl⟩, hoverrides⟩⟩

/-! ## Lists of projects -/

/-- What a document lists: the items of a list, an object as the only one, and for an object with
a member "projects" what that member is or holds. -/
inductive Lists : Value → List Value → Prop
  | list (items : List Value) : Lists (.list items) items
  | single {members : List (Text × Value)} (h : "projects".toList ∉ keys members) :
    Lists (.object members) [.object members]
  | memberList {members : List (Text × Value)} {items : List Value}
    (h : get? members "projects".toList = some (.list items)) : Lists (.object members) items
  | memberObject {members inner : List (Text × Value)}
    (h : get? members "projects".toList = some (.object inner)) :
    Lists (.object members) [.object inner]

theorem unwrap_object_eq_some_iff {items : List Value} :
    unwrap (.object members) = some items ↔ Lists (.object members) items := by
  cases hp : get? members "projects".toList with
  | none =>
    have hsingle : unwrap (.object members) = some [.object members] := by
      rw [unwrap, hp]
      rfl
    rw [hsingle]
    constructor
    · intro h
      obtain rfl := Option.some.inj h
      exact .single (Table.get?_eq_none_iff.mp hp)
    · intro h
      cases h with
      | single _ => rfl
      | memberList h => cases hp.symm.trans h
      | memberObject h => cases hp.symm.trans h
  | some v =>
    have hmem : "projects".toList ∈ keys members := Table.mem_keys_iff.mpr ⟨v, hp⟩
    rw [unwrap, hp]
    constructor
    · intro h
      cases v with
      | object inner =>
        obtain rfl := Option.some.inj h
        exact .memberObject hp
      | list found =>
        obtain rfl := Option.some.inj h
        exact .memberList hp
      | _ => cases h
    · intro h
      cases h with
      | single h => exact absurd hmem h
      | memberList h =>
        obtain rfl := Option.some.inj (hp.symm.trans h)
        rfl
      | memberObject h =>
        obtain rfl := Option.some.inj (hp.symm.trans h)
        rfl

theorem unwrap_eq_some_iff {items : List Value} :
    unwrap document = some items ↔ Lists document items := by
  cases document with
  | object members => exact unwrap_object_eq_some_iff
  | list found =>
    constructor
    · intro h
      obtain rfl := Option.some.inj h
      exact .list _
    · intro h
      cases h
      rfl
  | _ =>
    constructor
    · intro h
      cases h
    · intro h
      cases h

theorem listOfDocument_eq_ok_iff {projects : List Project} :
    listOfDocument document = .ok projects ↔ ∃ items, Lists document items ∧
      List.Forall₂ (fun item p => Shaped item ∧ Described item p) items projects := by
  simp only [← unwrap_eq_some_iff, ← ofDocument_eq_ok_iff, ← mapM_eq_ok]
  unfold listOfDocument
  cases unwrap document with
  | none => simp
  | some items => simp

theorem exists_listOfDocument_iff : (∃ projects, listOfDocument document = .ok projects) ↔
    ∃ items, Lists document items ∧ ∀ item ∈ items, Shaped item := by
  simp only [listOfDocument_eq_ok_iff]
  constructor
  · intro h
    obtain ⟨projects, items, hlists, hall⟩ := h
    refine ⟨items, hlists, fun item hitem => ?_⟩
    obtain ⟨p, -, hshaped, -⟩ := exists_of_mem_left hall hitem
    exact hshaped
  · intro h
    obtain ⟨items, hlists, hshaped⟩ := h
    obtain ⟨projects, hread⟩ :=
      exists_mapM_eq_ok fun item hitem => exists_ofDocument_iff.mpr (hshaped item hitem)
    exact ⟨projects, items, hlists, (mapM_eq_ok.mp hread).imp fun _ _ => ofDocument_eq_ok_iff.mp⟩

/-- **Documents are accepted all or nothing, by their shape.** A document gives projects exactly
when it lists documents that all have the shape of a project, and a metadata error otherwise. The
projects are those that the listed documents describe, one for each in order. -/
theorem listOfDocument_iff_shaped (document : Value) :
    ((∃ projects, listOfDocument document = .ok projects) ↔
      ∃ items, Lists document items ∧ ∀ item ∈ items, Shaped item) ∧
    ((¬ ∃ items, Lists document items ∧ ∀ item ∈ items, Shaped item) →
      ∃ error : MetadataError, listOfDocument document = .error error) ∧
    ∀ projects, listOfDocument document = .ok projects →
      ∃ items, Lists document items ∧ List.Forall₂ Described items projects := by
  refine ⟨exists_listOfDocument_iff, ?_, ?_⟩
  · intro h
    rw [← exists_listOfDocument_iff] at h
    cases hread : listOfDocument document with
    | ok projects => exact absurd ⟨projects, hread⟩ h
    | error error => exact ⟨error, rfl⟩
  · intro projects h
    obtain ⟨items, hlists, hall⟩ := listOfDocument_eq_ok_iff.mp h
    exact ⟨items, hlists, hall.imp fun _ _ => And.right⟩

/-- A project whose identifier and second template are numbers, with one override. -/
def numbered : Value := .object [
  ("id".toList, .integer 5),
  ("codeTemplates".toList, .object [
    ("b".toList, .text (Text.withBraces "[code:*]")), ("a".toList, .integer (-7))]),
  ("priceOverrideCodes".toList, .list [.object [
    ("id".toList, .text "x".toList), ("template".toList, .null),
    ("transmissionCode".toList, .bool true)]])]

/-- Numbers are taken by their text, and what is passed on keeps its kind. An object without an
identifier beside the project refuses both. -/
theorem listOfDocument_iff_shaped_numbered :
    (∃ p, listOfDocument numbered = .ok [p] ∧ Described numbered p ∧
      p.templates = [⟨"b".toList, Text.withBraces "[code:*]"⟩, ⟨"a".toList, "-7".toList⟩]) ∧
    (¬ ∃ items, Lists (.list [numbered, .object []]) items ∧ ∀ item ∈ items, Shaped item) ∧
    ∃ error, listOfDocument (.list [numbered, .object []]) = .error error := by
  have hread : listOfDocument numbered = .ok [⟨"5".toList,
      [⟨"b".toList, Text.withBraces "[code:*]"⟩, ⟨"a".toList, "-7".toList⟩],
      [⟨"x".toList, "None".toList, .null, .null, .bool true⟩]⟩] := by rfl
  have hnot : ¬ ∃ items, Lists (.list [numbered, .object []]) items ∧
      ∀ item ∈ items, Shaped item := by
    intro h
    obtain ⟨items, hlists, hshaped⟩ := h
    cases hlists
    exact absurd (hshaped (.object []) (by simp)).id (by simp [membersOf, keys])
  obtain ⟨-, -, hdescribed⟩ := listOfDocument_iff_shaped numbered
  obtain ⟨-, herror, -⟩ := listOfDocument_iff_shaped (.list [numbered, .object []])
  obtain ⟨items, hlists, hall⟩ := hdescribed _ hread
  refine ⟨⟨_, hread, ?_, rfl⟩, hnot, herror hnot⟩
  cases hlists with
  | single _ => exact (List.forall₂_cons.mp hall).1
  | memberList h => cases h
  | memberObject h => cases h

end Project

end Barcode

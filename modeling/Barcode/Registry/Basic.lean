import Barcode.Project.Basic
import Barcode.Registry.Traced
import Barcode.Template.Basic

/-!
# The registry of templates

Every project has a table of templates by identifier. Projects and templates keep the order of
their first registration. A template text that breaks the grammar is reported and leaves the
registry as it is; a fault ends a load and keeps what was registered before it.
-/

namespace Barcode

/-- The templates of every project that has one. -/
structure Registry where
  projects : Table Text (Table Text Template) := []
  deriving DecidableEq, Repr

/-- A registry after some work on it, with the events and the fault that ended the work. -/
structure Change where
  registry : Registry
  events : List Event := []
  fault? : Option Fault := none

/-- Goes on working unless a fault has ended the work. -/
def Change.andThen (change : Change) (next : Registry → Change) : Change :=
  match change.fault? with
  | some _ => change
  | none =>
    let later := next change.registry
    ⟨later.registry, change.events ++ later.events, later.fault?⟩

def Change.traced (change : Change) : Traced Registry :=
  match change.fault? with
  | some fault => ⟨change.events, .error fault⟩
  | none => ⟨change.events, .ok change.registry⟩

/-- Every template text of a project under its identifier, those of the overrides last. -/
def Project.definitions (project : Project) : List Definition :=
  project.templates ++ project.overrides.map fun o => ⟨o.id, o.template⟩

namespace Registry

def empty : Registry := {}

/-- The projects, in the order of their first template. -/
def projectIds (registry : Registry) : List Text := registry.projects.keys

/-- The templates of a project, in the order of their first registration. -/
def templates (registry : Registry) (project : Text) : Table Text Template :=
  (registry.projects.get? project).getD []

def template? (registry : Registry) (project id : Text) : Option Template :=
  (registry.templates project).get? id

/-- Puts a template under its identifier, in the place of an earlier one. -/
def insert (registry : Registry) (project : Text) (template : Template) : Registry :=
  ⟨registry.projects.put project ((registry.templates project).put template.id template)⟩

def register (registry : Registry) (project : Text) (definition : Definition) : Change :=
  match Template.compile definition.id definition.template with
  | .ok template =>
    ⟨registry.insert project template, [.templateRegistered project definition.id], none⟩
  | .error (.grammar error) =>
    ⟨registry, [.invalidTemplateIgnored project definition.id definition.template error], none⟩
  | .error fault => ⟨registry, [], some fault⟩

def registerAll (registry : Registry) (project : Text) (definitions : List Definition) : Change :=
  definitions.foldl (fun change definition => change.andThen (·.register project definition))
    { registry }

def load (registry : Registry) (project : Project) : Change :=
  (registry.registerAll project.id project.definitions).andThen fun registry =>
    { registry
      events := [.projectLoaded project.id project.templates.length project.overrides.length] }

def loadAll (registry : Registry) (projects : List Project) : Change :=
  projects.foldl (fun change project => change.andThen (·.load project)) { registry }

def clear (_registry : Registry) : Change := { registry := empty, events := [.templatesCleared] }

/-- The template under an identifier, in one project or in the first project that has it. -/
def find? (registry : Registry) (id : Text) (project? : Option Text) : Option Template :=
  match project? with
  | some project => registry.template? project id
  | none => registry.projects.findSome? fun entry => entry.2.get? id

end Registry

end Barcode

import Barcode.Document.Plain
import Barcode.Fault.Basic
import Barcode.Table

/-!
# Projects

A project is a tenant with code templates and price overrides. A document describes one
project, a list of projects, or an object with a list of projects. It is accepted by its shape
alone: identifiers and templates of any kind are taken by their plain text, and the optional
members of an override are passed on as they are. Values that are deeper than a reader gives them,
whose plain text the stack may not hold, are left out of account.
-/

namespace Barcode

open Document (Value)

structure Definition where
  id : Text
  template : Text
  deriving DecidableEq, Repr

/-- A price override: a template that marks a code as reduced, the template by which its
product is looked up, and the template and the code from which the code to send onward is
built. The last three may be any value; null stands for none. -/
structure Override where
  id : Text
  template : Text
  lookupTemplate : Value := .null
  transmissionTemplate : Value := .null
  transmissionCode : Value := .null

/-- The templates and price overrides of a tenant. -/
structure Project where
  id : Text
  templates : List Definition := []
  overrides : List Override := []

/-- The value of a member, null without one. -/
def member (members : List (Text × Value)) (name : String) : Value :=
  (Table.get? members name.toList).getD .null

def Override.ofDocument (document : Value) : Except MetadataError Override :=
  match document with
  | .object members =>
    match Table.get? members "id".toList, Table.get? members "template".toList with
    | some id, some template => .ok {
        id := id.plain
        template := template.plain
        lookupTemplate := member members "lookupTemplate"
        transmissionTemplate := member members "transmissionTemplate"
        transmissionCode := member members "transmissionCode" }
    | _, _ => .error (.invalidOverride document)
  | _ => .error (.invalidOverride document)

namespace Project

def templatesOf (value : Value) : Except MetadataError (List Definition) :=
  if value.isEmpty then .ok []
  else
    match value with
    | .object members => .ok (members.map fun (name, template) => ⟨name, template.plain⟩)
    | _ => .error .templatesNotObject

/-- The price overrides of a document's member, not read yet, none without content. -/
def overridesOf (value : Value) : Except MetadataError (List Value) :=
  if value.isEmpty then .ok []
  else
    match value with
    | .list items => .ok items
    | _ => .error .overridesNotList

def ofDocument (document : Value) : Except MetadataError Project :=
  match document with
  | .object members =>
    match Table.get? members "id".toList with
    | some id => do
      let templates ← templatesOf (member members "codeTemplates")
      let overrides ← overridesOf (member members "priceOverrideCodes")
      return { id := id.plain, templates, overrides := ← overrides.mapM Override.ofDocument }
    | none => .error .notProject
  | _ => .error .notProject

/-- The list of projects inside a document: its member "projects" if it has one, and a single
object in a list of its own. -/
def unwrap (document : Value) : Option (List Value) :=
  let inner :=
    match document with
    | .object members => (Table.get? members "projects".toList).getD document
    | _ => document
  match inner with
  | .object _ => some [inner]
  | .list items => some items
  | _ => none

def listOfDocument (document : Value) : Except MetadataError (List Project) :=
  match unwrap document with
  | some documents => documents.mapM ofDocument
  | none => .error .notProjects

def builtinTemplates : List Definition :=
  [("ean13_instore", "2[code:5][_][embed:5][ec]"),
   ("ean13_instore_chk", "2[code:5][i][embed:5][ec]"),
   ("german_print", "4[code:2][_:5][embed:4][ec]"),
   ("ean14_code128", "01[code:ean14]"),
   ("ikea_itf14", "[code:8][_:6]"),
   ("default", "[code:*]")].map fun (id, template) => ⟨id.toList, Text.withBraces template⟩

def builtin (id : Text) : Project := { id, templates := builtinTemplates }

end Project

end Barcode

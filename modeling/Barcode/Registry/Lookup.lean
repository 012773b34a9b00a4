import Barcode.Registry.Basic
import Barcode.Template.Embedding

/-!
# Looking codes up

A code is read along every template of a project. A price override applies when its own
template reads the code; overrides are tried in the given order and the first one that applies
wins. The code that is sent onward is built from the override's transmission template, its
transmission code and the payload of the scanned code, when all three are there.
-/

namespace Barcode

open Document (Value)

/-- Reads a code along a template, reporting a rejection. -/
def Template.readTraced (template : Template) (code : Text) : Traced (Option Reading) := do
  match ← Traced.ofExcept (template.read code) with
  | .unmatched => return none
  | .accepted reading => return some reading
  | .rejected flaws =>
    Traced.emit (.matchRejected template.id code (flaws.map Reading.report))
    return none

/-- Builds an in-store EAN-13 with a short code of any kind. A value without a length fits no
code field, and one of the right length that is no text cannot become part of a code. -/
def Template.synthesizeWith (template : Template) (code : Value) (data : Int) :
    Except Fault (Option Ean.Code) :=
  let place := template.fields.findIdx fun
    | .code _ => true
    | _ => false
  let partsBefore := (template.fields.take place).countP fun
    | .literal _ | .payloadCheck | .embed _ | .skip (some _) => true
    | _ => false
  let withLength (length : Nat) : Except Fault (Option Ean.Code) := do
    if (← Template.payloadText? data).isNone then return none
    if template.fields.any (Template.misfits length) then return none
    if template.fields.any Template.isPayload && place < template.fields.length then
      throw (.partNotText partsBefore code.kind)
    template.synthesize [] data
  match code with
  | .text t => template.synthesize t data
  | .list items => withLength items.length
  | .object members => withLength members.length
  | _ => do
    if (← Template.payloadText? data).isSome && place < template.fields.length then
      throw (.noLength code.kind)
    template.synthesize [] data

/-- What a price override makes of a code. -/
structure OverrideLookup where
  /-- The code by which the product is looked up. -/
  lookupCode : Text
  /-- The template by which the product is looked up. -/
  lookupTemplate : Value
  /-- The code to send onward. -/
  transmissionCode : Value
  embeddedData : Option Int

namespace Registry

/-- All readings of a code along the templates of a project, in the order of the templates. -/
def readings (registry : Registry) (code project : Text) : Traced (List Reading) := do
  let found ← (registry.templates project).mapM fun entry => entry.2.readTraced code
  return found.reduceOption

/-- The template under an identifier of any kind. Only texts are identifiers of templates, and
lists and objects are no identifiers at all. -/
def findByValue (registry : Registry) (id : Value) (project? : Option Text) :
    Except Fault (Option Template) :=
  match id with
  | .text t => .ok (registry.find? t project?)
  | .list _ | .object _ =>
    if project?.isSome || !registry.projects.isEmpty then .error (.notIdentifier id.kind)
    else .ok none
  | _ => .ok none

def synthesize (registry : Registry) (id code : Value) (data : Int) (project? : Option Text) :
    Traced (Option Text) := do
  match ← Traced.ofExcept (registry.findByValue id project?) with
  | none =>
    Traced.emit (.templateNotFound id project?)
    return none
  | some template =>
    let built ← Traced.ofExcept (template.synthesizeWith code data)
    return built.map Ean.Code.text

def applyOverride (registry : Registry) (reading : Reading) (override : Override)
    (project : Text) : Traced OverrideLookup := do
  let embeddedData ← Traced.ofExcept reading.embeddedData
  let transmissionCode ←
    match embeddedData with
    | some data =>
      if override.transmissionTemplate.isNull || override.transmissionCode.isNull then
        pure override.transmissionCode
      else do
        let code ← registry.synthesize override.transmissionTemplate override.transmissionCode
          data (some project)
        pure (Value.ofText? code)
    | none => pure override.transmissionCode
  return {
    lookupCode := reading.lookupCode
    lookupTemplate := override.lookupTemplate
    transmissionCode
    embeddedData }

/-- The first override in order whose own template reads the code. -/
def firstOverride (registry : Registry) (code project : Text) :
    List Override → Traced (Option OverrideLookup)
  | [] => return none
  | override :: rest => do
    match registry.template? project override.id with
    | none => registry.firstOverride code project rest
    | some template =>
      match ← template.readTraced code with
      | none => registry.firstOverride code project rest
      | some reading => return some (← registry.applyOverride reading override project)

/-- What price overrides make of a code. Nothing is tried without overrides, be there no list of
them or an empty one, nor in a project without templates. -/
def lookupOverride (registry : Registry) (code project : Text)
    (overrides? : Option (List Override)) : Traced (Option OverrideLookup) :=
  match overrides? with
  | none | some [] => return none
  | some overrides =>
    if (registry.templates project).isEmpty then return none
    else registry.firstOverride code project overrides

def embed (registry : Registry) (project id code : Text) (data : Int) : Traced (Option Text) := do
  match registry.template? project id with
  | none => return none
  | some template =>
    match ← template.readTraced code with
    | none => return none
    | some reading => Traced.ofExcept (reading.embed data)

end Registry

end Barcode

import Barcode.CommandLine.Call
import Barcode.Fault.Message
import Barcode.Project.Source
import Barcode.Report

/-!
# Running a command

A command ends with a status and with what it writes to its two outputs. It reads at most one
file, the metadata with the templates, and without one it uses the built-in templates. A
template text is checked without any template being loaded.
-/

namespace Barcode.CommandLine

open Document (Value)

structure Ending where
  status : Nat
  output : Text := []
  errors : Text := []
  deriving DecidableEq, Repr

namespace Ending

def lines (success : Bool) (lines : List Text) : Ending :=
  { status := if success then 0 else 1, output := lines.flatMap (· ++ ['\n']) }

def complaint (status : Nat) (line : Text) : Ending := { status, errors := line ++ ['\n'] }

end Ending

/-- The identifier that an argument gives. A list stands for one that is withheld. -/
def identifier : Option Text → Except Fault Text
  | some id => .ok id
  | none => .error (.notIdentifier .list)

def padded (width : Nat) (t : Text) : Text := t.rightpad width ' '

def readingLines (reading : Reading) : Except Fault (List Text) := do
  let data ←
    match ← reading.embeddedData with
    | some i => pure ["  Embedded Data: ".toList ++ (← Text.Numeral.write i)]
    | none => pure []
  let decimal ←
    match ← Report.decimalText reading with
    | some t => pure ["  Embedded Decimal: ".toList ++ t]
    | none => pure []
  let price ←
    match ← reading.referencePrice with
    | some i => pure ["  Reference Price: ".toList ++ (← Text.Numeral.write i)]
    | none => pure []
  let head :=
    ["Template: ".toList ++ reading.template.id ++ " (".toList ++ reading.template.text ++ [')'],
     "  Lookup Code: ".toList ++ Text.Quoted.quote reading.lookupCode]
  let entries := reading.entries.map fun (field, slice) =>
    "    ".toList ++ padded 16 field.describe ++ ' ' :: Text.Quoted.quote slice
  return head ++ data ++ decimal ++ price ++ entries

def matchLines (code : Text) (readings : List Reading) : Except Fault (List Text) := do
  let rule := List.replicate 60 '='
  let described ← (Report.sorted readings).mapM readingLines
  return [rule, "Code Template Matches".toList, rule, "Code: ".toList ++ Text.Quoted.quote code,
      "Matches: ".toList ++ Text.ofNat readings.length, []]
    ++ described.flatMap (· ++ [[]])

def matchEnding (call : Call) (code : Text) (withFields : Bool) (readings : List Reading) :
    Except Fault Ending := do
  let success := !readings.isEmpty
  if call.json then return .lines success [← Report.json readings withFields]
  else
    let lines ← matchLines code readings
    return .lines success [['\n'].intercalate lines]

def runMatch (registry : Registry) (call : Call) (code : Text) (withFields : Bool) :
    Traced Ending := do
  let readings ← registry.readings code (← Traced.ofExcept (identifier call.project))
  Traced.ofExcept (matchEnding call code withFields readings)

/-- The code with a payload in it. A payload that is withheld is asked for by the first field
that takes one. -/
def embedGiven (reading : Reading) (payload : Option Int) : Except Fault (Option Text) :=
  match payload with
  | some data => reading.embed data
  | none => if reading.payloadSizes.isEmpty then .ok none else .error .noPayload

def embedEnding (call : Call) (reading : Reading) (payload : Option Int) :
    Except Fault Ending := do
  let embedded ← embedGiven reading payload
  if call.json then
    let members ← Report.members reading false
    let document := Value.object (members ++ [("Embedded Code".toList, .ofText? embedded)])
    return .lines embedded.isSome [← document.write .indented]
  else return .lines embedded.isSome [embedded.getD "Embedding failed".toList]

def runEmbed (registry : Registry) (call : Call) (template : Option Text) (code : Text)
    (payload : Option Int) : Traced Ending := do
  let project ← Traced.ofExcept (identifier call.project)
  let template ← Traced.ofExcept (identifier template)
  match registry.template? project template with
  | none => return .complaint 1 ("Unknown template: ".toList ++ template)
  | some found =>
    match ← found.readTraced code with
    | none =>
      let line := "Code does not match template ".toList ++ template ++ ':' :: ' ' :: code
      return .complaint 1 line
    | some reading => Traced.ofExcept (embedEnding call reading payload)

def createInstoreEnding (call : Call) (built : Option Text) : Except Fault Ending := do
  if call.json then
    let document := Value.object [("Code".toList, .ofText? built)]
    return .lines built.isSome [← document.write .indented]
  else return .lines built.isSome [built.getD "Cannot create in-store EAN".toList]

/-- Builds an in-store EAN-13. A template that is found asks for the payload before the short
code, so nothing else is asked of a call that withholds it. -/
def runCreateInstore (registry : Registry) (call : Call) (template : Text) (code : Option Text)
    (payload : Option Int) (anyProject : Bool) : Traced Ending := do
  let project? ←
    if anyProject then pure none
    else some <$> Traced.ofExcept (identifier call.project)
  if payload.isNone && (registry.find? template project?).isSome then
    Traced.ofExcept (.error .noPayload)
  let code := code.elim (Value.list []) .text
  let built ← registry.synthesize (.text template) code (payload.getD 0) project?
  Traced.ofExcept (createInstoreEnding call built)

def templateLines (template : Template) : List Text :=
  let length := template.expectedLength
  ["Template: ".toList ++ template.text,
   "Expected Length: ".toList ++ if length = 0 then "any".toList else Text.ofNat length]
  ++ template.fields.map fun field =>
    "  ".toList ++ padded 16 field.describe ++ " length=".toList ++ Text.ofNat field.width

def runCheck (call : Call) (id text : Text) : Except Fault Ending := do
  match Template.compile id text with
  | .ok template =>
    if call.json then
      let written ← (Value.object
        [("valid".toList, .bool true),
         ("expected_length".toList, .integer template.expectedLength),
         ("components".toList, .list (template.describe.map .text))]).write .indented
      return .lines true [written]
    else return .lines true (templateLines template)
  | .error (.grammar error) =>
    if call.json then
      let written ← (Value.object
        [("valid".toList, .bool false), ("error".toList, .text error.code.name.toList),
         ("message".toList, .text error.message.toList)]).write .indented
      return .lines false [written]
    else return .lines false ["Invalid template: ".toList ++ error.message.toList]
  | .error fault => throw fault

namespace Call

def file? (call : Call) : Option Text :=
  match call.task, call.source with
  | .check _ _, _ => none
  | _, .file path => some path
  | _, _ => none

/-- The projects whose templates a call uses, given the content of its file. -/
def projects (call : Call) (content : FileContent) : Except Fault (List Project) :=
  match call.task, call.source with
  | .check _ _, _ => .ok []
  | _, .builtin => (identifier call.project).map fun id => [Project.builtin id]
  | _, .file path => Project.listOfContent Document.Reader.nestingLimit path content
  | _, .nowhere => .ok []

def runOn (call : Call) (registry : Registry) : Traced Ending :=
  match call.task with
  | .matchCode code withFields => runMatch registry call code withFields
  | .embed template code payload => runEmbed registry call template code payload
  | .createInstore template code payload anyProject =>
    runCreateInstore registry call template code payload anyProject
  | .check id text => Traced.ofExcept (runCheck call id text)

/-- Carries out a call, given the content of its file. Without a log level nothing is done, and
metadata that is refused ends the call with status 2. -/
def run (call : Call) (content : FileContent) : Traced Ending :=
  if call.logLevel.isNone then .ofExcept (.error .noLevel)
  else
    match call.projects content with
    | .error (.metadata error) =>
      .ok (.complaint 2 ("Error: ".toList ++ error.message.toList))
    | .error fault => .ofExcept (.error fault)
    | .ok projects => do call.runOn (← (Registry.empty.loadAll projects).traced)

end Call

end Barcode.CommandLine

import Barcode.CommandLine.Gathered
import Barcode.Settings.Basic

/-!
# Calls

A call is what the arguments of the program ask for, with the settings for what they leave
open. A withheld value counts as the empty list, which is no identifier, no level and no
number, and which as metadata holds no project.
-/

namespace Barcode.CommandLine

/-- What a command is asked to do. The template, the short code and the payload are `none` when
they are withheld. -/
inductive Task where
  | matchCode (code : Text) (withFields : Bool)
  | embed (template : Option Text) (code : Text) (payload : Option Int)
  | createInstore (template : Text) (code : Option Text) (payload : Option Int)
    (anyProject : Bool)
  | check (id template : Text)
  deriving DecidableEq, Repr

inductive TemplateSource where
  | builtin
  | file (path : Text)
  | nowhere
  deriving DecidableEq, Repr

/-- A call of the program. The project and the level are `none` when they are withheld. -/
structure Call where
  task : Task
  project : Option Text
  source : TemplateSource
  json : Bool
  logLevel : Option Text
  deriving DecidableEq, Repr

namespace Gathered

def task? (verb : Verb) (gathered : Gathered) : Option Task :=
  match verb, gathered.positionals with
  | .matchCode, [some code] => some (.matchCode code (gathered.flags.contains .fields))
  | .embed, [some code, _] => (gathered.value? .template).map fun template =>
    .embed template code gathered.payload
  | .createInstore, [some template, code, _] =>
    some (.createInstore template code gathered.payload (gathered.flags.contains .anyProject))
  | .check, [some template] =>
    some (.check ((gathered.value? .templateId).join.getD "check".toList) template)
  | _, _ => none

/-- Where the templates come from: from the file of the flag, or else from that of the
settings. -/
def source (settings : Settings) (gathered : Gathered) : TemplateSource :=
  match gathered.value? .templates, settings.templatesFile? with
  | some (some path), _ => .file (Text.PathName.normalize path)
  | some none, _ => .nowhere
  | none, some path => .file path
  | none, none => .builtin

end Gathered

def parseCommand (settings : Settings) (verb : Verb) (arguments : List Text) :
    Except Usage (Call × Bool) := do
  let gathered ← gather verb (← classifyAll verb.flags arguments) {}
  match gathered.task? verb with
  | none => throw .wrong
  | some task =>
    let call : Call := {
      task
      project := (gathered.value? .project).getD (some settings.defaultProject)
      source := gathered.source settings
      json := gathered.flags.contains .json
      logLevel := (gathered.value? .logLevel).getD (some settings.logLevel) }
    return (call, gathered.surplus)

/-- The call that arguments denote. Before the command only a request for help is known. -/
def parse (settings : Settings) : List Text → Except Usage Call
  | [] => .error .wrong
  | t :: rest => do
    match ← classify [.help] t with
    | .plain name =>
      match Verb.ofName? name with
      | none => throw .wrong
      | some verb =>
        let (call, surplus) ← parseCommand settings verb rest
        if surplus then throw .wrong else return call
    | .flag _ none => throw .help
    | .flag _ (some _) => throw .wrong
    | .unknown => do
      discard (parse settings rest)
      throw .wrong
    | .mark => throw .wrong

end Barcode.CommandLine

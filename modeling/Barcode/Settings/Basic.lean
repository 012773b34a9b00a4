import Barcode.Fault.Basic
import Barcode.Settings.EnvFile
import Barcode.Text.PathName

/-!
# Settings

The program's defaults come from environment variables whose names begin with
`CODE_TEMPLATES_`, and from the bindings of an environment file for those that the
environment leaves out. Case does not count in names; of several spellings the last one wins.
-/

namespace Barcode

structure Settings where
  logLevel : Text := "INFO".toList
  logJson : Bool := false
  /-- The metadata file with the templates, none for the built-in ones. -/
  templatesFile? : Option Text := none
  defaultProject : Text := []
  deriving DecidableEq, Repr

namespace Settings

abbrev Variables := Table Text (Option Text)

/-- Variables under their names in lower case, the last spelling of each. -/
def foldCase (bindings : List (Text × Option Text)) : Variables :=
  bindings.foldl (fun folded (name, value) => folded.put (name.map Char.toLower) value) []

def readBool? (t : Text) : Option Bool :=
  let word := String.ofList (t.map Char.toLower)
  if ["1", "true", "t", "yes", "y", "on"].contains word then some true
  else if ["0", "false", "f", "no", "n", "off"].contains word then some false
  else none

/-- The value of a setting: from the environment, or else from the environment file. -/
def value? (environment file : Variables) (name : String) : Option Text :=
  let key := ("code_templates_" ++ name).toList
  match environment.get? key with
  | some (some value) => some value
  | _ => (file.get? key).join

/-- The settings that variables give. A truth value must be one of the known words. -/
def ofVariables (environment file : Variables) : Except Fault Settings := do
  let logJson ←
    match value? environment file "log_json" with
    | none => pure false
    | some t =>
      match readBool? t with
      | some b => pure b
      | none => throw .invalidSetting
  return {
    logLevel := (value? environment file "log_level").getD "INFO".toList
    logJson
    templatesFile? := (value? environment file "templates_file").map Text.PathName.normalize
    defaultProject := (value? environment file "default_project").getD [] }

/-- The settings from the environment and the content of the environment file, if there is
one, which must be UTF-8. -/
def read (environment : List (Text × Text)) (file? : Option ByteArray) :
    Except Fault Settings := do
  let file ←
    match file? with
    | none => pure []
    | some bytes =>
      match String.fromUTF8? bytes with
      | some s => pure (EnvFile.read environment s.toList)
      | none => throw .notUtf8
  ofVariables (foldCase (environment.map fun (n, v) => (n, some v))) (foldCase file)

end Settings

end Barcode

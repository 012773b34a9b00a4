import Barcode.CommandLine.Run
import Barcode.Registry.Log

/-!
# The program

Reads the settings, understands the arguments, reads the file of the call, and writes the log
and what the call ends with. Everything is decided by `CommandLine`; only the reading and the
writing are done here.
-/

namespace Barcode.Main

open CommandLine (Call Ending)

def environmentFile : String := ".env"

/-- The variables that settings are read from, in both usual spellings. -/
def settingNames : List String :=
  ["LOG_LEVEL", "LOG_JSON", "TEMPLATES_FILE", "DEFAULT_PROJECT"].flatMap fun name =>
    ["code_templates_" ++ name.map Char.toLower, "CODE_TEMPLATES_" ++ name]

def readEnvironment : IO (List (Text × Text)) := do
  let found ← settingNames.mapM fun name => do
    return (← IO.getEnv name).map fun value => (name.toList, value.toList)
  return found.reduceOption

def readFile (path : Text) : IO FileContent := do
  try
    return .ok (← IO.FS.readBinFile (String.ofList path))
  catch
    | .noFileOrDirectory .. => return .error .missing
    | _ => return .error .inaccessible

def readEnvironmentFile : IO (Option ByteArray) := do
  match ← readFile environmentFile.toList with
  | .ok bytes => return some bytes
  | .error _ => return none

def writeLog (settings : Settings) (call : Call) (events : List Event) : IO Unit :=
  for event in Log.kept (Log.threshold (call.logLevel.getD [])) events do
    IO.eprintln (String.ofList (Log.line settings.logJson event))

def finish (ending : Ending) : IO UInt32 := do
  IO.print (String.ofList ending.output)
  IO.eprint (String.ofList ending.errors)
  return ending.status.toUInt32

/-- Shows how the program is called: on the output when that was asked for. -/
def explain (usage : CommandLine.Usage) : IO UInt32 := do
  let text := "\n".intercalate CommandLine.Usage.overview
  match usage with
  | .help => IO.println text
  | .wrong => IO.eprintln text
  return usage.status.toUInt32

def complain (fault : Fault) : IO UInt32 := do
  IO.eprintln ("Error: " ++ fault.message)
  return 1

end Barcode.Main

open Barcode Barcode.Main in
def main (arguments : List String) : IO UInt32 := do
  match Settings.read (← readEnvironment) (← readEnvironmentFile) with
  | .error fault => complain fault
  | .ok settings =>
    match CommandLine.parse settings (arguments.map String.toList) with
    | .error usage => explain usage
    | .ok call =>
      let content ←
        match call.file? with
        | some path => readFile path
        | none => pure (.error .missing)
      let traced := call.run content
      writeLog settings call traced.events
      match traced.outcome with
      | .error fault => complain fault
      | .ok ending => finish ending

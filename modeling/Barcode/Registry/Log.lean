import Barcode.Document.Plain
import Barcode.Document.Writer
import Barcode.Registry.Traced

/-!
# Logs

A log keeps the events from a severity on, each on a line of its own: as a JSON object, or as
the level, the name and the values of the event.
-/

namespace Barcode.Log

open Document (Value)

/-- The severities by name, those of no event included. -/
def thresholds : List (String × Nat) :=
  [("NOTSET", 0), ("DEBUG", 10), ("INFO", 20), ("WARN", 30), ("WARNING", 30), ("ERROR", 40),
   ("CRITICAL", 50), ("FATAL", 50)]

/-- The capital of a letter in the name of a threshold. The dotless i and the long s have
ASCII capitals as well. -/
def capital (c : Char) : Char :=
  if c = 'ı' then 'I' else if c = 'ſ' then 'S' else c.toUpper

/-- The severity from which events are kept. Case is ignored, and a name that is no level
stands for `INFO`. -/
def threshold (name : Text) : Nat :=
  ((thresholds.find? fun entry => entry.1.toList = name.map capital).map Prod.snd).getD 20

def kept (threshold : Nat) (events : List Event) : List Event :=
  events.filter fun event => threshold ≤ event.level.severity

def document (event : Event) : Value :=
  .object ((("event", .text event.name.toList) :: ("level", .text event.level.name.toList)
    :: event.details).map fun (name, value) => (name.toList, value))

def plainLine (event : Event) : Text :=
  event.level.name.toList ++ ": ".toList ++ event.name.toList
    ++ event.details.flatMap fun (name, value) => ' ' :: name.toList ++ '=' :: value.shown

/-- An event on a line. A number that is too long for JSON makes the whole line plain. -/
def line (json : Bool) (event : Event) : Text :=
  if json then ((document event).write .compact).toOption.getD (plainLine event)
  else plainLine event

end Barcode.Log

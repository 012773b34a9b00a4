import Barcode.Document.Value
import Barcode.Template.GrammarError

/-!
# Events

What a registry reports about its work. Every event has a name, a level and the values that
belong to it, so events are kept as data and a log is made of them afterwards.
-/

namespace Barcode

open Document (Value)

/-- The levels of events, from the least to the most severe. -/
inductive Level where
  | debug | info | warning
  deriving DecidableEq, Repr

namespace Level

def name : Level → String
  | .debug => "debug"
  | .info => "info"
  | .warning => "warning"

def severity : Level → Nat
  | .debug => 10
  | .info => 20
  | .warning => 30

end Level

inductive Event where
  | templateRegistered (project id : Text)
  /-- A template text has been refused. -/
  | invalidTemplateIgnored (project id text : Text) (error : GrammarError)
  | projectLoaded (project : Text) (templates overrides : Nat)
  | templatesCleared
  /-- No template has an identifier, in one project or in all of them. -/
  | templateNotFound (id : Value) (project? : Option Text)
  /-- A code has been split along a template and then rejected. -/
  | matchRejected (id code : Text) (errors : List String)

namespace Event

def name : Event → String
  | .templateRegistered _ _ => "template_registered"
  | .invalidTemplateIgnored _ _ _ _ => "invalid_template_ignored"
  | .projectLoaded _ _ _ => "project_templates_loaded"
  | .templatesCleared => "templates_cleared"
  | .templateNotFound _ _ => "template_not_found"
  | .matchRejected _ _ _ => "template_match_rejected"

def level : Event → Level
  | .templateRegistered _ _ | .templateNotFound _ _ | .matchRejected _ _ _ => .debug
  | .projectLoaded _ _ _ | .templatesCleared => .info
  | .invalidTemplateIgnored _ _ _ _ => .warning

def details : Event → List (String × Value)
  | .templateRegistered project id => [("project_id", .text project), ("template_id", .text id)]
  | .invalidTemplateIgnored project id text error =>
    [("project_id", .text project), ("template_id", .text id), ("template", .text text),
     ("error", .text error.message.toList)]
  | .projectLoaded project templates overrides =>
    [("project_id", .text project), ("code_templates", .integer templates),
     ("price_override_codes", .integer overrides)]
  | .templatesCleared => []
  | .templateNotFound id project? => [("template_id", id), ("project_id", .ofText? project?)]
  | .matchRejected id code errors =>
    [("template_id", .text id), ("code", .text code),
     ("errors", .list (errors.map fun e => .text e.toList))]

end Event

end Barcode

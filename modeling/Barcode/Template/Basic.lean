import Barcode.Template.Grammar
import Barcode.Template.Pattern

/-!
# Templates

A template is a sequence of fields under an identifier, together with the text that it was
compiled from. Templates made from fields directly need not follow the grammar; their pattern
must still be expressible.
-/

namespace Barcode

structure Template where
  id : Text
  text : Text
  fields : List Field
  deriving DecidableEq, Repr

namespace Template

/-- The length of every code that can match, or 0 when a field of width 0 leaves it open. -/
def expectedLength (template : Template) : Nat :=
  if template.fields.any (·.width = 0) then 0
  else template.fields.foldr (fun field length => field.width + length) 0

def describe (template : Template) : List Text := template.fields.map Field.describe

def ofFields (id text : Text) (fields : List Field) : Except Fault Template := do
  Pattern.check fields
  return ⟨id, text, fields⟩

def compile (id text : Text) : Except Fault Template := do
  ofFields id text (← Grammar.compile text)

/-- The template that a text denotes, none if the text breaks the grammar. -/
def parse? (id text : Text) : Except Fault (Option Template) :=
  match compile id text with
  | .ok template => .ok (some template)
  | .error (.grammar _) => .ok none
  | .error fault => .error fault

end Template

end Barcode

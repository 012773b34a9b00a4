import Barcode.Template.Field
import Barcode.Text.Quoted

/-!
# Grammar errors

Why a template text denotes no template. Each cause carries the piece of text at fault, from
which its code and its message follow.
-/

namespace Barcode

inductive GrammarCode where
  | unknownToken | invalidLength | unbalancedBraces | emptyTemplate | duplicateComponent
  | missingEmbedField | misplacedChecksum
  deriving DecidableEq, Repr

def GrammarCode.name : GrammarCode → String
  | .unknownToken => "UNKNOWN_TOKEN"
  | .invalidLength => "INVALID_LENGTH"
  | .unbalancedBraces => "UNBALANCED_BRACES"
  | .emptyTemplate => "EMPTY_TEMPLATE"
  | .duplicateComponent => "DUPLICATE_COMPONENT"
  | .missingEmbedField => "MISSING_EMBED_FIELD"
  | .misplacedChecksum => "MISPLACED_CHECKSUM"

inductive GrammarError where
  | unknownName (name token : Text)
  | invalidLength (value token : Text)
  | invalidDecimal (token : Text)
  /-- An opening brace without a closing one. -/
  | unterminated (position : Nat) (rest : Text)
  /-- A closing brace without an opening one. -/
  | unexpectedClosing (position : Nat) (rest : Text)
  | empty
  | duplicates (purposes : List Purpose)
  /-- The check digit of a payload without a payload of five digits. -/
  | missingPayload
  /-- The EAN check digit before the end. -/
  | misplacedCheck
  deriving DecidableEq, Repr

namespace GrammarError

def code : GrammarError → GrammarCode
  | .unknownName _ _ => .unknownToken
  | .invalidLength _ _ | .invalidDecimal _ => .invalidLength
  | .unterminated _ _ | .unexpectedClosing _ _ => .unbalancedBraces
  | .empty => .emptyTemplate
  | .duplicates _ => .duplicateComponent
  | .missingPayload => .missingEmbedField
  | .misplacedCheck => .misplacedChecksum

/-- The piece of template text at fault; rules on the whole template have none. -/
def token? : GrammarError → Option Text
  | .unknownName _ token | .invalidLength _ token | .invalidDecimal token => some token
  | .unterminated _ rest | .unexpectedClosing _ rest => some rest
  | _ => none

def reason : GrammarError → String
  | .unknownName name _ => "Unknown token name " ++ String.ofList (Text.Quoted.quote name)
  | .invalidLength value _ =>
    "Length must be a positive integer, got " ++ String.ofList (Text.Quoted.quote value)
  | .invalidDecimal _ => "Embed field must be '<n>' or '<int>.<frac>'"
  | .unterminated position _ => "Unterminated token at position " ++ toString position
  | .unexpectedClosing position _ =>
    String.ofList (Text.withBraces "Unexpected ']' at position ") ++ toString position
  | .empty => "Template is empty"
  | .duplicates purposes =>
    "Components may occur only once: " ++ ", ".intercalate (purposes.map Purpose.name)
  | .missingPayload => String.ofList (Text.withBraces "[i] requires an [embed:5] field")
  | .misplacedCheck => String.ofList (Text.withBraces "[ec] must be the last component")

/-- The class in brackets, the reason, and the quoted text at fault if there is one. -/
def message (error : GrammarError) : String :=
  let head := "[" ++ error.code.name ++ "] " ++ error.reason
  match error.token? with
  | some token => head ++ ": " ++ String.ofList (Text.Quoted.quote token)
  | none => head

end GrammarError

end Barcode

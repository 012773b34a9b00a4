import Barcode.Template.GrammarError

/-!
# Tokens of a template text

A template text is cut into literal runs, which hold no brace and are as long as possible, and
bracketed tokens, which reach from an opening brace to the first closing one. A scan keeps the
tokens before a stray or unterminated brace together with the error, so that a fault inside an
earlier token can be reported first.
-/

namespace Barcode

/-- A piece of a template text and its place, counted from 0. -/
structure Token where
  text : Text
  bracketed : Bool
  position : Nat
  deriving DecidableEq, Repr

/-- The tokens from left to right, and the error at which the scan ended early. -/
structure Scan where
  tokens : List Token
  error? : Option GrammarError
  deriving DecidableEq, Repr

namespace Scan

def cons (token : Token) (scan : Scan) : Scan := ⟨token :: scan.tokens, scan.error?⟩

end Scan

namespace Token

def isLiteral (c : Char) : Bool := c != '{' && c != '}'

def isInside (c : Char) : Bool := c != '}'

theorem length_dropWhile_le (p : Char → Bool) (t : Text) :
    (t.dropWhile p).length ≤ t.length := (List.dropWhile_sublist p).length_le

/-- The tokens of a text that begins at `position`. -/
def scanFrom (position : Nat) (t : Text) : Scan :=
  match t with
  | [] => ⟨[], none⟩
  | c :: rest =>
    if c = '}' then ⟨[], some (.unexpectedClosing position (c :: rest))⟩
    else if c = '{' then
      match _h : rest.dropWhile isInside with
      | [] => ⟨[], some (.unterminated position (c :: rest))⟩
      | close :: after =>
        let text := c :: rest.takeWhile isInside ++ [close]
        (scanFrom (position + text.length) after).cons ⟨text, true, position⟩
    else
      let text := c :: rest.takeWhile isLiteral
      (scanFrom (position + text.length) (rest.dropWhile isLiteral)).cons ⟨text, false, position⟩
termination_by t.length
decreasing_by
  · have := length_dropWhile_le isInside rest
    rw [_h] at this
    simp only [List.length_cons] at this ⊢
    omega
  · have := length_dropWhile_le isLiteral rest
    simp only [List.length_cons]
    omega

def scan (t : Text) : Scan := scanFrom 0 t

def tokenize (t : Text) : Except GrammarError (List Token) :=
  match (scan t).error? with
  | some error => .error error
  | none => .ok (scan t).tokens

end Token

end Barcode

import Barcode.Table
import Barcode.Text.Basic
import Barcode.Text.Blank

/-!
# Environment files

An environment file binds names to values, one binding to a line, with comments and blank
lines between them. A line may begin with the word `export`; a value may stand in single or
double quotes, which may span lines, and a name without `=` is bound to nothing. Outside of
quotes a value ends where a comment begins, which is at a `#` after a blank. A line that breaks
these rules, such as one with an open quote, is passed over.

Inside a value, `${NAME}` stands for the value of a name bound earlier or in the environment,
and `${NAME:-text}` for that text when there is none.
-/

namespace Barcode.EnvFile

open Text.Blank (isBlank isInlineBlank trimEnd)

abbrev Binding := Text × Option Text

def unifyLines : Text → Text
  | '\r' :: '\n' :: rest => '\n' :: unifyLines rest
  | '\r' :: rest => '\n' :: unifyLines rest
  | c :: rest => c :: unifyLines rest
  | [] => []

def skipInline (t : Text) : Text := t.dropWhile isInlineBlank

def inLine (c : Char) : Bool := c != '\n'

def skipLine (t : Text) : Text := (t.dropWhile inLine).drop 1

/-- The text after the word `export` and the blanks that must follow it. -/
def skipExport (t : Text) : Text :=
  match t with
  | 'e' :: 'x' :: 'p' :: 'o' :: 'r' :: 't' :: c :: rest =>
    if isInlineBlank c then skipInline rest else t
  | _ => t

/-- Reads a name: between single quotes, or up to a blank, `=` or `#`. Before a comment there
is none. The outer option is empty when the line breaks the rules. -/
def readName (t : Text) : Option (Option Text × Text) :=
  match t with
  | '#' :: _ => some (none, t)
  | '\'' :: rest =>
    let name := rest.takeWhile (· != '\'')
    match rest.dropWhile (· != '\'') with
    | _ :: after => if name.isEmpty then none else some (some name, after)
    | [] => none
  | _ =>
    let inName (c : Char) : Bool := c != '=' && c != '#' && !isBlank c
    let name := t.takeWhile inName
    if name.isEmpty then none else some (some name, t.dropWhile inName)

/-- Cuts a text at its first quote. A backslash takes the character after it along, so an
escaped quote closes nothing. -/
def cutAtQuote (quote : Char) : Text → Option (Text × Text)
  | [] => none
  | '\\' :: c :: rest => (cutAtQuote quote rest).map fun (t, after) => ('\\' :: c :: t, after)
  | c :: rest =>
    if c = quote then some ([], rest)
    else (cutAtQuote quote rest).map fun (t, after) => (c :: t, after)

def singleEscape? (c : Char) : Option Char :=
  if c = '\\' || c = '\'' then some c else none

def doubleEscape? (c : Char) : Option Char :=
  match c with
  | '\\' => some '\\'
  | '\'' => some '\''
  | '"' => some '"'
  | 'a' => some '\x07'
  | 'b' => some '\x08'
  | 'f' => some '\x0c'
  | 'n' => some '\n'
  | 'r' => some '\r'
  | 't' => some '\t'
  | 'v' => some '\x0b'
  | _ => none

def unescape (escape? : Char → Option Char) : Text → Text
  | '\\' :: c :: rest =>
    match escape? c with
    | some e => e :: unescape escape? rest
    | none => '\\' :: unescape escape? (c :: rest)
  | c :: rest => c :: unescape escape? rest
  | [] => []

/-- A value without quotes, up to a comment that follows a blank. -/
def cutComment : Text → Text
  | [] => []
  | c :: rest =>
    if isBlank c && (rest.dropWhile isBlank).head? = some '#' then [] else c :: cutComment rest

/-- Reads the value after `=`, where a quote opens a value that has to be closed. Without one
the blanks after `=` are still there when the comment is cut, so a value may be nothing but a
comment. -/
def readValue (t : Text) : Option (Text × Text) :=
  match skipInline t with
  | '\'' :: rest => (cutAtQuote '\'' rest).map fun (v, after) => (unescape singleEscape? v, after)
  | '"' :: rest => (cutAtQuote '"' rest).map fun (v, after) => (unescape doubleEscape? v, after)
  | _ => some (skipInline (trimEnd (cutComment (t.takeWhile inLine))), t.dropWhile inLine)

/-- The text after a comment and the end of the line, if nothing else comes before it. -/
def endLine? (t : Text) : Option Text :=
  let rest := skipInline t
  match rest with
  | [] => some []
  | '\n' :: after => some after
  | '#' :: _ => some (skipLine rest)
  | _ => none

/-- Reads one line: a binding if it has one, and the text after the line. -/
def readLine (t : Text) : Option Binding × Text :=
  let t := skipExport t
  match readName t with
  | none => (none, skipLine t)
  | some (name, t) =>
    let t := skipInline t
    let (value?, t) : Option (Option Text) × Text :=
      match t with
      | '=' :: rest =>
        match readValue rest with
        | some (value, after) => (some (some value), after)
        | none => (none, rest)
      | _ => (some none, t)
    match value?, endLine? t with
    | some value, some after => (name.map (·, value), after)
    | _, _ => (none, skipLine t)

def readLines : Nat → Text → List Binding
  | 0, _ => []
  | fuel + 1, t =>
    match t.dropWhile isBlank with
    | [] => []
    | t =>
      let (binding?, rest) := readLine t
      binding?.toList ++ readLines fuel rest

/-- A piece of a value: text that stands for itself, or a reference to a name. -/
inductive Piece where
  | literal (c : Char)
  | reference (name : Text) (default : Text)
  deriving DecidableEq, Repr

/-- A reference, after its opening brace. -/
def readReference? (t : Text) : Option (Piece × Text) :=
  let inName (c : Char) : Bool := c != '}' && c != ':'
  let name := t.takeWhile inName
  match t.dropWhile inName with
  | '}' :: rest => some (.reference name [], rest)
  | ':' :: '-' :: rest =>
    match rest.dropWhile (· != '}') with
    | _ :: after => some (.reference name (rest.takeWhile (· != '}')), after)
    | [] => none
  | _ => none

def pieces : Nat → Text → List Piece
  | 0, _ => []
  | _, [] => []
  | fuel + 1, c :: rest =>
    match c, rest with
    | '$', '{' :: inside =>
      match readReference? inside with
      | some (piece, after) => piece :: pieces fuel after
      | none => .literal c :: pieces fuel rest
    | _, _ => .literal c :: pieces fuel rest

/-- A value with its references replaced. A name that is bound to nothing stands for the
empty text. -/
def expand (known : Table Text (Option Text)) (value : Text) : Text :=
  (pieces value.length value).flatMap fun
    | .literal c => [c]
    | .reference name default =>
      match known.get? name with
      | some bound => bound.getD []
      | none => default

/-- Replaces the references in bindings one after another. Earlier bindings win over the
environment. -/
def resolve (environment : List (Text × Text)) (bindings : List Binding) :
    Table Text (Option Text) :=
  bindings.foldl (fun bound (name, value?) =>
    bound.put name (value?.map (expand (bound ++ environment.map fun (n, v) => (n, some v))))) []

/-- The text after a byte order mark, of which a file may have one at its start. -/
def skipMark : Text → Text
  | '\ufeff' :: rest => rest
  | t => t

/-- The names that the text of an environment file binds, each with its last value. -/
def read (environment : List (Text × Text)) (t : Text) : Table Text (Option Text) :=
  let t := unifyLines (skipMark t)
  resolve environment (readLines (t.length + 1) t)

end Barcode.EnvFile

import Barcode.CommandLine.Verb
import Barcode.Text.DecimalDigit

/-!
# Arguments

A command is followed by its positional arguments and its flags in any order. A flag may be
shortened as long as no other flag of the command begins the same way, and takes its value
from the next argument or after `=`. After the mark `--` every argument is positional, and so
is one that looks like a negative number or holds a space without naming a flag.
-/

namespace Barcode.CommandLine

inductive Argument where
  /-- A positional argument, or the value of the flag before it. -/
  | plain (t : Text)
  /-- The mark after which every argument is positional. -/
  | mark
  /-- A flag, its value given in the same argument if there is one. -/
  | flag (flag : Flag) (value? : Option Text)
  | unknown
  deriving DecidableEq, Repr

def mark : Text := ['-', '-']

/-- A minus sign and digits, with at most one point before a digit. A line feed may follow. -/
def isNegativeNumber (t : Text) : Bool :=
  let isDigit := Text.DecimalDigit.isDecimalDigit
  match t with
  | '-' :: body =>
    let body := if body.getLast? = some '\n' then body.dropLast else body
    match body.dropWhile isDigit with
    | [] => !body.isEmpty
    | '.' :: decimals => !decimals.isEmpty && decimals.all isDigit
    | _ => false
  | _ => false

/-- Whether an argument that begins with `-h` asks for help, by what follows: nothing or the
same letter again, and after `=` at least one of it. -/
def asksHelp (letters : Text) : Bool :=
  match letters with
  | '=' :: rest => !rest.isEmpty && rest.all (· == 'h')
  | _ => letters.all (· == 'h')

def classify (flags : List Flag) (t : Text) : Except Usage Argument :=
  match t with
  | ['-', '-'] => .ok .mark
  | '-' :: '-' :: rest =>
    let name := t.takeWhile (· != '=')
    let value? := if t.contains '=' then some ((t.dropWhile (· != '=')).drop 1) else none
    match flags.find? fun flag => flag.spelling = name with
    | some flag => .ok (.flag flag value?)
    | none =>
      match flags.filter fun flag => name.isPrefixOf flag.spelling with
      | [flag] => .ok (.flag flag value?)
      | [] => .ok (if rest.contains ' ' then .plain t else .unknown)
      | _ => .error .wrong
  | '-' :: 'h' :: letters => .ok (.flag .help (if asksHelp letters then none else some letters))
  | '-' :: _ :: _ =>
    .ok (if isNegativeNumber t || t.contains ' ' then .plain t else .unknown)
  | _ => .ok (.plain t)

def classifyAll (flags : List Flag) : List Text → Except Usage (List Argument)
  | [] => .ok []
  | t :: rest => do
    match ← classify flags t with
    | .mark => return .mark :: rest.map .plain
    | argument => return argument :: (← classifyAll flags rest)

end Barcode.CommandLine

import Barcode.Document.Value
import Barcode.Number.Shortest
import Barcode.Text.Numeral
import Barcode.Text.Quoted

/-!
# Writing JSON

A value is written with its members in order. Texts keep every character but the quote, the
backslash and the control characters, which are escaped. In the indented layout every item and
member has a line of its own, two spaces deeper than its list or object; in the compact one
the whole value is one line without spaces. Integers of more than 4300 digits are not written.
-/

namespace Barcode.Document

inductive Layout where
  | indented | compact
  deriving DecidableEq, Repr

def Layout.gap (layout : Layout) (depth : Nat) : Text :=
  match layout with
  | .indented => '\n' :: List.replicate (2 * depth) ' '
  | .compact => []

def Layout.colon : Layout → Text
  | .indented => [':', ' ']
  | .compact => [':']

namespace Value

def escaped (c : Char) : Text :=
  if c = '"' || c = '\\' then ['\\', c]
  else if c = '\n' then ['\\', 'n']
  else if c = '\r' then ['\\', 'r']
  else if c = '\t' then ['\\', 't']
  else if c = '\x0c' then ['\\', 'f']
  else if c = '\x08' then ['\\', 'b']
  else if c.toNat < 0x20 then '\\' :: 'u' :: Text.Quoted.hexadecimal 4 c.toNat
  else [c]

def quoted (t : Text) : Text := '"' :: t.flatMap escaped ++ ['"']

/-- A binary number; the numbers without digits have names. -/
def writtenReal : Number.Binary64 → Text
  | .nan => "NaN".toList
  | .infinite false => "Infinity".toList
  | .infinite true => "-Infinity".toList
  | x => x.text

mutual

def writeAt (layout : Layout) (depth : Nat) : Value → Except Fault Text
  | .null => .ok "null".toList
  | .bool true => .ok "true".toList
  | .bool false => .ok "false".toList
  | .integer i => Text.Numeral.write i
  | .real x => .ok (writtenReal x)
  | .text t => .ok (quoted t)
  | .list [] => .ok ['[', ']']
  | .list (item :: items) => do
    let body ← writeItems layout (depth + 1) (item :: items)
    return '[' :: body ++ layout.gap depth ++ [']']
  | .object [] => .ok ['{', '}']
  | .object (member :: members) => do
    let body ← writeMembers layout (depth + 1) (member :: members)
    return '{' :: body ++ layout.gap depth ++ ['}']

def writeItems (layout : Layout) (depth : Nat) : List Value → Except Fault Text
  | [] => .ok []
  | [item] => do
    let written ← writeAt layout depth item
    return layout.gap depth ++ written
  | item :: rest => do
    let written ← writeAt layout depth item
    let others ← writeItems layout depth rest
    return layout.gap depth ++ written ++ ',' :: others

def writeMembers (layout : Layout) (depth : Nat) : List (Text × Value) → Except Fault Text
  | [] => .ok []
  | [(name, value)] => do
    let written ← writeAt layout depth value
    return layout.gap depth ++ quoted name ++ layout.colon ++ written
  | (name, value) :: rest => do
    let written ← writeAt layout depth value
    let others ← writeMembers layout depth rest
    return layout.gap depth ++ quoted name ++ layout.colon ++ written ++ ',' :: others

end

def write (layout : Layout) (value : Value) : Except Fault Text := writeAt layout 0 value

end Value

end Barcode.Document

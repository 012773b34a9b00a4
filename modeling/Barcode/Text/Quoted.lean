import Barcode.Text.Basic
import Barcode.Text.Printable

/-!
# Quoted texts

A text is shown between single quotes, or between double quotes when it holds a single quote
and no double one. The quote in use, the backslash, line breaks and tabs are escaped by a
backslash, and a character without a visible form by its code point in hexadecimal.
-/

namespace Barcode.Text.Quoted

open Printable (isPrintable)

/-- The single quote, unless the text holds it and no double quote. -/
def quoteFor (t : Text) : Char :=
  if t.contains '\'' && !t.contains '"' then '"' else '\''

/-- The lower-case hexadecimal digits of a number, at least `width` of them. -/
def hexadecimal (width n : Nat) : Text := (Nat.toDigits 16 n).leftpad width '0'

def escape (quote c : Char) : Text :=
  if c = quote || c = '\\' then ['\\', c]
  else if c = '\n' then ['\\', 'n']
  else if c = '\r' then ['\\', 'r']
  else if c = '\t' then ['\\', 't']
  else if isPrintable c then [c]
  else if c.toNat < 0x100 then '\\' :: 'x' :: hexadecimal 2 c.toNat
  else if c.toNat < 0x10000 then '\\' :: 'u' :: hexadecimal 4 c.toNat
  else '\\' :: 'U' :: hexadecimal 8 c.toNat

def quote (t : Text) : Text :=
  let mark := quoteFor t
  mark :: t.flatMap (escape mark) ++ [mark]

end Barcode.Text.Quoted

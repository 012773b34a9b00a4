/-!
# Blank characters

Two sets of blanks: the characters of Unicode that separate words or lines, and the smaller
set that may surround a numeral, which leaves out the four ASCII information separators.
-/

namespace Barcode.Text.Blank

def wideBlanks : List Nat :=
  [0x85, 0xa0, 0x1680, 0x2000, 0x2001, 0x2002, 0x2003, 0x2004, 0x2005, 0x2006, 0x2007, 0x2008,
   0x2009, 0x200a, 0x2028, 0x2029, 0x202f, 0x205f, 0x3000]

/-- Tab, line feed, vertical tab, form feed, carriage return, space, and the wide blanks. -/
def aroundNumeral (c : Char) : Bool :=
  (9 ≤ c.toNat && c.toNat ≤ 13) || c = ' ' || wideBlanks.contains c.toNat

/-- Every blank, the information separators included. -/
def isBlank (c : Char) : Bool :=
  aroundNumeral c || (0x1c ≤ c.toNat && c.toNat ≤ 0x1f)

/-- Every blank that does not end a line by a carriage return or a line feed. -/
def isInlineBlank (c : Char) : Bool := isBlank c && c != '\r' && c != '\n'

def trimEnd (t : List Char) : List Char := (t.reverse.dropWhile isBlank).reverse

end Barcode.Text.Blank

import Barcode.Document.Value
import Barcode.Table
import Barcode.Text.Numeral

/-!
# Reading JSON

A JSON text is read from left to right in one pass, so the first thing wrong decides the
error. The reader of a part gives its value and the rest of the text. Beyond the standard,
`NaN`, `Infinity` and `-Infinity` are numbers; a repeated name keeps its first place and takes
its last value; integers of more than 4300 digits are refused, and so are documents that are nested
deeper than the caller allows.

The texts of a document are lists of characters, and half of a character is none. A text in which
one is escaped without the other half is no misspelled text, but there is no value for it here. The
reader stops at the half with an error of its own and leaves open what becomes of the document.
-/

namespace Barcode.Document

inductive ReadError where
  | malformed
  | numeralTooLong (digits : Nat)
  | nestedTooDeeply
  /-- A text has half of a character, which no list of characters has. -/
  | halfCharacter
  deriving DecidableEq, Repr

namespace Reader

/-- The depth to which documents may be nested in a call of the program. Each level takes a frame of
the stack, and this many frames are left to the reader there; a caller that stands deeper in the
stack has fewer. -/
def nestingLimit : Nat := 990

def isSpace (c : Char) : Bool := c = ' ' || c = '\t' || c = '\n' || c = '\r'

def skipSpace (t : Text) : Text := t.dropWhile isSpace

def hexValue? (c : Char) : Option Nat :=
  if c.isDigit then some (c.toNat - '0'.toNat)
  else if 'a' ≤ c && c ≤ 'f' then some (c.toNat - 'a'.toNat + 10)
  else if 'A' ≤ c && c ≤ 'F' then some (c.toNat - 'A'.toNat + 10)
  else none

def hexNumber? (a b c d : Char) : Option Nat := do
  let a ← hexValue? a
  let b ← hexValue? b
  let c ← hexValue? c
  let d ← hexValue? d
  return ((a * 16 + b) * 16 + c) * 16 + d

/-- The character that stands for itself, or for a control character, after a backslash. -/
def simpleEscape? (c : Char) : Option Char :=
  match c with
  | '"' => some '"'
  | '\\' => some '\\'
  | '/' => some '/'
  | 'b' => some '\x08'
  | 'f' => some '\x0c'
  | 'n' => some '\n'
  | 'r' => some '\r'
  | 't' => some '\t'
  | _ => none

/-- The first half of a character beyond the basic plane. -/
def isHighHalf (n : Nat) : Bool := 0xd800 ≤ n && n < 0xdc00

/-- The second half of a character beyond the basic plane. -/
def isLowHalf (n : Nat) : Bool := 0xdc00 ≤ n && n < 0xe000

def joinHalves (high low : Nat) : Char :=
  Char.ofNat (0x10000 + (high - 0xd800) * 0x400 + (low - 0xdc00))

def cons (c : Char) : Except ReadError (Text × Text) → Except ReadError (Text × Text) :=
  Except.map fun (t, rest) => (c :: t, rest)

/-- A text whose opening quote has been read. -/
def readText : Text → Except ReadError (Text × Text)
  | [] => .error .malformed
  | '"' :: rest => .ok ([], rest)
  | '\\' :: 'u' :: a :: b :: c :: d :: '\\' :: 'u' :: e :: f :: g :: h :: rest =>
    match hexNumber? a b c d, hexNumber? e f g h with
    | some high, some low =>
      if isHighHalf high && isLowHalf low then cons (joinHalves high low) (readText rest)
      else if isHighHalf high || isLowHalf high then .error .halfCharacter
      else cons (Char.ofNat high) (readText ('\\' :: 'u' :: e :: f :: g :: h :: rest))
    | _, _ => .error .malformed
  | '\\' :: 'u' :: a :: b :: c :: d :: rest =>
    match hexNumber? a b c d with
    | some n =>
      if isHighHalf n || isLowHalf n then .error .halfCharacter
      else cons (Char.ofNat n) (readText rest)
    | none => .error .malformed
  | '\\' :: c :: rest =>
    match simpleEscape? c with
    | some e => cons e (readText rest)
    | none => .error .malformed
  | c :: rest =>
    if c.toNat < 0x20 || c = '\\' then .error .malformed else cons c (readText rest)

/-- The digits after a point, none without a point or without a digit after it. -/
def fraction (t : Text) : Text × Text :=
  match t with
  | '.' :: rest =>
    let digits := rest.takeWhile Char.isDigit
    if digits.isEmpty then ([], t) else (digits, rest.dropWhile Char.isDigit)
  | _ => ([], t)

def exponent (t : Text) : Option Int × Text :=
  match t with
  | e :: rest =>
    if e = 'e' || e = 'E' then
      let (negative, body) := Text.Numeral.splitSign rest
      let digits := body.takeWhile Char.isDigit
      if digits.isEmpty then (none, t)
      else
        let n := Text.toNat digits
        (some (if negative then -(n : Int) else n), body.dropWhile Char.isDigit)
    else (none, t)
  | [] => (none, t)

/-- The digits of the whole part of a number: a single zero, or a run without leading zero. -/
def whole? (t : Text) : Option (Text × Text) :=
  match t with
  | '0' :: rest => some (['0'], rest)
  | c :: _ =>
    if c.isDigit then some (t.takeWhile Char.isDigit, t.dropWhile Char.isDigit) else none
  | [] => none

/-- A number after its sign. It is an integer unless a fraction or an exponent follows. -/
def readNumber (negative : Bool) (t : Text) : Except ReadError (Value × Text) :=
  match whole? t with
  | none => .error .malformed
  | some (digits, rest) =>
    let (decimals, rest) := fraction rest
    let (power?, rest) := exponent rest
    if decimals.isEmpty && power?.isNone then
      if Text.Numeral.digitLimit < digits.length then .error (.numeralTooLong digits.length)
      else
        let n := Text.toNat digits
        .ok (.integer (if negative then -(n : Int) else n), rest)
    else
      let power := power?.getD 0 - decimals.length
      .ok (.real (Number.Binary64.ofDecimal negative (Text.toNat (digits ++ decimals)) power), rest)

def readWord? (t : Text) : Option (Value × Text) :=
  match t with
  | 'n' :: 'u' :: 'l' :: 'l' :: rest => some (.null, rest)
  | 't' :: 'r' :: 'u' :: 'e' :: rest => some (.bool true, rest)
  | 'f' :: 'a' :: 'l' :: 's' :: 'e' :: rest => some (.bool false, rest)
  | 'N' :: 'a' :: 'N' :: rest => some (.real .nan, rest)
  | 'I' :: 'n' :: 'f' :: 'i' :: 'n' :: 'i' :: 't' :: 'y' :: rest =>
    some (.real (.infinite false), rest)
  | '-' :: 'I' :: 'n' :: 'f' :: 'i' :: 'n' :: 'i' :: 't' :: 'y' :: rest =>
    some (.real (.infinite true), rest)
  | _ => none

def readAtom (t : Text) : Except ReadError (Value × Text) :=
  match readWord? t with
  | some (value, rest) => .ok (value, rest)
  | none =>
    match t with
    | '"' :: rest => (readText rest).map fun (s, rest) => (.text s, rest)
    | '-' :: rest => readNumber true rest
    | _ => readNumber false t

mutual

/-- A value at the beginning of a text. The depth counts the levels that may still be opened;
the fuel bounds the number of steps and never runs out before the text does. -/
def readValue (fuel depth : Nat) (t : Text) : Except ReadError (Value × Text) :=
  match fuel with
  | 0 => .error .malformed
  | fuel + 1 =>
    match t with
    | '[' :: rest =>
      match depth with
      | 0 => .error .nestedTooDeeply
      | depth + 1 =>
        match skipSpace rest with
        | ']' :: rest => .ok (.list [], rest)
        | rest => do
          let (items, rest) ← readItems fuel depth rest
          return (.list items, rest)
    | '{' :: rest =>
      match depth with
      | 0 => .error .nestedTooDeeply
      | depth + 1 =>
        match skipSpace rest with
        | '}' :: rest => .ok (.object [], rest)
        | rest => do
          let (members, rest) ← readMembers fuel depth rest
          return (.object (Table.ofPairs members), rest)
    | t => readAtom t

def readItems (fuel depth : Nat) (t : Text) : Except ReadError (List Value × Text) :=
  match fuel with
  | 0 => .error .malformed
  | fuel + 1 => do
    let (item, rest) ← readValue fuel depth t
    match skipSpace rest with
    | ']' :: rest => return ([item], rest)
    | ',' :: rest =>
      let (items, rest) ← readItems fuel depth (skipSpace rest)
      return (item :: items, rest)
    | _ => throw .malformed

/-- The members of an object up to its closing brace, repeated names included. -/
def readMembers (fuel depth : Nat) (t : Text) : Except ReadError (List (Text × Value) × Text) :=
  match fuel with
  | 0 => .error .malformed
  | fuel + 1 =>
    match t with
    | '"' :: rest => do
      let (name, rest) ← readText rest
      match skipSpace rest with
      | ':' :: rest =>
        let (value, rest) ← readValue fuel depth (skipSpace rest)
        match skipSpace rest with
        | '}' :: rest => return ([(name, value)], rest)
        | ',' :: rest =>
          let (members, rest) ← readMembers fuel depth (skipSpace rest)
          return ((name, value) :: members, rest)
        | _ => throw .malformed
      | _ => throw .malformed
    | _ => .error .malformed

end

end Reader

open Reader in
/-- The value of a JSON text whose brackets are at most so deep. Every step but the last of each
value takes a character, so twice the length of the text bounds the steps. -/
def readWithin (depth : Nat) (t : Text) : Except ReadError Value := do
  let (value, rest) ← readValue (2 * t.length + 2) depth (skipSpace t)
  if (skipSpace rest).isEmpty then return value else throw .malformed

/-- The value of a JSON text in a call of the program. -/
def read (t : Text) : Except ReadError Value := readWithin Reader.nestingLimit t

end Barcode.Document

import Barcode.Text.Basic

/-!
# Path names

Two path names that differ in doubled slashes, in steps to the same directory or in a slash at
the end name the same file. The normal form has none of these. Two slashes at the beginning
are kept, three or more count as one, and the empty path is the current directory.
-/

namespace Barcode.Text.PathName

def parts (t : Text) : List Text :=
  match t with
  | [] => [[]]
  | c :: rest =>
    if c = '/' then [] :: parts rest
    else
      match parts rest with
      | [] => [[c]]
      | part :: more => (c :: part) :: more

/-- The slashes with which a normal path name begins. -/
def root (t : Text) : Text :=
  match (t.takeWhile (· == '/')).length with
  | 0 => []
  | 2 => ['/', '/']
  | _ => ['/']

/-- The parts that lead anywhere. -/
def steps (t : Text) : List Text := (parts t).filter fun part => part ≠ [] ∧ part ≠ ['.']

def normalize (t : Text) : Text :=
  let normal := root t ++ ['/'].intercalate (steps t)
  if normal.isEmpty then ['.'] else normal

end Barcode.Text.PathName

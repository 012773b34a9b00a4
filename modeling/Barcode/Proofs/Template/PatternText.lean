import Barcode.Proofs.Text.Digits
import Barcode.Template.Pattern

/-!
# Reading a pattern text

A pattern text is read like a regular expression: a backslash makes a symbol of the character
behind it, a parenthesis without one opens or closes a group, and the symbols of a group tell what
it takes. No literal gets out of its group, because everything in it that could end the group stands
behind a backslash. So the groups are those of the fields in order, the shape of each is read back,
and pattern texts are the same only for the same shapes.
-/

namespace Barcode.Pattern

/-- A character of a pattern text, by itself or behind a backslash. -/
inductive Symbol where
  | plain (c : Char)
  | escaped (c : Char)
  deriving DecidableEq, Repr

namespace Symbol

def char : Symbol → Char
  | plain c => c
  | escaped c => c

/-- The symbol stands for its character: a special one is escaped and no other. -/
def isLiteral : Symbol → Bool
  | plain c => !special.contains c
  | escaped c => special.contains c

/-- The symbol that stands for a character. -/
def literal (c : Char) : Symbol := if special.contains c then escaped c else plain c

theorem char_literal (c : Char) : (literal c).char = c := by
  unfold literal
  split <;> rfl

theorem isLiteral_literal (c : Char) : (literal c).isLiteral = true := by
  unfold literal
  split
  · next h => exact h
  · next h => simpa [isLiteral] using h

end Symbol

/-- The symbols of a text. A backslash at the end belongs to none. -/
def symbols? : Text → Option (List Symbol)
  | [] => some []
  | ['\\'] => none
  | '\\' :: c :: t => (symbols? t).map (.escaped c :: ·)
  | c :: t => (symbols? t).map (.plain c :: ·)

/-- The text without its backslashes. -/
def unescape? (t : Text) : Option Text := (symbols? t).map (·.map Symbol.char)

/-- The groups that the rest of a pattern holds, after the symbols that a group has so far, if one
is open. No group opens in another one, and all is in a group up to the mark of the end. -/
def groupsFrom : Option (List Symbol) → List Symbol → Option (List (List Symbol))
  | _, [] => none
  | none, symbol :: rest =>
    if symbol = .plain '(' then groupsFrom (some []) rest
    else if symbol = .plain '$' ∧ rest = [] then some []
    else none
  | some taken, symbol :: rest =>
    if symbol = .plain ')' then (groupsFrom none rest).map (taken :: ·)
    else if symbol = .plain '(' then none
    else groupsFrom (some (taken ++ [symbol])) rest

/-- The groups of a pattern text, from the mark of its beginning to that of its end. -/
def groups? (t : Text) : Option (List (List Symbol)) :=
  match symbols? t with
  | some (.plain '^' :: rest) => groupsFrom none rest
  | _ => none

namespace Shape

/-- A count with its closing brace, written as counts are. -/
def readCount? (symbols : List Symbol) : Option Nat :=
  let count := Text.toNat (symbols.dropLast.map Symbol.char)
  if symbols = (Text.ofNat count).map .plain ++ [.plain '}'] then some count else none

/-- What a group takes by its symbols. -/
def ofSymbols? : List Symbol → Option Shape
  | [.plain '.', .plain '*'] => some .anything
  | [.escaped 'd'] => some .digit
  | .plain '.' :: .plain '{' :: rest => (readCount? rest).map .characters
  | .escaped 'd' :: .plain '{' :: rest => (readCount? rest).map .digits
  | symbols =>
    if symbols.all Symbol.isLiteral then some (.exactly (symbols.map Symbol.char)) else none

/-- The symbols of a shape's text. -/
def symbols : Shape → List Symbol
  | .exactly text => text.map .literal
  | .characters count => .plain '.' :: .plain '{' :: (Text.ofNat count).map .plain ++ [.plain '}']
  | .digits count => .escaped 'd' :: .plain '{' :: (Text.ofNat count).map .plain ++ [.plain '}']
  | .digit => [.escaped 'd']
  | .anything => [.plain '.', .plain '*']

end Shape

variable {c : Char} {s t : Text} {x y : List Symbol}

/-! ## Symbols -/

theorem symbols?_plain (hc : c ≠ '\\') (t : Text) :
    symbols? (c :: t) = (symbols? t).map (.plain c :: ·) := by
  rw [symbols?]
  · rintro rfl
    exact absurd rfl hc
  · rintro c' t' rfl
    exact absurd rfl hc

/-- A text that ends with a symbol leaves the symbols behind it as they are. -/
theorem symbols?_append (hx : symbols? s = some x) (t : Text) :
    symbols? (s ++ t) = (symbols? t).map (x ++ ·) := by
  fun_induction symbols? s generalizing x with
  | case1 =>
    obtain rfl := Option.some.inj hx
    simp
  | case2 => cases hx
  | case3 c s ih =>
    obtain ⟨y, hy, rfl⟩ := Option.map_eq_some_iff.mp hx
    rw [List.cons_append, List.cons_append, symbols?, ih hy, Option.map_map]
    rfl
  | case4 c s hne hnone ih =>
    obtain ⟨y, hy, rfl⟩ := Option.map_eq_some_iff.mp hx
    have hc : c ≠ '\\' := by
      rintro rfl
      cases s with
      | nil => exact hne rfl rfl
      | cons d s => exact hnone d s rfl rfl
    rw [List.cons_append, symbols?_plain hc, ih hy, Option.map_map]
    rfl

theorem symbols?_append_eq (hx : symbols? s = some x) (hy : symbols? t = some y) :
    symbols? (s ++ t) = some (x ++ y) := by
  rw [symbols?_append hx, hy]
  rfl

theorem symbols?_map_plain (hs : ∀ c ∈ s, c ≠ '\\') : symbols? s = some (s.map .plain) := by
  induction s with
  | nil => rfl
  | cons c s ih =>
    obtain ⟨hc, hs⟩ := List.forall_mem_cons.mp hs
    rw [symbols?_plain hc, ih hs]
    rfl

/-- A literal is read as one symbol for each character, whatever the characters are. -/
theorem symbols?_escape (s : Text) : symbols? (escape s) = some (s.map .literal) := by
  induction s with
  | nil => rfl
  | cons c s ih =>
    rw [escape, List.flatMap_cons, ← escape, List.map_cons, Symbol.literal]
    by_cases hc : special.contains c = true
    · rw [if_pos hc, if_pos hc, List.cons_append, List.cons_append, List.nil_append, symbols?, ih]
      rfl
    · have hne : c ≠ '\\' := by
        rintro rfl
        exact hc (by decide)
      rw [if_neg hc, if_neg hc, List.cons_append, List.nil_append, symbols?_plain hne, ih]
      rfl

theorem char_map_literal (s : Text) : (s.map Symbol.literal).map Symbol.char = s := by
  rw [List.map_map]
  exact List.map_id'' Symbol.char_literal s

theorem unescape?_escape (s : Text) : unescape? (escape s) = some s := by
  rw [unescape?, symbols?_escape, Option.map_some, char_map_literal]

theorem symbols?_count (n : Nat) :
    symbols? ('{' :: (Text.ofNat n ++ ['}'])) =
      some (.plain '{' :: ((Text.ofNat n).map .plain ++ [.plain '}'])) := by
  have hdigits : ∀ c ∈ Text.ofNat n, c ≠ '\\' := fun _ hc =>
    Text.Numeral.ne_of_isDigit (Text.isDigit_ofNat hc) (by decide)
  have hend : symbols? ['}'] = some [.plain '}'] := rfl
  rw [symbols?_plain (by decide), symbols?_append_eq (symbols?_map_plain hdigits) hend]
  rfl

theorem readCount?_ofNat (n : Nat) :
    Shape.readCount? ((Text.ofNat n).map .plain ++ [.plain '}']) = some n := by
  have hchars : ((Text.ofNat n).map Symbol.plain).map Symbol.char = Text.ofNat n := by
    rw [List.map_map]
    exact List.map_id'' (fun _ => rfl) _
  rw [Shape.readCount?, List.dropLast_concat, hchars, Text.toNat_ofNat, if_pos rfl]

namespace Shape

theorem symbols?_text (shape : Shape) : symbols? shape.text = some shape.symbols := by
  cases shape with
  | exactly literal => exact symbols?_escape literal
  | characters count =>
    rw [text, List.cons_append, List.cons_append, symbols?_plain (by decide), symbols?_count]
    rfl
  | digits count =>
    rw [text, List.cons_append, List.cons_append, List.cons_append, symbols?, symbols?_count]
    rfl
  | digit => rfl
  | anything => rfl

/-- Symbols that stand for their characters are taken for nothing else. -/
theorem ofSymbols?_of_isLiteral (hx : ∀ a ∈ x, a.isLiteral = true) :
    ofSymbols? x = some (.exactly (x.map Symbol.char)) := by
  unfold ofSymbols?
  split
  -- the first symbol of every other shape is a special character, or a letter behind a backslash
  · exact absurd (hx _ List.mem_cons_self) (by decide)
  · exact absurd (hx _ List.mem_cons_self) (by decide)
  · exact absurd (hx _ List.mem_cons_self) (by decide)
  · exact absurd (hx _ List.mem_cons_self) (by decide)
  · rw [if_pos (List.all_eq_true.mpr hx)]

theorem ofSymbols?_symbols (shape : Shape) : ofSymbols? shape.symbols = some shape := by
  cases shape with
  | exactly literal =>
    have hliteral : ∀ a ∈ literal.map Symbol.literal, a.isLiteral = true :=
      List.forall_mem_map.mpr fun c _ => Symbol.isLiteral_literal c
    rw [symbols, ofSymbols?_of_isLiteral hliteral, char_map_literal]
  | characters count =>
    rw [symbols, List.cons_append, List.cons_append, ofSymbols?, readCount?_ofNat]
    rfl
  | digits count =>
    rw [symbols, List.cons_append, List.cons_append, ofSymbols?, readCount?_ofNat]
    rfl
  | digit => rfl
  | anything => rfl

/-- No group opens or closes among the symbols of a shape. -/
theorem ne_parenthesis (shape : Shape) :
    ∀ a ∈ shape.symbols, a ≠ .plain '(' ∧ a ≠ .plain ')' := by
  have hliteral : ∀ c, Symbol.literal c ≠ .plain '(' ∧ Symbol.literal c ≠ .plain ')' := by
    intro c
    have h := Symbol.isLiteral_literal c
    constructor <;> (intro he; rw [he] at h; exact absurd h (by decide))
  have hcount : ∀ n, ∀ a ∈ (Text.ofNat n).map Symbol.plain ++ [.plain '}'],
      a ≠ .plain '(' ∧ a ≠ .plain ')' := by
    intro n
    refine List.forall_mem_append.mpr ⟨List.forall_mem_map.mpr fun c hc => ?_, by simp⟩
    have h := Text.isDigit_ofNat hc
    constructor <;> (intro he; cases he; exact absurd h (by decide))
  cases shape with
  | exactly literal => exact List.forall_mem_map.mpr fun c _ => hliteral c
  | characters count | digits count =>
    refine List.forall_mem_cons.mpr ⟨by simp, List.forall_mem_cons.mpr ⟨by simp, hcount count⟩⟩
  | digit | anything => simp [symbols]

end Shape

/-! ## Groups -/

/-- A group closes behind symbols without a parenthesis. -/
theorem groupsFrom_body (hx : ∀ a ∈ x, a ≠ .plain '(' ∧ a ≠ .plain ')') (taken y : List Symbol) :
    groupsFrom (some taken) (x ++ .plain ')' :: y) =
      (groupsFrom none y).map ((taken ++ x) :: ·) := by
  induction x generalizing taken with
  | nil => rw [List.nil_append, groupsFrom, if_pos rfl, List.append_nil]
  | cons a x ih =>
    obtain ⟨⟨hopen, hclose⟩, hx⟩ := List.forall_mem_cons.mp hx
    rw [List.cons_append, groupsFrom, if_neg hclose, if_neg hopen, ih hx, List.append_assoc]
    rfl

/-- The symbols of a field's group. -/
def enclosed (field : Field) : List Symbol :=
  .plain '(' :: ((shape field).symbols ++ [.plain ')'])

theorem symbols?_fragment (field : Field) : symbols? (fragment field) = some (enclosed field) := by
  have hclose : symbols? [')'] = some [.plain ')'] := rfl
  rw [fragment, List.cons_append, symbols?_plain (by decide),
    symbols?_append_eq (Shape.symbols?_text _) hclose]
  rfl

theorem symbols?_fragments (fields : List Field) :
    symbols? (fields.flatMap fragment) = some (fields.flatMap enclosed) := by
  induction fields with
  | nil => rfl
  | cons field fields ih =>
    rw [List.flatMap_cons, symbols?_append_eq (symbols?_fragment field) ih, List.flatMap_cons]

theorem groupsFrom_fragments (fields : List Field) :
    groupsFrom none (fields.flatMap enclosed ++ [.plain '$']) =
      some (fields.map fun field => (shape field).symbols) := by
  induction fields with
  | nil => rfl
  | cons field fields ih =>
    rw [List.flatMap_cons, enclosed, List.cons_append, List.cons_append, List.append_assoc,
      List.append_assoc, groupsFrom, if_pos rfl, List.singleton_append,
      groupsFrom_body (shape field).ne_parenthesis, ih]
    rfl

/-- The groups of a pattern text are those of the fields. -/
theorem groups?_text (fields : List Field) :
    groups? (text fields) = some (fields.map fun field => (shape field).symbols) := by
  have hend : symbols? ['$'] = some [.plain '$'] := rfl
  rw [groups?, text, List.cons_append, symbols?_plain (by decide),
    symbols?_append_eq (symbols?_fragments fields) hend]
  exact groupsFrom_fragments fields

theorem map_ofSymbols? (fields : List Field) :
    (fields.map fun field => (shape field).symbols).map Shape.ofSymbols? =
      (fields.map shape).map some := by
  rw [List.map_map, List.map_map]
  exact List.map_congr_left fun field _ => (shape field).ofSymbols?_symbols

/-- The shapes of the fields are all that a pattern text is made from. -/
theorem text_eq (fields : List Field) :
    text fields =
      '^' :: (fields.map shape).flatMap (fun shape => '(' :: shape.text ++ [')']) ++ ['$'] := by
  rw [text, List.flatMap_map]
  rfl

/-- **A pattern text is read in one way.** It holds one group for each field, in order and none
inside another, and the symbols of a group give back the literal of the field or what else it takes.
So pattern texts are the same exactly for fields with the same shapes in the same order, and a
literal is got back from its escaped form. -/
theorem text_uniquely_readable (fields : List Field) :
    (∃ groups, groups? (text fields) = some groups ∧
      (∀ group ∈ groups, ∀ symbol ∈ group, symbol ≠ .plain '(' ∧ symbol ≠ .plain ')') ∧
      List.Forall₂ (fun group field => Shape.ofSymbols? group = some (shape field))
        groups fields) ∧
    (∀ fields', text fields = text fields' ↔ fields.map shape = fields'.map shape) ∧
    ∀ literal, unescape? (escape literal) = some literal := by
  refine ⟨⟨_, groups?_text fields, ?_, ?_⟩, fun fields' => ⟨fun h => ?_, fun h => ?_⟩,
    unescape?_escape⟩
  · exact List.forall_mem_map.mpr fun field _ => (shape field).ne_parenthesis
  · rw [List.forall₂_map_left_iff, List.forall₂_same]
    exact fun field _ => (shape field).ofSymbols?_symbols
  · have hgroups := congrArg groups? h
    rw [groups?_text, groups?_text] at hgroups
    have hshapes := congrArg (List.map Shape.ofSymbols?) (Option.some.inj hgroups)
    rw [map_ofSymbols?, map_ofSymbols?] at hshapes
    exact List.map_injective_iff.mpr (Option.some_injective _) hshapes
  · rw [text_eq, text_eq, h]

/-- A literal that looks like a group of any characters and a digit. -/
example : (groups? (text [.literal "(.*)\\d".toList, .payloadCheck])).map
    (·.map Shape.ofSymbols?) = some [some (.exactly "(.*)\\d".toList), some .digit] := by cbv

end Barcode.Pattern

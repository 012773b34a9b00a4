import Barcode.Proofs.Document.Quoting
import Barcode.Proofs.Fault.Sequence
import Barcode.Proofs.Text.Digits

/-!
# Documents are read back

A document without binary numbers, without repeated names and not too deep is read back from what
is written for it, in either layout. Each kind of value is read back whatever comes behind it,
unless that goes on with the digits of a number; a list or an object is read back from its items or
members, each of which leaves the text behind it to the next one. Twice the length of a text is
enough fuel, because every value, comma and bracket takes a character.
-/

namespace Barcode.Document

open Value (escaped quoted readText_quoted)
open Sequence (ok_bind bind_eq_ok)
open Text (takeWhile_append_stop dropWhile_append_stop)
open Text.Numeral (digitLimit)

namespace Reader

variable {c : Char} {t b rest digits : Text} {n fuel depth : Nat}

/-! ## Blanks -/

theorem skipSpace_of_not_isSpace (hc : isSpace c = false) (t : Text) :
    skipSpace (c :: t) = c :: t := by
  rw [skipSpace, List.dropWhile_cons_of_neg (by simp [hc])]

theorem isSpace_of_isDigit (hc : c.isDigit = true) : isSpace c = false := by
  have hne : ∀ d : Char, d.isDigit = false → c ≠ d := fun d => Text.Numeral.ne_of_isDigit hc
  simp [isSpace, hne ' ' (by decide), hne '\t' (by decide), hne '\n' (by decide),
    hne '\r' (by decide)]

def Blank (t : Text) : Prop := ∀ c ∈ t, isSpace c = true

theorem skipSpace_append (hb : Blank b) (t : Text) : skipSpace (b ++ t) = skipSpace t := by
  rw [skipSpace, List.dropWhile_append_of_pos hb]
  rfl

theorem skipSpace_blank_cons (hb : Blank b) (hc : isSpace c = false) (t : Text) :
    skipSpace (b ++ c :: t) = c :: t := by
  rw [skipSpace_append hb, skipSpace_of_not_isSpace hc]

theorem blank_gap (layout : Layout) (level : Nat) : Blank (layout.gap level) := by
  intro c hc
  cases layout with
  | compact => cases hc
  | indented =>
    rcases List.mem_cons.mp hc with rfl | hc
    · rfl
    · rw [List.eq_of_mem_replicate hc]
      rfl

/-! ## Numbers -/

/-- A text that does not go on with a number. -/
def EndsNumber (rest : Text) : Prop :=
  ∀ c t, rest = c :: t → c.isDigit = false ∧ c ≠ '.' ∧ c ≠ 'e' ∧ c ≠ 'E'

theorem endsNumber_cons (h : c.isDigit = false ∧ c ≠ '.' ∧ c ≠ 'e' ∧ c ≠ 'E') (t : Text) :
    EndsNumber (c :: t) := by
  intro c' t' heq
  obtain ⟨rfl, rfl⟩ := List.cons.inj heq
  exact h

theorem fraction_of_endsNumber (h : EndsNumber rest) : fraction rest = ([], rest) := by
  unfold fraction
  split
  · next t => exact absurd rfl (h '.' t rfl).2.1
  · rfl

theorem exponent_of_endsNumber (h : EndsNumber rest) : exponent rest = (none, rest) := by
  cases rest with
  | nil => rfl
  | cons c t =>
    obtain ⟨-, -, he, hE⟩ := h c t rfl
    simp [exponent, he, hE]

theorem EndsNumber.isDigit_head? (h : EndsNumber rest) : ∀ c ∈ rest.head?, c.isDigit = false := by
  intro c hc
  obtain ⟨t, rfl⟩ := List.head?_eq_some_iff.mp (Option.mem_def.mp hc)
  exact (h c t rfl).1

theorem exists_ofNat_eq_cons (n : Nat) : ∃ c t, Text.ofNat n = c :: t ∧ c.isDigit = true := by
  obtain ⟨c, t, hct⟩ := List.exists_cons_of_ne_nil (Text.ofNat_ne_nil n)
  have hmem : c ∈ Text.ofNat n := by
    rw [hct]
    exact List.mem_cons_self
  exact ⟨c, t, hct, Text.isDigit_ofNat hmem⟩

/-- A number is written without zeros in front. -/
theorem ofNat_eq_zero_cons {n : Nat} {t : Text} (h : Text.ofNat n = '0' :: t) : t = [] := by
  by_contra hne
  have hpos : 0 < t.length := List.length_pos_of_ne_nil hne
  have hdigits : ∀ c ∈ t, c.isDigit = true := by
    intro c hc
    exact Text.isDigit_ofNat (n := n) (h ▸ List.mem_cons_of_mem _ hc)
  have hvalue : n = Text.toNat t := by
    rw [← Text.toNat_ofNat n, h, ← List.singleton_append, Text.toNat_append]
    exact Nat.zero_add _
  have hlt : n < 10 ^ t.length := hvalue ▸ Text.toNat_lt hdigits
  have hle := (Text.length_ofNat_le_iff hpos).mpr hlt
  rw [h, List.length_cons] at hle
  omega

theorem whole?_ofNat (n : Nat) (h : EndsNumber rest) :
    whole? (Text.ofNat n ++ rest) = some (Text.ofNat n, rest) := by
  have hdigits : ∀ c ∈ Text.ofNat n, c.isDigit = true := fun _ => Text.isDigit_ofNat
  have htake := takeWhile_append_stop hdigits h.isDigit_head?
  have hdrop := dropWhile_append_stop hdigits h.isDigit_head?
  obtain ⟨c, t, hct, hc⟩ := exists_ofNat_eq_cons n
  by_cases hzero : c = '0'
  · subst hzero
    rw [hct, ofNat_eq_zero_cons hct]
    rfl
  · rw [hct] at htake hdrop ⊢
    rw [List.cons_append] at htake hdrop ⊢
    rw [whole?]
    · rw [if_pos hc, htake, hdrop]
    · exact hzero

/-- An integer that has been written is read back. -/
theorem readNumber_ofNat (negative : Bool) (n : Nat) (hn : (Text.ofNat n).length ≤ digitLimit)
    (h : EndsNumber rest) : readNumber negative (Text.ofNat n ++ rest) =
      .ok (.integer (if negative then -(n : Int) else n), rest) := by
  have hshort : ¬ digitLimit < (Text.ofNat n).length := by omega
  simp only [readNumber, whole?_ofNat n h, fraction_of_endsNumber h, exponent_of_endsNumber h,
    List.isEmpty_nil, Option.isNone_none, Bool.and_self, if_true, if_neg hshort, Text.toNat_ofNat]

/-! ## Atoms -/

theorem readWord?_of_isDigit (hc : c.isDigit = true) (t : Text) : readWord? (c :: t) = none := by
  rw [readWord?]
  all_goals
    intro rest heq
    exact Text.Numeral.ne_of_isDigit hc (by decide) (List.cons.inj heq).1

theorem readAtom_of_isDigit (hc : c.isDigit = true) (t : Text) :
    readAtom (c :: t) = readNumber false (c :: t) := by
  rw [readAtom, readWord?_of_isDigit hc]
  · have hquote : c ≠ '"' := Text.Numeral.ne_of_isDigit hc (by decide)
    simp [hquote]
  · have hminus : c ≠ '-' := Text.Numeral.ne_of_isDigit hc (by decide)
    simp [hminus]

theorem readAtom_minus (hc : c.isDigit = true) (t : Text) :
    readAtom ('-' :: c :: t) = readNumber true (c :: t) := by
  have hletter : c ≠ 'I' := Text.Numeral.ne_of_isDigit hc (by decide)
  have hword : readWord? ('-' :: c :: t) = none := by
    rw [readWord?] <;> simp [hletter]
  rw [readAtom, hword]

theorem readAtom_write {i : Int} {written : Text} (hi : Text.Numeral.write i = .ok written)
    (h : EndsNumber rest) : readAtom (written ++ rest) = .ok (.integer i, rest) := by
  have hw : Text.Numeral.Writable i := Text.Numeral.exists_write_iff.mp ⟨_, hi⟩
  obtain ⟨c, t, hct, hc⟩ := exists_ofNat_eq_cons i.natAbs
  by_cases hneg : i < 0
  · rw [Text.Numeral.write_negative hw hneg] at hi
    obtain rfl := Except.ok.inj hi
    have hnumber := readNumber_ofNat true _ hw h
    have habs : -(i.natAbs : Int) = i := by omega
    rw [if_pos rfl, habs] at hnumber
    rw [hct] at hnumber ⊢
    rw [List.cons_append, List.cons_append, readAtom_minus hc]
    exact hnumber
  · obtain ⟨n, rfl⟩ := Int.eq_ofNat_of_zero_le (Int.not_lt.mp hneg)
    rw [Int.natAbs_natCast] at hct
    rw [Text.Numeral.write_natCast hw] at hi
    obtain rfl := Except.ok.inj hi
    have hnumber := readNumber_ofNat false n hw h
    rw [if_neg Bool.false_ne_true] at hnumber
    rw [hct] at hnumber ⊢
    rw [List.cons_append, readAtom_of_isDigit hc]
    exact hnumber

theorem exists_write_eq_cons {i : Int} {written : Text}
    (h : Text.Numeral.write i = .ok written) :
    ∃ c t, written = c :: t ∧ (c = '-' ∨ c.isDigit = true) := by
  obtain ⟨c, t, hct, hc⟩ := exists_ofNat_eq_cons i.natAbs
  rw [Text.Numeral.write] at h
  split at h
  · cases h
  · obtain rfl := Except.ok.inj h
    split
    · exact ⟨'-', _, rfl, Or.inl rfl⟩
    · exact ⟨c, t, hct, Or.inr hc⟩

/-! ## Gaps -/

theorem endsNumber_blank (hb : Blank b) (h : EndsNumber rest) : EndsNumber (b ++ rest) := by
  cases b with
  | nil => exact h
  | cons c b =>
    refine endsNumber_cons ?_ (b ++ rest)
    have hc : isSpace c = true := hb c List.mem_cons_self
    simp only [isSpace, Bool.or_eq_true, decide_eq_true_eq] at hc
    rcases hc with ((rfl | rfl) | rfl) | rfl <;> decide

theorem skipSpace_gap_cons (layout : Layout) (level : Nat) (hc : isSpace c = false) (t : Text) :
    skipSpace (layout.gap level ++ c :: t) = c :: t :=
  skipSpace_blank_cons (blank_gap layout level) hc t

/-- What stands between two brackets is read from its first character on, and what comes behind it
is the closing bracket. -/
theorem exists_tail (layout : Layout) (level : Nat) (left right : Char) {u : Text}
    (hspace : isSpace c = false) (hright : isSpace right = false)
    (hnumber : right.isDigit = false ∧ right ≠ '.' ∧ right ≠ 'e' ∧ right ≠ 'E') :
    ∃ tail, left :: (layout.gap (level + 1) ++ c :: u) ++ layout.gap level ++ [right] ++ rest =
        left :: (layout.gap (level + 1) ++ c :: u ++ tail) ∧
      EndsNumber tail ∧ skipSpace tail = right :: rest ∧
      skipSpace (layout.gap (level + 1) ++ c :: u ++ tail) = c :: (u ++ tail) := by
  refine ⟨layout.gap level ++ right :: rest, by simp,
    endsNumber_blank (blank_gap layout level) (endsNumber_cons hnumber rest),
    skipSpace_gap_cons layout level hright rest, ?_⟩
  rw [List.append_assoc, List.cons_append, skipSpace_gap_cons layout (level + 1) hspace]

end Reader

open Reader

/-! ## Values -/

/-- What is written for a value does not begin with a blank or with the end of a list, and it is
read back as the value, whatever comes behind it that does not go on with a number. -/
def ReadsBack (depth : Nat) (v : Value) : Prop :=
  ∀ layout level t, v.writeAt layout level = .ok t →
    (∃ c u, t = c :: u ∧ isSpace c = false ∧ c ≠ ']') ∧
    ∀ fuel rest, EndsNumber rest → 2 * t.length ≤ fuel →
      readValue fuel depth (t ++ rest) = .ok (v, rest)

variable {v : Value} {items : List Value} {members : List (Text × Value)} {layout : Layout}
  {t body rest name : Text} {c : Char} {fuel depth level : Nat}

theorem readValue_atom (hlist : c ≠ '[') (hobject : c ≠ '{') (t : Text) :
    readValue (fuel + 1) depth (c :: t) = readAtom (c :: t) := by
  rw [readValue]
  · exact fun _ h => hlist (List.cons.inj h).1
  · exact fun _ h => hobject (List.cons.inj h).1

theorem readsBack_of_atom (h : ∀ layout level t, v.writeAt layout level = .ok t →
    (∃ c u, t = c :: u ∧ isSpace c = false ∧ c ≠ ']' ∧ c ≠ '[' ∧ c ≠ '{') ∧
    ∀ rest, EndsNumber rest → readAtom (t ++ rest) = .ok (v, rest)) : ReadsBack depth v := by
  intro layout level t ht
  obtain ⟨⟨c, u, rfl, hspace, hclose, hlist, hobject⟩, hread⟩ := h layout level t ht
  refine ⟨⟨c, u, rfl, hspace, hclose⟩, ?_⟩
  intro fuel rest hrest hfuel
  obtain ⟨fuel, rfl⟩ := Nat.exists_eq_succ_of_ne_zero (n := fuel) (by simp at hfuel; omega)
  rw [List.cons_append, readValue_atom hlist hobject]
  exact hread rest hrest

theorem readsBack_null : ReadsBack depth .null := by
  refine readsBack_of_atom fun layout level t ht => ?_
  obtain rfl := Except.ok.inj ht
  exact ⟨⟨'n', _, rfl, by decide⟩, fun _ _ => rfl⟩

theorem readsBack_bool (b : Bool) : ReadsBack depth (.bool b) := by
  refine readsBack_of_atom fun layout level t ht => ?_
  cases b with
  | true =>
    obtain rfl := Except.ok.inj ht
    exact ⟨⟨'t', _, rfl, by decide⟩, fun _ _ => rfl⟩
  | false =>
    obtain rfl := Except.ok.inj ht
    exact ⟨⟨'f', _, rfl, by decide⟩, fun _ _ => rfl⟩

theorem readsBack_integer (i : Int) : ReadsBack depth (.integer i) := by
  refine readsBack_of_atom fun layout level t ht => ?_
  obtain ⟨c, u, hcu, hc⟩ := exists_write_eq_cons ht
  refine ⟨⟨c, u, hcu, ?_⟩, fun rest => readAtom_write ht⟩
  rcases hc with rfl | hc
  · decide
  · have hne : ∀ d : Char, d.isDigit = false → c ≠ d := fun d => Text.Numeral.ne_of_isDigit hc
    exact ⟨isSpace_of_isDigit hc, hne _ (by decide), hne _ (by decide), hne _ (by decide)⟩

theorem readsBack_text (s : Text) : ReadsBack depth (.text s) := by
  refine readsBack_of_atom fun layout level t ht => ?_
  rw [Value.writeAt] at ht
  obtain rfl := Except.ok.inj ht
  refine ⟨⟨'"', _, rfl, by decide⟩, fun rest _ => ?_⟩
  rw [quoted, List.cons_append, List.cons_append, List.append_assoc]
  show (readText (s.flatMap escaped ++ '"' :: rest)).map _ = _
  rw [readText_quoted]
  rfl

/-! ## Lists -/

theorem readItems_last {tail : Text} (hread : readValue fuel depth t = .ok (v, tail))
    (hend : skipSpace tail = ']' :: rest) : readItems (fuel + 1) depth t = .ok ([v], rest) := by
  rw [readItems, hread, ok_bind]
  simp only [hend]
  rfl

theorem readItems_cons {others : Text} (hread : readValue fuel depth t = .ok (v, ',' :: others))
    (hitems : readItems fuel depth (skipSpace others) = .ok (items, rest)) :
    readItems (fuel + 1) depth t = .ok (v :: items, rest) := by
  have hcomma : skipSpace (',' :: others) = ',' :: others := rfl
  rw [readItems, hread, ok_bind]
  simp only [hcomma, hitems]
  rfl

/-- The items of a list are read back up to its end. -/
theorem readItems_writeItems (hne : items ≠ []) (h : ∀ v ∈ items, ReadsBack depth v)
    (hw : Value.writeItems layout level items = .ok body) :
    (∃ c u, body = layout.gap level ++ c :: u ∧ isSpace c = false ∧ c ≠ ']') ∧
    ∀ fuel tail rest, EndsNumber tail → skipSpace tail = ']' :: rest → 2 * body.length + 1 ≤ fuel →
      readItems fuel depth (skipSpace (body ++ tail)) = .ok (items, rest) := by
  induction items generalizing body with
  | nil => exact absurd rfl hne
  | cons v items ih =>
    have hv := h v List.mem_cons_self
    cases items with
    | nil =>
      rw [Value.writeItems] at hw
      obtain ⟨written, hwritten, hw⟩ := bind_eq_ok.mp hw
      obtain rfl := Except.ok.inj hw
      obtain ⟨⟨c, u, rfl, hspace, hclose⟩, hread⟩ := hv layout level written hwritten
      refine ⟨⟨c, u, rfl, hspace, hclose⟩, ?_⟩
      intro fuel tail rest hends htail hfuel
      obtain ⟨fuel, rfl⟩ := Nat.exists_eq_succ_of_ne_zero (n := fuel) (by omega)
      have hlen : 2 * (c :: u).length ≤ fuel := by
        rw [List.length_append] at hfuel
        omega
      rw [List.append_assoc, List.cons_append, skipSpace_gap_cons layout level hspace]
      exact readItems_last (hread fuel tail hends hlen) htail
    | cons v' items =>
      rw [Value.writeItems] at hw
      · obtain ⟨written, hwritten, hw⟩ := bind_eq_ok.mp hw
        obtain ⟨others, hothers, hw⟩ := bind_eq_ok.mp hw
        obtain rfl := Except.ok.inj hw
        obtain ⟨⟨c, u, rfl, hspace, hclose⟩, hread⟩ := hv layout level written hwritten
        obtain ⟨-, hitems⟩ := ih (List.cons_ne_nil _ _)
          (fun x hx => h x (List.mem_cons_of_mem _ hx)) hothers
        refine ⟨⟨c, u ++ ',' :: others, by simp, hspace, hclose⟩, ?_⟩
        intro fuel tail rest hends htail hfuel
        -- the comma pays for the step from this item to the next
        obtain ⟨fuel, rfl⟩ := Nat.exists_eq_succ_of_ne_zero (n := fuel) (by omega)
        simp only [List.length_append, List.length_cons] at hfuel
        have hitem := hread fuel (',' :: (others ++ tail)) (endsNumber_cons (by decide) _)
          (by rw [List.length_cons]; omega)
        have hrest := hitems fuel tail rest hends htail (by omega)
        have htext : layout.gap level ++ c :: u ++ ',' :: others ++ tail =
            layout.gap level ++ c :: (u ++ ',' :: (others ++ tail)) := by simp
        rw [htext, skipSpace_gap_cons layout level hspace]
        exact readItems_cons hitem hrest
      · exact List.cons_ne_nil _ _

theorem readValue_list {u : Text} (hskip : skipSpace t = c :: u) (hc : c ≠ ']')
    (hread : readItems fuel depth (c :: u) = .ok (items, rest)) :
    readValue (fuel + 1) (depth + 1) ('[' :: t) = .ok (.list items, rest) := by
  simp only [readValue, hskip]
  split
  · next heq => exact absurd (List.cons.inj heq).1 hc
  · rw [hread]
    rfl

theorem readsBack_list (h : ∀ v ∈ items, ReadsBack depth v) :
    ReadsBack (depth + 1) (.list items) := by
  intro layout level t ht
  cases items with
  | nil =>
    obtain rfl := Except.ok.inj ht
    refine ⟨⟨'[', _, rfl, by decide⟩, ?_⟩
    intro fuel rest _ hfuel
    obtain ⟨fuel, rfl⟩ := Nat.exists_eq_succ_of_ne_zero (n := fuel) (by simp at hfuel; omega)
    rfl
  | cons v items =>
    obtain ⟨body, hbody, ht⟩ := bind_eq_ok.mp ht
    obtain rfl := Except.ok.inj ht
    obtain ⟨⟨c, u, rfl, hspace, hclose⟩, hread⟩ :=
      readItems_writeItems (List.cons_ne_nil _ _) h hbody
    refine ⟨⟨'[', _, rfl, by decide⟩, ?_⟩
    intro fuel rest _ hfuel
    obtain ⟨fuel, rfl⟩ := Nat.exists_eq_succ_of_ne_zero (n := fuel) (by simp at hfuel; omega)
    obtain ⟨tail, htext, hends, htail, hskip⟩ :=
      exists_tail layout level '[' ']' hspace rfl (by decide)
    have hitems := hread fuel tail rest hends htail (by simp at hfuel ⊢; omega)
    rw [hskip] at hitems
    rw [htext]
    exact readValue_list hskip hclose hitems

/-! ## Objects -/

/-- A member is read back with its name. -/
theorem readMembers_member (layout : Layout) (name : Text) {u : Text} (hspace : isSpace c = false)
    (hread : readValue fuel depth (c :: u) = .ok (v, rest)) :
    readMembers (fuel + 1) depth (quoted name ++ (layout.colon ++ c :: u)) =
      match skipSpace rest with
      | '}' :: rest => .ok ([(name, v)], rest)
      | ',' :: rest => do
        let (members, rest) ← readMembers fuel depth (skipSpace rest)
        return ((name, v) :: members, rest)
      | _ => .error .malformed := by
  have hcolon : ∃ gap, skipSpace (layout.colon ++ c :: u) = ':' :: gap ∧
      skipSpace gap = c :: u := by
    cases layout with
    | indented => exact ⟨' ' :: c :: u, rfl, skipSpace_of_not_isSpace hspace u⟩
    | compact => exact ⟨c :: u, rfl, skipSpace_of_not_isSpace hspace u⟩
  obtain ⟨gap, hskip, hgap⟩ := hcolon
  have htext : quoted name ++ (layout.colon ++ c :: u) =
      '"' :: (name.flatMap escaped ++ '"' :: (layout.colon ++ c :: u)) := by
    simp [quoted]
  rw [htext, readMembers, readText_quoted, ok_bind]
  simp only [hskip, hgap, hread, ok_bind]
  rfl

theorem readMembers_last (layout : Layout) (name : Text) {u tail : Text}
    (hspace : isSpace c = false) (hread : readValue fuel depth (c :: u) = .ok (v, tail))
    (hend : skipSpace tail = '}' :: rest) :
    readMembers (fuel + 1) depth (quoted name ++ (layout.colon ++ c :: u)) =
      .ok ([(name, v)], rest) := by
  rw [readMembers_member layout name hspace hread, hend]
  rfl

theorem readMembers_cons (layout : Layout) (name : Text) {u others : Text}
    (hspace : isSpace c = false) (hread : readValue fuel depth (c :: u) = .ok (v, ',' :: others))
    (hmembers : readMembers fuel depth (skipSpace others) = .ok (members, rest)) :
    readMembers (fuel + 1) depth (quoted name ++ (layout.colon ++ c :: u)) =
      .ok ((name, v) :: members, rest) := by
  have hcomma : skipSpace (',' :: others) = ',' :: others := rfl
  rw [readMembers_member layout name hspace hread, hcomma]
  simp only [hmembers]
  rfl

theorem skipSpace_gap_quoted (layout : Layout) (level : Nat) (name t : Text) :
    skipSpace (layout.gap level ++ (quoted name ++ t)) = quoted name ++ t := by
  rw [quoted, List.cons_append, List.cons_append, skipSpace_gap_cons _ _ (by decide)]

/-- The members of an object are read back up to its end, repeated names included. -/
theorem readMembers_writeMembers (hne : members ≠ []) (h : ∀ m ∈ members, ReadsBack depth m.2)
    (hw : Value.writeMembers layout level members = .ok body) :
    (∃ u, body = layout.gap level ++ '"' :: u) ∧
    ∀ fuel tail rest, EndsNumber tail → skipSpace tail = '}' :: rest →
      2 * body.length + 1 ≤ fuel →
      readMembers fuel depth (skipSpace (body ++ tail)) = .ok (members, rest) := by
  induction members generalizing body with
  | nil => exact absurd rfl hne
  | cons m members ih =>
    obtain ⟨name, v⟩ := m
    have hv := h (name, v) List.mem_cons_self
    cases members with
    | nil =>
      rw [Value.writeMembers] at hw
      obtain ⟨written, hwritten, hw⟩ := bind_eq_ok.mp hw
      obtain rfl := Except.ok.inj hw
      obtain ⟨⟨c, u, rfl, hspace, -⟩, hread⟩ := hv layout level written hwritten
      refine ⟨⟨_, by simp [quoted]; rfl⟩, ?_⟩
      intro fuel tail rest hends htail hfuel
      obtain ⟨fuel, rfl⟩ := Nat.exists_eq_succ_of_ne_zero (n := fuel) (by omega)
      simp only [List.length_append, List.length_cons] at hfuel
      have hvalue := hread fuel tail hends (by rw [List.length_cons]; omega)
      rw [List.cons_append] at hvalue
      have htext : layout.gap level ++ quoted name ++ layout.colon ++ c :: u ++ tail =
          layout.gap level ++ (quoted name ++ (layout.colon ++ c :: (u ++ tail))) := by simp
      rw [htext, skipSpace_gap_quoted]
      exact readMembers_last layout name hspace hvalue htail
    | cons m' members =>
      rw [Value.writeMembers] at hw
      · obtain ⟨written, hwritten, hw⟩ := bind_eq_ok.mp hw
        obtain ⟨others, hothers, hw⟩ := bind_eq_ok.mp hw
        obtain rfl := Except.ok.inj hw
        obtain ⟨⟨c, u, rfl, hspace, -⟩, hread⟩ := hv layout level written hwritten
        obtain ⟨-, hmembers⟩ := ih (List.cons_ne_nil _ _)
          (fun x hx => h x (List.mem_cons_of_mem _ hx)) hothers
        refine ⟨⟨_, by simp [quoted]; rfl⟩, ?_⟩
        intro fuel tail rest hends htail hfuel
        obtain ⟨fuel, rfl⟩ := Nat.exists_eq_succ_of_ne_zero (n := fuel) (by omega)
        simp only [List.length_append, List.length_cons] at hfuel
        have hvalue := hread fuel (',' :: (others ++ tail)) (endsNumber_cons (by decide) _)
          (by rw [List.length_cons]; omega)
        rw [List.cons_append] at hvalue
        have hrest := hmembers fuel tail rest hends htail (by omega)
        have htext : layout.gap level ++ quoted name ++ layout.colon ++ c :: u ++ ',' :: others ++
            tail = layout.gap level ++
              (quoted name ++ (layout.colon ++ c :: (u ++ ',' :: (others ++ tail)))) := by simp
        rw [htext, skipSpace_gap_quoted]
        exact readMembers_cons layout name hspace hvalue hrest
      · exact List.cons_ne_nil _ _

theorem readValue_object {u : Text} (hskip : skipSpace t = c :: u) (hc : c ≠ '}')
    (hread : readMembers fuel depth (c :: u) = .ok (members, rest)) :
    readValue (fuel + 1) (depth + 1) ('{' :: t) =
      .ok (.object (Table.ofPairs members), rest) := by
  simp only [readValue, hskip]
  split
  · next heq => exact absurd (List.cons.inj heq).1 hc
  · rw [hread]
    rfl

theorem readsBack_object (hnames : (members.map Prod.fst).Nodup)
    (h : ∀ m ∈ members, ReadsBack depth m.2) : ReadsBack (depth + 1) (.object members) := by
  intro layout level t ht
  cases members with
  | nil =>
    obtain rfl := Except.ok.inj ht
    refine ⟨⟨'{', _, rfl, by decide⟩, ?_⟩
    intro fuel rest _ hfuel
    obtain ⟨fuel, rfl⟩ := Nat.exists_eq_succ_of_ne_zero (n := fuel) (by simp at hfuel; omega)
    rfl
  | cons m members =>
    obtain ⟨body, hbody, ht⟩ := bind_eq_ok.mp ht
    obtain rfl := Except.ok.inj ht
    obtain ⟨⟨u, rfl⟩, hread⟩ := readMembers_writeMembers (List.cons_ne_nil _ _) h hbody
    have hquote : isSpace '"' = false := rfl
    refine ⟨⟨'{', _, rfl, by decide⟩, ?_⟩
    intro fuel rest _ hfuel
    obtain ⟨fuel, rfl⟩ := Nat.exists_eq_succ_of_ne_zero (n := fuel) (by simp at hfuel; omega)
    obtain ⟨tail, htext, hends, htail, hskip⟩ :=
      exists_tail layout level '{' '}' hquote rfl (by decide)
    have hmembers := hread fuel tail rest hends htail (by simp at hfuel ⊢; omega)
    rw [hskip] at hmembers
    rw [htext, readValue_object hskip (by decide) hmembers, Table.ofPairs_of_nodup hnames]

/-! ## Documents -/

/-- A value without binary numbers and repeated names, and at most so many levels deep. -/
inductive Portable : Nat → Value → Prop
  | null {depth : Nat} : Portable depth .null
  | bool {depth : Nat} (b : Bool) : Portable depth (.bool b)
  | integer {depth : Nat} (i : Int) : Portable depth (.integer i)
  | text {depth : Nat} (s : Text) : Portable depth (.text s)
  | list {depth : Nat} {items : List Value} (h : ∀ v ∈ items, Portable depth v) :
    Portable (depth + 1) (.list items)
  | object {depth : Nat} {members : List (Text × Value)} (hnames : (members.map Prod.fst).Nodup)
    (h : ∀ m ∈ members, Portable depth m.2) : Portable (depth + 1) (.object members)

theorem Portable.readsBack (h : Portable depth v) : ReadsBack depth v := by
  induction h with
  | null => exact readsBack_null
  | bool b => exact readsBack_bool b
  | integer i => exact readsBack_integer i
  | text s => exact readsBack_text s
  | list _ ih => exact readsBack_list ih
  | object hnames _ ih => exact readsBack_object hnames ih

/-- A document that has been written, in whatever layout, is read back. -/
theorem Portable.read_write {depth : Nat} (h : Portable depth v) (hw : v.write layout = .ok t) :
    readWithin depth t = .ok v := by
  obtain ⟨⟨c, u, rfl, hspace, -⟩, hread⟩ := h.readsBack layout 0 t hw
  have hvalue := hread (2 * (c :: u).length + 2) [] (fun _ _ h => nomatch h) (by omega)
  rw [List.append_nil] at hvalue
  rw [readWithin, skipSpace_of_not_isSpace hspace, hvalue]
  rfl

end Barcode.Document

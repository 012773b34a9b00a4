import Barcode.Proofs.Document.Spelling

/-!
# Documents and what oversteps the limits

A document is given as a text without a reader: atoms, and values between brackets, with blanks
around them and no deeper than the levels that are left. A text oversteps a limit if, behind what
is spelled like the beginning of a document, a bracket opens one level too many, an integer has too
many digits, or a text has half of a character. The reader reads exactly the documents and refuses
exactly these texts for a limit; all others are malformed. What follows a limit that is overstepped
is never looked at.
-/

namespace Barcode.Document

open Sequence (ok_bind bind_eq_ok bind_eq_error map_eq_ok map_eq_error)

namespace Reader

/-! ## Grammar -/

/-- The two kinds of brackets that stand around values. -/
inductive Bracket where
  | square | curly
  deriving DecidableEq, Repr

namespace Bracket

def opening : Bracket → Char
  | square => '['
  | curly => '{'

def closing : Bracket → Char
  | square => ']'
  | curly => '}'

end Bracket

/-- What stands in front of a value between brackets: its name and a colon between curly ones. -/
inductive Label : Bracket → Text → Prop
  | square : Label .square []
  | curly {name b b' : Text} (hname : Letters name) (hb : Blank b) (hb' : Blank b') :
    Label .curly ('"' :: (name ++ '"' :: (b ++ ':' :: b')))

/-- A value, or the values behind an opening bracket up to the closing one, in a place where so
many levels may still be opened. -/
inductive Spelled : Option Bracket → Nat → Text → Prop
  | atom {depth : Nat} {u : Text} (h : Atom u) : Spelled none depth u
  | empty {depth : Nat} {b : Text} (bracket : Bracket) (hb : Blank b) :
    Spelled none (depth + 1) (bracket.opening :: (b ++ [bracket.closing]))
  | filled {depth : Nat} {bracket : Bracket} {b u : Text} (hb : Blank b)
    (h : Spelled (some bracket) depth u) : Spelled none (depth + 1) (bracket.opening :: (b ++ u))
  | last {depth : Nat} {bracket : Bracket} {l u b : Text} (hl : Label bracket l)
    (h : Spelled none depth u) (hb : Blank b) :
    Spelled (some bracket) depth (l ++ (u ++ (b ++ [bracket.closing])))
  | next {depth : Nat} {bracket : Bracket} {l u b b' v : Text} (hl : Label bracket l)
    (h : Spelled none depth u) (hb : Blank b) (hb' : Blank b')
    (hnext : Spelled (some bracket) depth v) :
    Spelled (some bracket) depth (l ++ (u ++ (b ++ ',' :: (b' ++ v))))

/-- A text that is spelled like the beginning of a value, or of the values between brackets, up to
where it oversteps a limit. -/
inductive Exceeds : Option Bracket → Nat → Text → ReadError → Prop
  | depth (bracket : Bracket) (t : Text) : Exceeds none 0 (bracket.opening :: t) .nestedTooDeeply
  | atom {depth : Nat} {t : Text} {e : ReadError} (h : Refused t e) : Exceeds none depth t e
  | name {depth : Nat} {t : Text} (h : Halved t) :
    Exceeds (some .curly) depth ('"' :: t) .halfCharacter
  | filled {depth : Nat} {bracket : Bracket} {b t : Text} {e : ReadError} (hb : Blank b)
    (h : Exceeds (some bracket) depth t e) :
    Exceeds none (depth + 1) (bracket.opening :: (b ++ t)) e
  | first {depth : Nat} {bracket : Bracket} {l t : Text} {e : ReadError} (hl : Label bracket l)
    (h : Exceeds none depth t e) : Exceeds (some bracket) depth (l ++ t) e
  | next {depth : Nat} {bracket : Bracket} {l u b b' t : Text} {e : ReadError}
    (hl : Label bracket l) (hu : Spelled none depth u) (hb : Blank b) (hb' : Blank b')
    (h : Exceeds (some bracket) depth t e) :
    Exceeds (some bracket) depth (l ++ (u ++ (b ++ ',' :: (b' ++ t)))) e

variable {place : Option Bracket} {bracket : Bracket} {fuel depth n : Nat}
  {t u b l rest others : Text} {c : Char} {e : ReadError}

/-! ## Blanks -/

theorem blank_nil : Blank [] := fun _ h => nomatch h

theorem exists_blank (t : Text) : ∃ b, t = b ++ skipSpace t ∧ Blank b :=
  ⟨t.takeWhile isSpace, List.takeWhile_append_dropWhile.symm, fun _ => List.mem_takeWhile_imp⟩

/-! ## Where values begin -/

/-- A text that begins neither with a blank nor with a closing bracket. -/
def Starts (t : Text) : Prop :=
  ∃ c u, t = c :: u ∧ isSpace c = false ∧ ∀ bracket : Bracket, c ≠ bracket.closing

theorem Starts.append (h : Starts t) (rest : Text) : Starts (t ++ rest) := by
  obtain ⟨c, u, rfl, hc⟩ := h
  exact ⟨c, u ++ rest, rfl, hc⟩

theorem StartsAtom.starts (h : StartsAtom t) : Starts t := by
  obtain ⟨c, u, rfl, hspace, hc⟩ := h
  simp only [List.mem_cons, List.not_mem_nil, or_false, not_or] at hc
  refine ⟨c, u, rfl, hspace, ?_⟩
  intro bracket
  cases bracket with
  | square => exact hc.2.1
  | curly => exact hc.2.2.2

theorem StartsAtom.ne_opening (h : StartsAtom t) (bracket : Bracket) (u : Text) :
    t ≠ bracket.opening :: u := by
  obtain ⟨c, v, rfl, -, hc⟩ := h
  intro heq
  obtain ⟨rfl, -⟩ := List.cons.inj heq
  cases bracket <;> exact hc (by decide)

theorem starts_opening (bracket : Bracket) (t : Text) : Starts (bracket.opening :: t) := by
  refine ⟨_, t, rfl, ?_⟩
  cases bracket with
  | square => exact ⟨by decide, fun bracket => by cases bracket <;> decide⟩
  | curly => exact ⟨by decide, fun bracket => by cases bracket <;> decide⟩

theorem starts_quote (t : Text) : Starts ('"' :: t) :=
  ⟨'"', t, rfl, by decide, fun bracket => by cases bracket <;> decide⟩

theorem Label.starts (hl : Label bracket l) (h : Starts t) : Starts (l ++ t) := by
  cases hl with
  | square => exact h
  | curly => exact starts_quote _

theorem Spelled.starts (h : Spelled place depth u) : Starts u := by
  induction h with
  | atom h => exact h.starts.starts
  | empty bracket => exact starts_opening bracket _
  | filled => exact starts_opening _ _
  | last hl _ _ ih => exact hl.starts (ih.append _)
  | next hl _ _ _ _ ih => exact hl.starts (ih.append _)

theorem Exceeds.starts (h : Exceeds place depth t e) : Starts t := by
  induction h with
  | depth bracket => exact starts_opening bracket _
  | atom h => exact h.starts.starts
  | name => exact starts_quote _
  | filled => exact starts_opening _ _
  | first hl _ ih => exact hl.starts ih
  | next hl hu => exact hl.starts (hu.starts.append _)

/-! ## One step of the reader -/

/-- What reading a value, or the values up to a closing bracket, leaves of a text. Whether a text
is refused does not depend on the values that are read, so that all places are read alike. -/
def remainder (place : Option Bracket) (fuel depth : Nat) (t : Text) : Except ReadError Text :=
  match place with
  | none => (readValue fuel depth t).map Prod.snd
  | some .square => (readItems fuel depth t).map Prod.snd
  | some .curly => (readMembers fuel depth t).map Prod.snd

/-- What reading a colon leaves of a text. -/
def readColon (t : Text) : Except ReadError Text :=
  match skipSpace t with
  | ':' :: rest => .ok (skipSpace rest)
  | _ => .error .malformed

/-- What reading a label leaves of a text. -/
def readLabel (bracket : Bracket) (t : Text) : Except ReadError Text :=
  match bracket, t with
  | .square, t => .ok t
  | .curly, '"' :: t => do
    let (_, rest) ← readText t
    readColon rest
  | .curly, _ => .error .malformed

/-- What is left behind a value between brackets: the text behind the closing bracket, or what the
values behind a comma leave. -/
def resume (bracket : Bracket) (fuel depth : Nat) (t : Text) : Except ReadError Text :=
  match skipSpace t with
  | [] => .error .malformed
  | c :: rest =>
    if c = bracket.closing then .ok rest
    else if c = ',' then remainder (some bracket) fuel depth (skipSpace rest)
    else .error .malformed

theorem remainder_zero : remainder place 0 depth t = .error .malformed := by
  unfold remainder
  split
  · rw [readValue]; rfl
  · rw [readItems]; rfl
  · rw [readMembers]; rfl

theorem remainder_atom (h : ∀ (bracket : Bracket) u, t ≠ bracket.opening :: u) :
    remainder none (fuel + 1) depth t = (readAtom t).map Prod.snd := by
  rw [remainder, readValue]
  · exact fun u => h .square u
  · exact fun u => h .curly u

theorem remainder_deep (bracket : Bracket) (t : Text) :
    remainder none (fuel + 1) 0 (bracket.opening :: t) = .error .nestedTooDeeply := by
  cases bracket <;> rw [remainder, Bracket.opening, readValue] <;> rfl

theorem remainder_closed (bracket : Bracket) (h : skipSpace t = bracket.closing :: rest) :
    remainder none (fuel + 1) (depth + 1) (bracket.opening :: t) = .ok rest := by
  cases bracket with
  | square =>
    simp only [Bracket.closing] at h
    simp only [remainder, Bracket.opening, readValue, h]
    rfl
  | curly =>
    simp only [Bracket.closing] at h
    simp only [remainder, Bracket.opening, readValue, h]
    rfl

theorem remainder_filled (bracket : Bracket)
    (h : ∀ rest, skipSpace t ≠ bracket.closing :: rest) :
    remainder none (fuel + 1) (depth + 1) (bracket.opening :: t) =
      remainder (some bracket) fuel depth (skipSpace t) := by
  cases bracket with
  | square =>
    simp only [remainder, Bracket.opening, readValue]
    split
    · next rest hclose => exact absurd hclose (h rest)
    · cases readItems fuel depth (skipSpace t) <;> rfl
  | curly =>
    simp only [remainder, Bracket.opening, readValue]
    split
    · next rest hclose => exact absurd hclose (h rest)
    · cases readMembers fuel depth (skipSpace t) <;> rfl

theorem resume_closing (h : skipSpace t = bracket.closing :: rest) :
    resume bracket fuel depth t = .ok rest := by
  rw [resume, h]
  exact if_pos rfl

theorem resume_comma (h : skipSpace t = ',' :: rest) :
    resume bracket fuel depth t = remainder (some bracket) fuel depth (skipSpace rest) := by
  rw [resume, h]
  cases bracket <;> rfl

theorem resume_other (hclose : ∀ rest, skipSpace t ≠ bracket.closing :: rest)
    (hcomma : ∀ rest, skipSpace t ≠ ',' :: rest) :
    resume bracket fuel depth t = .error .malformed := by
  unfold resume
  split
  · rfl
  · next c rest h =>
    have hright : c ≠ bracket.closing := fun hc => hclose rest (hc ▸ h)
    have hnext : c ≠ ',' := fun hc => hcomma rest (hc ▸ h)
    rw [if_neg hright, if_neg hnext]

theorem readColon_of_colon (h : skipSpace t = ':' :: rest) :
    readColon t = .ok (skipSpace rest) := by
  simp only [readColon, h]

theorem readColon_other (h : ∀ rest, skipSpace t ≠ ':' :: rest) :
    readColon t = .error .malformed := by
  unfold readColon
  split
  · next rest hcolon => exact absurd hcolon (h rest)
  · rfl

/-- One step between square brackets. -/
theorem remainder_items (t : Text) :
    remainder (some .square) (fuel + 1) depth t =
      remainder none fuel depth t >>= resume .square fuel depth := by
  simp only [remainder, readItems]
  cases readValue fuel depth t with
  | error e => rfl
  | ok split =>
    obtain ⟨item, rest⟩ := split
    show _ = resume .square fuel depth rest
    simp only [ok_bind]
    split
    · next h => rw [resume_closing h]; rfl
    · next u h =>
      rw [resume_comma h, remainder]
      cases readItems fuel depth (skipSpace u) <;> rfl
    · next hclose hcomma => rw [resume_other hclose hcomma]; rfl

/-- One step between curly brackets. -/
theorem remainder_members (t : Text) :
    remainder (some .curly) (fuel + 1) depth t =
      readLabel .curly t >>= fun rest =>
        remainder none fuel depth rest >>= resume .curly fuel depth := by
  simp only [remainder, readMembers]
  split
  · next u =>
    simp only [readLabel]
    cases readText u with
    | error e => rfl
    | ok named =>
      obtain ⟨name, rest⟩ := named
      simp only [ok_bind]
      split
      · next value hcolon =>
        rw [readColon_of_colon hcolon]
        show _ = (readValue fuel depth (skipSpace value)).map Prod.snd >>= resume .curly fuel depth
        cases readValue fuel depth (skipSpace value) with
        | error e => rfl
        | ok split =>
          obtain ⟨v, rest⟩ := split
          show _ = resume .curly fuel depth rest
          simp only [ok_bind]
          split
          · next h => rw [resume_closing h]; rfl
          · next u h =>
            rw [resume_comma h, remainder]
            cases readMembers fuel depth (skipSpace u) <;> rfl
          · next hclose hcomma => rw [resume_other hclose hcomma]; rfl
      · next hcolon =>
        rw [readColon_other hcolon]
        rfl
  · next hquote =>
    rw [readLabel]
    · rfl
    · exact hquote

/-- One step between brackets of either kind. -/
theorem remainder_body (bracket : Bracket) (t : Text) :
    remainder (some bracket) (fuel + 1) depth t =
      readLabel bracket t >>= fun rest =>
        remainder none fuel depth rest >>= resume bracket fuel depth := by
  cases bracket with
  | square => exact remainder_items t
  | curly => exact remainder_members t

/-! ## Labels -/

theorem Label.read (hl : Label bracket l) (h : Starts t) : readLabel bracket (l ++ t) = .ok t := by
  cases hl with
  | square => rfl
  | @curly name b b' hname hb hb' =>
    obtain ⟨c, u, rfl, hspace, -⟩ := h
    obtain ⟨s, hs⟩ := hname.read (b ++ ':' :: (b' ++ c :: u))
    have htext : '"' :: (name ++ '"' :: (b ++ ':' :: b')) ++ c :: u =
        '"' :: (name ++ '"' :: (b ++ ':' :: (b' ++ c :: u))) := by simp
    have hcolon : isSpace ':' = false := rfl
    rw [htext, readLabel, hs, ok_bind]
    show readColon _ = _
    rw [readColon_of_colon (skipSpace_blank_cons hb hcolon _), skipSpace_blank_cons hb' hspace]

theorem exists_colon (h : readColon t = .ok rest) :
    ∃ b b', t = b ++ ':' :: (b' ++ rest) ∧ Blank b ∧ Blank b' := by
  by_cases hcolon : ∃ value, skipSpace t = ':' :: value
  · obtain ⟨value, hvalue⟩ := hcolon
    rw [readColon_of_colon hvalue] at h
    obtain rfl := Except.ok.inj h
    obtain ⟨b, hb, hblank⟩ := exists_blank t
    obtain ⟨b', hb', hblank'⟩ := exists_blank value
    exact ⟨b, b', by rw [← hb', ← hvalue, ← hb], hblank, hblank'⟩
  · rw [readColon_other (not_exists.mp hcolon)] at h
    cases h

theorem exists_label (h : readLabel bracket t = .ok rest) :
    ∃ l, t = l ++ rest ∧ Label bracket l := by
  unfold readLabel at h
  split at h
  · obtain rfl := Except.ok.inj h
    exact ⟨[], rfl, .square⟩
  · next u =>
    obtain ⟨⟨name, others⟩, hname, hcolon⟩ := bind_eq_ok.mp h
    obtain ⟨v, rfl, hletters⟩ := exists_letters hname
    obtain ⟨b, b', rfl, hb, hb'⟩ := exists_colon hcolon
    exact ⟨_, by simp, .curly hletters hb hb'⟩
  · cases h

theorem readColon_error (h : readColon t = .error e) : e = .malformed := by
  unfold readColon at h
  split at h
  · cases h
  · exact (Except.error.inj h).symm

/-- A label is refused for its spelling or for half of a character in its name. -/
theorem readLabel_error (h : readLabel bracket t = .error e) :
    e = .malformed ∨ Exceeds (some bracket) depth t e := by
  unfold readLabel at h
  split at h
  · cases h
  · obtain hname | ⟨⟨name, rest⟩, -, hcolon⟩ := bind_eq_error.mp h
    · obtain he | ⟨rfl, ht⟩ := readText_error hname
      · exact Or.inl he
      · exact Or.inr (.name ht)
    · exact Or.inl (readColon_error hcolon)
  · exact Or.inl (Except.error.inj h).symm

/-! ## What is read and what is refused -/

/-- What a result says about the text it comes from. -/
def Explained (place : Option Bracket) (depth : Nat) (t : Text) : Except ReadError Text → Prop
  | .ok rest => ∃ u, t = u ++ rest ∧ Spelled place depth u
  | .error e => e = .malformed ∨ Exceeds place depth t e

/-- The step of a value: an opening bracket, or an atom. -/
theorem explained_value
    (ih : ∀ place depth t, Explained place depth t (remainder place fuel depth t)) :
    Explained none depth t (remainder none (fuel + 1) depth t) := by
  by_cases hopen : ∃ (bracket : Bracket) (u : Text), t = bracket.opening :: u
  · obtain ⟨bracket, u, rfl⟩ := hopen
    cases depth with
    | zero =>
      rw [remainder_deep]
      exact Or.inr (.depth bracket u)
    | succ depth =>
      obtain ⟨b, hb, hblank⟩ := exists_blank u
      by_cases hclose : ∃ rest, skipSpace u = bracket.closing :: rest
      · obtain ⟨rest, hrest⟩ := hclose
        rw [remainder_closed bracket hrest]
        refine ⟨_, ?_, .empty bracket hblank⟩
        rw [hb, hrest]
        simp
      · rw [remainder_filled bracket (not_exists.mp hclose)]
        have hfilled := ih (some bracket) depth (skipSpace u)
        cases hresult : remainder (some bracket) fuel depth (skipSpace u) with
        | error e =>
          rw [hresult] at hfilled
          refine hfilled.imp_right fun h => ?_
          rw [hb]
          exact .filled hblank h
        | ok rest =>
          rw [hresult] at hfilled
          obtain ⟨v, hv, hspelled⟩ := hfilled
          refine ⟨_, ?_, .filled hblank hspelled⟩
          rw [hb, hv]
          simp
  · rw [remainder_atom fun bracket u h => hopen ⟨bracket, u, h⟩]
    obtain h | ⟨e, he, h⟩ | ⟨u, rest, v, rfl, hu, h⟩ := readAtom_cases t
    · rw [h]
      exact Or.inl rfl
    · rw [h]
      exact Or.inr (.atom he)
    · rw [h]
      exact ⟨u, rfl, .atom hu⟩

/-- The step of the values between brackets: a label, a value, and a closing bracket or a comma. -/
theorem explained_body
    (ih : ∀ place depth t, Explained place depth t (remainder place fuel depth t)) :
    Explained (some bracket) depth t (remainder (some bracket) (fuel + 1) depth t) := by
  rw [remainder_body]
  cases hlabel : readLabel bracket t with
  | error e => exact readLabel_error hlabel
  | ok behind =>
    obtain ⟨l, rfl, hl⟩ := exists_label hlabel
    rw [ok_bind]
    have hvalue := ih none depth behind
    cases hresult : remainder none fuel depth behind with
    | error e =>
      rw [hresult] at hvalue
      exact hvalue.imp_right (.first hl)
    | ok others =>
      rw [hresult] at hvalue
      obtain ⟨u, rfl, hu⟩ := hvalue
      obtain ⟨b, hb, hblank⟩ := exists_blank others
      rw [ok_bind]
      by_cases hclose : ∃ rest, skipSpace others = bracket.closing :: rest
      · obtain ⟨rest, hrest⟩ := hclose
        rw [resume_closing hrest]
        refine ⟨_, ?_, .last hl hu hblank⟩
        rw [hb, hrest]
        simp
      · by_cases hcomma : ∃ rest, skipSpace others = ',' :: rest
        · obtain ⟨v, hv⟩ := hcomma
          obtain ⟨b', hb', hblank'⟩ := exists_blank v
          have htext : others = b ++ ',' :: (b' ++ skipSpace v) := by rw [← hb', ← hv, ← hb]
          have hnext := ih (some bracket) depth (skipSpace v)
          rw [resume_comma hv]
          cases hresult : remainder (some bracket) fuel depth (skipSpace v) with
          | error e =>
            rw [hresult] at hnext
            refine hnext.imp_right fun h => ?_
            rw [htext]
            exact .next hl hu hblank hblank' h
          | ok rest =>
            rw [hresult] at hnext
            obtain ⟨w, hw, hspelled⟩ := hnext
            refine ⟨_, ?_, .next hl hu hblank hblank' hspelled⟩
            rw [htext, hw]
            simp
        · rw [resume_other (not_exists.mp hclose) (not_exists.mp hcomma)]
          exact Or.inl rfl

/-- Whatever is left is behind what is spelled, and whatever is refused is misspelled or oversteps
a limit. -/
theorem explained_remainder (place : Option Bracket) (fuel depth : Nat) (t : Text) :
    Explained place depth t (remainder place fuel depth t) := by
  induction fuel generalizing place depth t with
  | zero =>
    rw [remainder_zero]
    exact Or.inl rfl
  | succ fuel ih =>
    cases place with
    | none => exact explained_value ih
    | some bracket => exact explained_body ih

theorem Starts.skipSpace_append (h : Starts t) (hb : Blank b) : skipSpace (b ++ t) = t := by
  obtain ⟨c, u, rfl, hspace, -⟩ := h
  exact skipSpace_blank_cons hb hspace u

theorem Starts.ne_closing (h : Starts t) (bracket : Bracket) (rest : Text) :
    t ≠ bracket.closing :: rest := by
  obtain ⟨c, u, rfl, -, hc⟩ := h
  exact fun heq => hc bracket (List.cons.inj heq).1

theorem Starts.exists_fuel (h : Starts t) (hfuel : 2 * t.length ≤ fuel) :
    ∃ k, fuel = k + 1 := by
  obtain ⟨c, u, rfl, -⟩ := h
  rw [List.length_cons] at hfuel
  exact ⟨fuel - 1, by omega⟩

/-- Behind an opening bracket the reader goes on with what is not closed at once. -/
theorem remainder_opening (hb : Blank b) (h : Starts t) :
    remainder none (fuel + 1) (depth + 1) (bracket.opening :: (b ++ t)) =
      remainder (some bracket) fuel depth t := by
  have hskip := h.skipSpace_append hb
  rw [remainder_filled bracket fun rest => hskip.symm ▸ h.ne_closing bracket rest, hskip]

theorem isSpace_closing (bracket : Bracket) : isSpace bracket.closing = false := by
  cases bracket <;> rfl

theorem endsNumber_closing (bracket : Bracket) (t : Text) : EndsNumber (bracket.closing :: t) := by
  cases bracket <;> exact endsNumber_cons (by decide) t

/-- What is spelled is read, and what is behind it is left. -/
theorem Spelled.remainder (h : Spelled place depth u) :
    ∀ fuel rest, 2 * u.length ≤ fuel → (place = none → EndsNumber rest) →
      remainder place fuel depth (u ++ rest) = .ok rest := by
  induction h with
  | @atom depth u h =>
    intro fuel rest hfuel hends
    obtain ⟨fuel, rfl⟩ := h.starts.starts.exists_fuel hfuel
    obtain ⟨v, hv⟩ := h.read (hends rfl)
    obtain ⟨c, u, rfl, hc⟩ := h.starts
    have hstart : StartsAtom (c :: u ++ rest) := ⟨c, u ++ rest, rfl, hc⟩
    rw [remainder_atom hstart.ne_opening, hv]
    rfl
  | @empty depth b bracket hb =>
    intro fuel rest hfuel _
    obtain ⟨fuel, rfl⟩ := (starts_opening bracket _).exists_fuel hfuel
    have htext : bracket.opening :: (b ++ [bracket.closing]) ++ rest =
        bracket.opening :: (b ++ bracket.closing :: rest) := by simp
    rw [htext]
    exact remainder_closed bracket (skipSpace_blank_cons hb (isSpace_closing bracket) rest)
  | @filled depth bracket b u hb h ih =>
    intro fuel rest hfuel _
    obtain ⟨fuel, rfl⟩ := (starts_opening bracket _).exists_fuel hfuel
    have htext : bracket.opening :: (b ++ u) ++ rest = bracket.opening :: (b ++ (u ++ rest)) := by
      simp
    rw [htext, remainder_opening hb (h.starts.append rest)]
    simp only [List.length_cons, List.length_append] at hfuel
    exact ih fuel rest (by omega) fun hnone => nomatch hnone
  | @last depth bracket l u b hl h hb ih =>
    intro fuel rest hfuel _
    obtain ⟨fuel, rfl⟩ := (hl.starts (h.starts.append _)).exists_fuel hfuel
    have htext : l ++ (u ++ (b ++ [bracket.closing])) ++ rest =
        l ++ (u ++ (b ++ bracket.closing :: rest)) := by simp
    simp only [List.length_append, List.length_singleton] at hfuel
    rw [htext, remainder_body, hl.read (h.starts.append _), ok_bind,
      ih fuel _ (by omega) fun _ => endsNumber_blank hb (endsNumber_closing bracket rest), ok_bind]
    exact resume_closing (skipSpace_blank_cons hb (isSpace_closing bracket) rest)
  | @next depth bracket l u b b' v hl h hb hb' hnext ih ihnext =>
    intro fuel rest hfuel _
    obtain ⟨fuel, rfl⟩ := (hl.starts (h.starts.append _)).exists_fuel hfuel
    have htext : l ++ (u ++ (b ++ ',' :: (b' ++ v))) ++ rest =
        l ++ (u ++ (b ++ ',' :: (b' ++ (v ++ rest)))) := by simp
    simp only [List.length_append, List.length_cons] at hfuel
    rw [htext, remainder_body, hl.read (h.starts.append _), ok_bind,
      ih fuel _ (by omega) fun _ => endsNumber_blank hb (endsNumber_cons (by decide) _), ok_bind,
      resume_comma (skipSpace_blank_cons hb rfl _), (hnext.starts.append rest).skipSpace_append hb']
    exact ihnext fuel rest (by omega) fun hnone => nomatch hnone

theorem Exceeds.ne_malformed (h : Exceeds place depth t e) : e ≠ .malformed := by
  induction h with
  | depth => exact fun h => nomatch h
  | atom h => exact h.ne_malformed
  | name => exact fun h => nomatch h
  | filled _ _ ih => exact ih
  | first _ _ ih => exact ih
  | next _ _ _ _ _ ih => exact ih

/-- The steps that are enough for a text. In front of the first value between brackets a step is
made without a character. -/
def steps : Option Bracket → Text → Nat
  | none, t => 2 * t.length
  | some _, t => 2 * t.length + 1

/-- What oversteps a limit is refused for it. -/
theorem Exceeds.refused (h : Exceeds place depth t e) :
    ∀ fuel, steps place t ≤ fuel → Reader.remainder place fuel depth t = .error e := by
  induction h with
  | depth bracket t =>
    intro fuel hfuel
    obtain ⟨fuel, rfl⟩ := (starts_opening bracket t).exists_fuel hfuel
    exact remainder_deep bracket t
  | atom h =>
    intro fuel hfuel
    obtain ⟨fuel, rfl⟩ := h.starts.starts.exists_fuel hfuel
    rw [remainder_atom h.starts.ne_opening, h.readAtom_eq]
    rfl
  | name h =>
    intro fuel hfuel
    simp only [steps, List.length_cons] at hfuel
    obtain ⟨fuel, rfl⟩ := Nat.exists_eq_succ_of_ne_zero (n := fuel) (by omega)
    rw [remainder_body, readLabel, h.refused]
    rfl
  | @filled depth bracket b t e hb h ih =>
    intro fuel hfuel
    obtain ⟨fuel, rfl⟩ := (starts_opening bracket _).exists_fuel hfuel
    simp only [steps, List.length_cons, List.length_append] at hfuel
    rw [remainder_opening hb h.starts]
    exact ih fuel (by rw [steps]; omega)
  | @first depth bracket l t e hl h ih =>
    intro fuel hfuel
    -- between square brackets the label is empty, so no character pays for this step
    simp only [steps, List.length_append] at hfuel
    obtain ⟨fuel, rfl⟩ := Nat.exists_eq_succ_of_ne_zero (n := fuel) (by omega)
    rw [remainder_body, hl.read h.starts, ok_bind, ih fuel (by rw [steps]; omega)]
    rfl
  | @next depth bracket l u b b' t e hl hu hb hb' h ih =>
    intro fuel hfuel
    simp only [steps, List.length_append, List.length_cons] at hfuel
    obtain ⟨fuel, rfl⟩ := Nat.exists_eq_succ_of_ne_zero (n := fuel) (by omega)
    rw [remainder_body, hl.read (hu.starts.append _), ok_bind,
      hu.remainder fuel _ (by omega) fun _ => endsNumber_blank hb (endsNumber_cons (by decide) _),
      ok_bind, resume_comma (skipSpace_blank_cons hb rfl _), h.starts.skipSpace_append hb']
    exact ih fuel (by rw [steps]; omega)

end Reader

open Reader
open Text (isNumeric isNumeric_iff)
open Text.Numeral (digitLimit)

variable {depth : Nat} {t : Text} {e : ReadError}

/-- A value with blanks around it that is at most so deep. -/
def IsDocument (depth : Nat) (t : Text) : Prop :=
  ∃ b u b', t = b ++ (u ++ b') ∧ Blank b ∧ Blank b' ∧ Spelled none depth u

/-- A text that begins like a document up to where it oversteps a limit. -/
def Oversteps (depth : Nat) (t : Text) (e : ReadError) : Prop :=
  ∃ b u, t = b ++ u ∧ Blank b ∧ Exceeds none depth u e

theorem Oversteps.ne_malformed (h : Oversteps depth t e) : e ≠ .malformed := by
  obtain ⟨b, u, rfl, -, h⟩ := h
  exact h.ne_malformed

/-- Opening brackets alone overstep the limit with the first one too many. -/
theorem exceeds_brackets (depth : Nat) (t : Text) :
    Exceeds none depth (List.replicate depth '[' ++ '[' :: t) .nestedTooDeeply := by
  induction depth with
  | zero => exact .depth .square t
  | succ depth ih => exact .filled blank_nil (.first .square ih)

theorem oversteps_brackets (depth : Nat) :
    Oversteps depth (List.replicate (depth + 1) '[') .nestedTooDeeply := by
  refine ⟨[], List.replicate (depth + 1) '[', rfl, blank_nil, ?_⟩
  rw [List.replicate_succ']
  exact exceeds_brackets depth []

/-- An integer of ones oversteps the limit with the first digit too many. -/
theorem oversteps_ones (depth : Nat) {n : Nat} (hn : digitLimit < n) :
    Oversteps depth (List.replicate n '1') (.numeralTooLong n) := by
  have hnumeric : isNumeric (List.replicate n '1') = true := by
    rw [isNumeric_iff]
    refine ⟨fun h => ?_, fun c hc => List.eq_of_mem_replicate hc ▸ rfl⟩
    rw [List.replicate_eq_nil_iff] at h
    omega
  have hwhole : Whole (List.replicate n '1') := by
    refine Or.inr ⟨fun h => ?_, hnumeric⟩
    have hc := List.eq_of_mem_replicate (List.mem_of_mem_head? (Option.mem_def.mpr h))
    exact absurd hc (by decide)
  have hlong : digitLimit < (List.replicate n '1').length := by rwa [List.length_replicate]
  have hrefused := Refused.positive hwhole hlong endsInteger_nil
  rw [List.append_nil, List.length_replicate] at hrefused
  exact ⟨[], _, rfl, blank_nil, .atom hrefused⟩

/-- The documents are read, and no other texts. -/
theorem exists_read_iff : (∃ v, readWithin depth t = .ok v) ↔ IsDocument depth t := by
  constructor
  · intro h
    obtain ⟨v, hv⟩ := h
    obtain ⟨⟨v', rest⟩, hread, hend⟩ := bind_eq_ok.mp hv
    have hexplained := explained_remainder none (2 * t.length + 2) depth (skipSpace t)
    rw [remainder, hread] at hexplained
    obtain ⟨u, hu, hspelled⟩ := hexplained
    obtain ⟨b, hb, hblank⟩ := exists_blank t
    obtain ⟨b', hb', hblank'⟩ := exists_blank rest
    dsimp only at hend
    split at hend
    · next hempty =>
      rw [List.isEmpty_iff.mp hempty, List.append_nil] at hb'
      exact ⟨b, u, b', by rw [← hb', ← hu, ← hb], hblank, hblank', hspelled⟩
    · cases hend
  · intro h
    obtain ⟨b, u, b', rfl, hb, hb', hu⟩ := h
    have hends : EndsNumber b' := by
      rw [← List.append_nil b']
      exact endsNumber_blank hb' fun _ _ h => nomatch h
    have hfuel : 2 * u.length ≤ 2 * (b ++ (u ++ b')).length + 2 := by
      simp only [List.length_append]
      omega
    obtain ⟨⟨v, rest⟩, hread, hrest⟩ := map_eq_ok.mp (hu.remainder _ b' hfuel fun _ => hends)
    obtain rfl : rest = b' := hrest
    have hend : skipSpace rest = [] := by
      rw [← List.append_nil rest, skipSpace_append hb']
      rfl
    refine ⟨v, ?_⟩
    rw [readWithin, (hu.starts.append rest).skipSpace_append hb, hread, ok_bind]
    simp only [hend, List.isEmpty_nil, if_true]
    rfl

/-- The texts that overstep a limit are refused for it, and no other texts. -/
theorem read_eq_error_iff (he : e ≠ .malformed) :
    readWithin depth t = .error e ↔ Oversteps depth t e := by
  constructor
  · intro h
    obtain ⟨b, hb, hblank⟩ := exists_blank t
    obtain hread | ⟨⟨v, rest⟩, -, hend⟩ := bind_eq_error.mp h
    · have hexplained := explained_remainder none (2 * t.length + 2) depth (skipSpace t)
      rw [remainder, hread] at hexplained
      obtain hmalformed | hexceeds := hexplained
      · exact absurd hmalformed he
      · exact ⟨b, skipSpace t, hb, hblank, hexceeds⟩
    · dsimp only at hend
      split at hend
      · cases hend
      · exact absurd (Except.error.inj hend).symm he
  · intro h
    obtain ⟨b, u, rfl, hb, hu⟩ := h
    have hfuel : steps none u ≤ 2 * (b ++ u).length + 2 := by
      simp only [steps, List.length_append]
      omega
    have hread := map_eq_error.mp (hu.refused _ hfuel)
    rw [readWithin, hu.starts.skipSpace_append hb, hread]
    rfl

/-- All other texts are malformed. -/
theorem read_eq_malformed_iff :
    readWithin depth t = .error .malformed ↔
      ¬ IsDocument depth t ∧ ∀ e, ¬ Oversteps depth t e := by
  constructor
  · intro h
    refine ⟨fun hdocument => ?_, fun e hoversteps => ?_⟩
    · obtain ⟨v, hv⟩ := exists_read_iff.mpr hdocument
      rw [h] at hv
      cases hv
    · have he := (read_eq_error_iff hoversteps.ne_malformed).mpr hoversteps
      rw [h] at he
      exact hoversteps.ne_malformed (Except.error.inj he).symm
  · intro h
    obtain ⟨hdocument, hlimits⟩ := h
    cases hread : readWithin depth t with
    | ok v => exact absurd (exists_read_iff.mp ⟨v, hread⟩) hdocument
    | error e =>
      by_contra hne
      have he : e ≠ .malformed := fun h => hne (congrArg _ h)
      exact hlimits e ((read_eq_error_iff he).mp hread)

/-- The reader stops at half of a character, and reads a character from both halves. -/
example : readWithin 1 "[\"\\ud83d".toList = .error .halfCharacter ∧
    readWithin 1 "[\"\\ud83d\\ude00\"]".toList = .ok (.list [.text ['😀']]) := by cbv

end Barcode.Document

import Barcode.Proofs.Document.Readback

/-!
# How the atoms of a document are spelled

A word, a quoted text or a number, given as texts without a reader: what may stand between two
quotes, and the three parts of a number. Whatever is read as an atom is spelled like one, and an
atom that is spelled is read, whatever comes behind it that does not go on with a number. Two kinds
of atoms are refused for another cause than their spelling: an integer with too many digits, and a
text with half of a character.
-/

namespace Barcode.Document.Reader

open Sequence (map_eq_ok map_eq_error)
open Text (isNumeric isNumeric_iff takeWhile_append_stop dropWhile_append_stop head?_dropWhile)
open Text.Numeral (digitLimit splitSign)

variable {t u rest digits whole decimals scale sign : Text} {c : Char} {e : ReadError}

/-! ## Texts -/

/-- What stands between the quotes of a text. -/
inductive Letters : Text → Prop
  | nil : Letters []
  | plain {c : Char} {t : Text} (hquote : c ≠ '"') (hslash : c ≠ '\\') (hc : ¬ c.toNat < 0x20)
    (ht : Letters t) : Letters (c :: t)
  | letter {c e : Char} {t : Text} (hc : simpleEscape? c = some e) (ht : Letters t) :
    Letters ('\\' :: c :: t)
  | codePoint {a b c d : Char} {n : Nat} {t : Text} (hn : hexNumber? a b c d = some n)
    (hhigh : isHighHalf n = false) (hlow : isLowHalf n = false) (ht : Letters t) :
    Letters ('\\' :: 'u' :: a :: b :: c :: d :: t)
  | halves {a b c d e f g h : Char} {high low : Nat} {t : Text}
    (hfirst : hexNumber? a b c d = some high) (hhigh : isHighHalf high = true)
    (hsecond : hexNumber? e f g h = some low) (hlow : isLowHalf low = true) (ht : Letters t) :
    Letters ('\\' :: 'u' :: a :: b :: c :: d :: '\\' :: 'u' :: e :: f :: g :: h :: t)

/-- A text that begins with half of a character and does not go on with the other half. -/
inductive Half : Text → Prop
  | alone {a b c d : Char} {n : Nat} {rest : Text} (hn : hexNumber? a b c d = some n)
    (hhalf : isHighHalf n = true ∨ isLowHalf n = true)
    (hrest : ∀ e f g h t, rest ≠ '\\' :: 'u' :: e :: f :: g :: h :: t) :
    Half ('\\' :: 'u' :: a :: b :: c :: d :: rest)
  | apart {a b c d e f g h : Char} {m n : Nat} {t : Text} (hn : hexNumber? a b c d = some n)
    (hhalf : isHighHalf n = true ∨ isLowHalf n = true) (hm : hexNumber? e f g h = some m)
    (hapart : ¬ (isHighHalf n = true ∧ isLowHalf m = true)) :
    Half ('\\' :: 'u' :: a :: b :: c :: d :: '\\' :: 'u' :: e :: f :: g :: h :: t)

/-- What stands behind an opening quote, up to half of a character and whatever comes behind it. -/
inductive Halved : Text → Prop
  | intro {u t : Text} (hu : Letters u) (ht : Half t) : Halved (u ++ t)

theorem Letters.append (hu : Letters u) (ht : Letters t) : Letters (u ++ t) := by
  induction hu with
  | nil => exact ht
  | plain hquote hslash hc _ ih => exact .plain hquote hslash hc ih
  | letter hc _ ih => exact .letter hc ih
  | codePoint hn hhigh hlow _ ih => exact .codePoint hn hhigh hlow ih
  | halves hfirst hhigh hsecond hlow _ ih => exact .halves hfirst hhigh hsecond hlow ih

theorem Letters.halved (hu : Letters u) (ht : Halved t) : Halved (u ++ t) := by
  cases ht with
  | intro hv ht =>
    rw [← List.append_assoc]
    exact .intro (hu.append hv) ht

theorem cons_eq_ok {x : Except ReadError (Text × Text)} {s : Text} :
    cons c x = .ok (s, rest) ↔ ∃ s', x = .ok (s', rest) ∧ c :: s' = s := by
  rw [cons, map_eq_ok]
  constructor
  · intro h
    obtain ⟨⟨s', rest'⟩, hx, heq⟩ := h
    obtain ⟨hs, rfl⟩ := Prod.mk.inj heq
    exact ⟨s', hx, hs⟩
  · intro h
    obtain ⟨s', hx, rfl⟩ := h
    exact ⟨(s', rest), hx, rfl⟩

/-- A text that is read ends at its closing quote. -/
theorem exists_letters {s : Text} (h : readText t = .ok (s, rest)) :
    ∃ u, t = u ++ '"' :: rest ∧ Letters u := by
  -- of the cases of the reader those that refuse the text are left to the end
  fun_induction readText t generalizing s with
  | case1 => cases h
  | case2 rest' =>
    obtain ⟨rfl, rfl⟩ := Prod.mk.inj (Except.ok.inj h)
    exact ⟨[], rfl, .nil⟩
  | case3 a b c d e f g h' rest' high low hfirst hsecond hhalves ih =>
    obtain ⟨hhigh, hlow⟩ := Bool.and_eq_true_iff.mp hhalves
    obtain ⟨s', hs, -⟩ := cons_eq_ok.mp h
    obtain ⟨u, rfl, hu⟩ := ih hs
    exact ⟨_, rfl, .halves (by assumption) hhigh (by assumption) hlow hu⟩
  | case5 a b c d e f g h' rest' high low hsecond hfirst _ hwhole ih =>
    obtain ⟨hhigh, hlow⟩ := Bool.or_eq_false_iff.mp (Bool.eq_false_of_not_eq_true hwhole)
    obtain ⟨s', hs, -⟩ := cons_eq_ok.mp h
    obtain ⟨u, heq, hu⟩ := ih hs
    exact ⟨_ :: _ :: _ :: _ :: _ :: _ :: u, by rw [heq]; rfl, .codePoint hfirst hhigh hlow hu⟩
  | case8 a b c d rest' _ n hn hwhole ih =>
    obtain ⟨hhigh, hlow⟩ := Bool.or_eq_false_iff.mp (Bool.eq_false_of_not_eq_true hwhole)
    obtain ⟨s', hs, -⟩ := cons_eq_ok.mp h
    obtain ⟨u, rfl, hu⟩ := ih hs
    exact ⟨_, rfl, .codePoint hn hhigh hlow hu⟩
  | case10 c rest' _ _ e hc ih =>
    obtain ⟨s', hs, -⟩ := cons_eq_ok.mp h
    obtain ⟨u, rfl, hu⟩ := ih hs
    exact ⟨_, rfl, .letter hc hu⟩
  | case13 c rest' hquote _ _ _ hplain ih =>
    obtain ⟨hc, hslash⟩ := Bool.or_eq_false_iff.mp (Bool.eq_false_of_not_eq_true hplain)
    obtain ⟨s', hs, -⟩ := cons_eq_ok.mp h
    obtain ⟨u, rfl, hu⟩ := ih hs
    exact ⟨_, rfl, .plain hquote (of_decide_eq_false hslash) (of_decide_eq_false hc) hu⟩
  | _ => cases h

/-- What is spelled behind an opening quote is read, and the reader goes on with what is behind
it. -/
theorem Letters.exists_readText (h : Letters u) :
    ∃ s, ∀ rest, readText (u ++ rest) = (readText rest).map fun (s', rest) => (s ++ s', rest) := by
  induction h with
  | nil =>
    refine ⟨[], fun rest => ?_⟩
    rw [List.nil_append]
    cases readText rest <;> rfl
  | @plain c _ hquote hslash hc _ ih =>
    obtain ⟨s, hs⟩ := ih
    refine ⟨c :: s, fun rest => ?_⟩
    rw [List.cons_append, readText_plain hquote hslash hc, hs]
    cases readText rest <;> rfl
  | @letter c e _ hc _ ih =>
    obtain ⟨s, hs⟩ := ih
    have hu : c ≠ 'u' := by
      intro h
      rw [h] at hc
      cases hc
    refine ⟨e :: s, fun rest => ?_⟩
    rw [List.cons_append, List.cons_append, readText_letter hu hc, hs]
    cases readText rest <;> rfl
  | @codePoint _ _ _ _ n _ hn hhigh hlow _ ih =>
    obtain ⟨s, hs⟩ := ih
    refine ⟨Char.ofNat n :: s, fun rest => ?_⟩
    simp only [List.cons_append]
    rw [readText_codePoint hn hhigh hlow, hs]
    cases readText rest <;> rfl
  | @halves _ _ _ _ _ _ _ _ high low _ hfirst hhigh hsecond hlow _ ih =>
    obtain ⟨s, hs⟩ := ih
    refine ⟨joinHalves high low :: s, fun rest => ?_⟩
    simp only [List.cons_append]
    rw [readText, hfirst, hsecond]
    simp only [hhigh, hlow, Bool.and_self, if_true, hs]
    cases readText rest <;> rfl

/-- A text whose quotes are closed is read. -/
theorem Letters.read (h : Letters u) (rest : Text) :
    ∃ s, readText (u ++ '"' :: rest) = .ok (s, rest) := by
  obtain ⟨s, hs⟩ := h.exists_readText
  refine ⟨s ++ [], ?_⟩
  rw [hs, readText]
  rfl

theorem Half.refused (h : Half t) : readText t = .error .halfCharacter := by
  cases h with
  | alone hn hhalf hrest =>
    rw [readText, hn]
    · simp only [Bool.or_eq_true, hhalf, if_true]
    · exact hrest
  | apart hn hhalf hm hapart =>
    rw [readText, hn, hm]
    simp only [Bool.or_eq_true, Bool.and_eq_true, hhalf, hapart, if_true, if_false]

theorem Halved.refused (h : Halved t) : readText t = .error .halfCharacter := by
  cases h with
  | intro hu ht =>
    obtain ⟨s, hs⟩ := hu.exists_readText
    rw [hs, ht.refused]
    rfl

/-- A text is refused for its spelling or for half of a character. -/
theorem readText_error (h : readText t = .error e) :
    e = .malformed ∨ e = .halfCharacter ∧ Halved t := by
  -- of the cases of the reader those that refuse the spelling are left to the end
  fun_induction readText t with
  | case2 => cases h
  | case3 a b c d _ _ _ _ _ high low _ _ hhalves ih =>
    obtain ⟨hhigh, hlow⟩ := Bool.and_eq_true_iff.mp hhalves
    have hletters := Letters.halves (by assumption) hhigh (by assumption) hlow .nil
    exact (ih (map_eq_error.mp h)).imp_right (And.imp_right hletters.halved)
  | case4 _ _ _ _ _ _ _ _ _ high low hsecond hfirst hapart hhalf =>
    have hhalf := Bool.or_eq_true_iff.mp hhalf
    have hapart := fun h => hapart (Bool.and_eq_true_iff.mpr h)
    exact Or.inr ⟨(Except.error.inj h).symm, .intro .nil (.apart hfirst hhalf hsecond hapart)⟩
  | case5 _ _ _ _ _ _ _ _ _ _ _ _ hfirst _ hwhole ih =>
    obtain ⟨hhigh, hlow⟩ := Bool.or_eq_false_iff.mp (Bool.eq_false_of_not_eq_true hwhole)
    have hletters := Letters.codePoint hfirst hhigh hlow .nil
    exact (ih (map_eq_error.mp h)).imp_right (And.imp_right hletters.halved)
  | case7 _ _ _ _ rest hrest n hn hhalf =>
    have hhalf := Bool.or_eq_true_iff.mp hhalf
    exact Or.inr ⟨(Except.error.inj h).symm, .intro .nil (.alone hn hhalf hrest)⟩
  | case8 _ _ _ _ _ _ _ hn hwhole ih =>
    obtain ⟨hhigh, hlow⟩ := Bool.or_eq_false_iff.mp (Bool.eq_false_of_not_eq_true hwhole)
    have hletters := Letters.codePoint hn hhigh hlow .nil
    exact (ih (map_eq_error.mp h)).imp_right (And.imp_right hletters.halved)
  | case10 _ _ _ _ _ hc ih =>
    have hletters := Letters.letter hc .nil
    exact (ih (map_eq_error.mp h)).imp_right (And.imp_right hletters.halved)
  | case13 _ _ hquote _ _ _ hplain ih =>
    obtain ⟨hc, hslash⟩ := Bool.or_eq_false_iff.mp (Bool.eq_false_of_not_eq_true hplain)
    have hletters := Letters.plain hquote (of_decide_eq_false hslash) (of_decide_eq_false hc) .nil
    exact (ih (map_eq_error.mp h)).imp_right (And.imp_right hletters.halved)
  | _ => exact Or.inl (Except.error.inj h).symm

/-! ## Numbers -/

/-- The digits of a whole part: a single zero, or a run that does not begin with one. -/
def Whole (t : Text) : Prop := t = ['0'] ∨ t.head? ≠ some '0' ∧ isNumeric t = true

/-- A point with digits behind it, or nothing. -/
def Decimals (t : Text) : Prop := t = [] ∨ ∃ digits, t = '.' :: digits ∧ isNumeric digits = true

def Sign (t : Text) : Prop := t = [] ∨ t = ['-'] ∨ t = ['+']

def IsScale (letter : Char) : Prop := letter = 'e' ∨ letter = 'E'

/-- A power of ten behind its letter, or nothing. -/
def Scale (t : Text) : Prop :=
  t = [] ∨ ∃ letter sign digits, t = letter :: (sign ++ digits) ∧ IsScale letter ∧ Sign sign ∧
    isNumeric digits = true

/-- A number after its sign. An integer has no more digits than are read. -/
def Unsigned (t : Text) : Prop :=
  ∃ whole decimals scale, t = whole ++ (decimals ++ scale) ∧ Whole whole ∧ Decimals decimals ∧
    Scale scale ∧ (decimals = [] → scale = [] → whole.length ≤ digitLimit)

/-- A text that does not go on with the integer in front of it: neither with its digits, nor with
decimals, nor with a power of ten. -/
structure EndsInteger (rest : Text) : Prop where
  digit : ∀ c t, rest = c :: t → c.isDigit = false
  point : ∀ c t, rest = '.' :: c :: t → c.isDigit = false
  scale : ∀ letter sign c t, rest = letter :: (sign ++ c :: t) → IsScale letter → Sign sign →
    c.isDigit = false

theorem endsInteger_nil : EndsInteger [] where
  digit _ _ h := nomatch h
  point _ _ h := nomatch h
  scale _ _ _ _ h := nomatch h

theorem exists_digit (h : isNumeric digits = true) :
    ∃ c t, digits = c :: t ∧ c.isDigit = true := by
  obtain ⟨hne, hdigits⟩ := isNumeric_iff.mp h
  obtain ⟨c, t, rfl⟩ := List.exists_cons_of_ne_nil hne
  exact ⟨c, t, rfl, hdigits c List.mem_cons_self⟩

/-- A run of digits in front is empty if no digit stands in front, and otherwise numeric. -/
theorem takeWhile_isDigit_cases (t : Text) :
    ((t.takeWhile Char.isDigit).isEmpty = true ∧ ∀ c u, t = c :: u → c.isDigit = false) ∨
    ((t.takeWhile Char.isDigit).isEmpty = false ∧
      isNumeric (t.takeWhile Char.isDigit) = true) := by
  cases t with
  | nil => exact Or.inl ⟨rfl, fun _ _ h => nomatch h⟩
  | cons c u =>
    by_cases hc : c.isDigit = true
    · have hrun : isNumeric ((c :: u).takeWhile Char.isDigit) = true := by
        rw [isNumeric_iff]
        refine ⟨?_, fun d hd => List.mem_takeWhile_imp hd⟩
        rw [List.takeWhile_cons_of_pos hc]
        exact List.cons_ne_nil _ _
      exact Or.inr ⟨List.isEmpty_eq_false_iff.mpr (isNumeric_iff.mp hrun).1, hrun⟩
    · refine Or.inl ⟨by rw [List.takeWhile_cons_of_neg hc, List.isEmpty_nil], ?_⟩
      intro d v h
      obtain ⟨rfl, -⟩ := List.cons.inj h
      exact Bool.eq_false_of_not_eq_true hc

theorem whole?_eq_some (h : whole? t = some (digits, rest)) :
    t = digits ++ rest ∧ Whole digits ∧
      (digits = ['0'] ∨ ∀ c ∈ rest.head?, c.isDigit = false) := by
  unfold whole? at h
  split at h
  · obtain ⟨rfl, rfl⟩ := Prod.mk.inj (Option.some.inj h)
    exact ⟨rfl, Or.inl rfl, Or.inl rfl⟩
  · next c u hzero =>
    split at h
    · next hc =>
      obtain ⟨rfl, rfl⟩ := Prod.mk.inj (Option.some.inj h)
      obtain ⟨-, hstop⟩ | ⟨-, hrun⟩ := takeWhile_isDigit_cases (c :: u)
      · exact absurd hc (by simp [hstop c u rfl])
      · refine ⟨List.takeWhile_append_dropWhile.symm, Or.inr ⟨?_, hrun⟩,
          Or.inr (head?_dropWhile _ _)⟩
        rw [List.takeWhile_cons_of_pos hc]
        exact fun h => hzero (Option.some.inj h)
    · cases h
  · cases h

theorem Whole.read (h : Whole whole) (hrest : ∀ c ∈ rest.head?, c.isDigit = false) :
    whole? (whole ++ rest) = some (whole, rest) := by
  rcases h with rfl | ⟨hzero, hnumeric⟩
  · rfl
  · have hdigits := (isNumeric_iff.mp hnumeric).2
    have htake := takeWhile_append_stop hdigits hrest
    have hdrop := dropWhile_append_stop hdigits hrest
    obtain ⟨c, t, rfl, hc⟩ := exists_digit hnumeric
    rw [List.cons_append] at htake hdrop ⊢
    rw [whole?]
    · rw [if_pos hc, htake, hdrop]
    · exact fun h => hzero (congrArg some h)

/-- Decimals are read, or no point with a digit behind it stands in front. -/
theorem exists_decimals (t : Text) :
    ∃ decimals rest, t = decimals ++ rest ∧ Decimals decimals ∧
      fraction t = (decimals.tail, rest) ∧
      (decimals = [] → ∀ c u, t = '.' :: c :: u → c.isDigit = false) := by
  unfold fraction
  split
  · next u =>
    obtain ⟨hempty, hstop⟩ | ⟨hne, hrun⟩ := takeWhile_isDigit_cases u
    · refine ⟨[], '.' :: u, rfl, Or.inl rfl, if_pos hempty, ?_⟩
      intro _ c v h
      exact hstop c v (List.cons.inj h).2
    · refine ⟨'.' :: u.takeWhile Char.isDigit, u.dropWhile Char.isDigit, ?_,
        Or.inr ⟨_, rfl, hrun⟩, if_neg ?_, fun h => nomatch h⟩
      · rw [List.cons_append, List.takeWhile_append_dropWhile]
      · rw [hne]
        exact Bool.false_ne_true
  · next hpoint => exact ⟨[], t, rfl, Or.inl rfl, rfl, fun _ c u h => absurd h (hpoint _)⟩

theorem exists_sign (t : Text) : ∃ sign, Sign sign ∧ t = sign ++ (splitSign t).2 := by
  unfold splitSign
  split
  · exact ⟨['-'], Or.inr (Or.inl rfl), rfl⟩
  · exact ⟨['+'], Or.inr (Or.inr rfl), rfl⟩
  · exact ⟨[], Or.inl rfl, rfl⟩

theorem splitSign_append (hs : Sign sign) (hc : c.isDigit = true) (t : Text) :
    (splitSign (sign ++ c :: t)).2 = c :: t := by
  rcases hs with rfl | rfl | rfl
  · rw [List.nil_append, Text.Numeral.splitSign_digit hc]
  · rfl
  · rfl

/-- A power of ten is read, or no letter with an exponent behind it stands in front. -/
theorem exists_scale (t : Text) :
    ∃ scale rest power, t = scale ++ rest ∧ Scale scale ∧ exponent t = (power, rest) ∧
      (scale = [] ↔ power.isNone = true) ∧ (scale = [] → ∀ letter sign c u,
        t = letter :: (sign ++ c :: u) → IsScale letter → Sign sign → c.isDigit = false) := by
  cases t with
  | nil => exact ⟨[], [], none, rfl, Or.inl rfl, rfl, by simp, by simp⟩
  | cons letter u =>
    by_cases hletter : IsScale letter
    · have hif : (letter = 'e' || letter = 'E') = true := by simpa [IsScale] using hletter
      obtain ⟨sign, hsign, hu⟩ := exists_sign u
      obtain ⟨hempty, hstop⟩ | ⟨hne, hrun⟩ := takeWhile_isDigit_cases (splitSign u).2
      · refine ⟨[], letter :: u, none, rfl, Or.inl rfl, ?_, by simp, ?_⟩
        · simp only [exponent, hif, hempty, if_true]
        · intro _ letter' sign' c v h _ hsign'
          -- a digit behind any sign is the one that comes behind the sign that is read
          by_contra hc
          obtain ⟨-, rfl⟩ := List.cons.inj h
          have hdigit := Bool.eq_true_of_not_eq_false hc
          exact hc (hstop c v (splitSign_append hsign' hdigit v))
      · have hpower : ∃ n, exponent (letter :: u) =
            (some n, (splitSign u).2.dropWhile Char.isDigit) := by
          simp [exponent, hif, hne]
        obtain ⟨n, hn⟩ := hpower
        refine ⟨letter :: (sign ++ (splitSign u).2.takeWhile Char.isDigit), _, some n, ?_,
          Or.inr ⟨letter, sign, _, rfl, hletter, hsign, hrun⟩, hn, by simp, by simp⟩
        rw [List.cons_append, List.append_assoc, List.takeWhile_append_dropWhile, ← hu]
    · have hif : (letter = 'e' || letter = 'E') = false := by simpa [IsScale] using hletter
      refine ⟨[], letter :: u, none, rfl, Or.inl rfl, ?_, by simp, ?_⟩
      · simp only [exponent, hif, Bool.false_eq_true, if_false]
      · intro _ letter' sign' c v h hletter' _
        obtain ⟨rfl, -⟩ := List.cons.inj h
        exact absurd hletter' hletter

theorem Decimals.eq_nil_of_tail (h : Decimals decimals) (htail : decimals.tail = []) :
    decimals = [] := by
  rcases h with rfl | ⟨digits, rfl, hdigits⟩
  · rfl
  · exact absurd htail (isNumeric_iff.mp hdigits).1

theorem Decimals.read (h : Decimals decimals)
    (hrest : ∀ c ∈ rest.head?, c.isDigit = false ∧ c ≠ '.') :
    fraction (decimals ++ rest) = (decimals.tail, rest) := by
  rcases h with rfl | ⟨digits, rfl, hdigits⟩
  · cases rest with
    | nil => rfl
    | cons c t => simp [fraction, (hrest c rfl).2]
  · have hstop : ∀ c ∈ rest.head?, c.isDigit = false := fun c hc => (hrest c hc).1
    obtain ⟨hne, hall⟩ := isNumeric_iff.mp hdigits
    simp only [fraction, List.cons_append, takeWhile_append_stop hall hstop,
      dropWhile_append_stop hall hstop, List.isEmpty_eq_false_iff.mpr hne, List.tail_cons,
      Bool.false_eq_true, if_false]

theorem Scale.read (h : Scale scale) (hrest : EndsNumber rest) :
    ∃ power, exponent (scale ++ rest) = (power, rest) ∧ (power.isNone = true → scale = []) := by
  rcases h with rfl | ⟨letter, sign, digits, rfl, hletter, hsign, hdigits⟩
  · exact ⟨none, exponent_of_endsNumber hrest, fun _ => rfl⟩
  · have hif : (letter = 'e' || letter = 'E') = true := by simpa [IsScale] using hletter
    obtain ⟨hne, hall⟩ := isNumeric_iff.mp hdigits
    have htake := takeWhile_append_stop hall hrest.isDigit_head?
    have hdrop := dropWhile_append_stop hall hrest.isDigit_head?
    obtain ⟨c, t, rfl, hc⟩ := exists_digit hdigits
    have hbody := splitSign_append hsign hc (t ++ rest)
    rw [List.cons_append] at htake hdrop
    simp [exponent, hif, hbody, htake, hdrop]

section

variable (negative : Bool) {ds others last : Text} {power : Option Int}

theorem exists_readNumber (hwhole : whole? t = some (whole, others))
    (hds : fraction others = (ds, last)) (hpower : exponent last = (power, rest))
    (hshort : ds = [] → power.isNone = true → whole.length ≤ digitLimit) :
    ∃ v, readNumber negative t = .ok (v, rest) := by
  simp only [readNumber, hwhole, hds, hpower]
  split
  · next h =>
    obtain ⟨hempty, hnone⟩ := Bool.and_eq_true_iff.mp h
    have hle := hshort (List.isEmpty_iff.mp hempty) hnone
    rw [if_neg (by omega)]
    exact ⟨_, rfl⟩
  · exact ⟨_, rfl⟩

theorem readNumber_tooLong (hwhole : whole? t = some (whole, rest))
    (hds : fraction rest = ([], rest)) (hpower : exponent rest = (none, rest))
    (hlong : digitLimit < whole.length) :
    readNumber negative t = .error (.numeralTooLong whole.length) := by
  simp [readNumber, hwhole, hds, hpower, hlong]

/-- A number that is spelled is read, unless what comes behind it goes on with it. -/
theorem Unsigned.read (h : Unsigned t) (hrest : EndsNumber rest) :
    ∃ v, readNumber negative (t ++ rest) = .ok (v, rest) := by
  obtain ⟨whole, decimals, scale, rfl, hwhole, hdecimals, hscale, hshort⟩ := h
  have hbehind : ∀ c ∈ (scale ++ rest).head?, c.isDigit = false ∧ c ≠ '.' := by
    intro c hc
    rcases hscale with rfl | ⟨letter, sign, digits, rfl, hletter, -⟩
    · obtain ⟨t, rfl⟩ := List.head?_eq_some_iff.mp (Option.mem_def.mp hc)
      obtain ⟨hdigit, hpoint, -⟩ := hrest c t rfl
      exact ⟨hdigit, hpoint⟩
    · obtain rfl := Option.some.inj hc
      rcases hletter with rfl | rfl <;> decide
  have hfront : ∀ c ∈ (decimals ++ (scale ++ rest)).head?, c.isDigit = false := by
    intro c hc
    rcases hdecimals with rfl | ⟨digits, rfl, -⟩
    · exact (hbehind c hc).1
    · obtain rfl := Option.some.inj hc
      rfl
  obtain ⟨power, hpower, hnone⟩ := hscale.read hrest
  have htext : whole ++ (decimals ++ scale) ++ rest = whole ++ (decimals ++ (scale ++ rest)) := by
    simp
  rw [htext]
  exact exists_readNumber negative (hwhole.read hfront) (hdecimals.read hbehind) hpower
    fun htail hpower => hshort (hdecimals.eq_nil_of_tail htail) (hnone hpower)

theorem EndsInteger.refused (h : EndsInteger rest) (hwhole : Whole whole)
    (hlong : digitLimit < whole.length) :
    readNumber negative (whole ++ rest) = .error (.numeralTooLong whole.length) := by
  have hstop : ∀ c ∈ rest.head?, c.isDigit = false := by
    intro c hc
    obtain ⟨t, rfl⟩ := List.head?_eq_some_iff.mp (Option.mem_def.mp hc)
    exact h.digit c t rfl
  refine readNumber_tooLong negative (hwhole.read hstop) ?_ ?_ hlong
  · obtain ⟨decimals, others, rfl, hdecimals, hread, -⟩ := exists_decimals rest
    rcases hdecimals with rfl | ⟨digits, rfl, hdigits⟩
    · exact hread
    · obtain ⟨c, t, rfl, hc⟩ := exists_digit hdigits
      exact absurd hc (by simp [h.point c (t ++ others) rfl])
  · obtain ⟨scale, others, power, rfl, hscale, hread, hnone, -⟩ := exists_scale rest
    rcases hscale with rfl | ⟨letter, sign, digits, rfl, hletter, hsign, hdigits⟩
    · rw [List.nil_append] at hread ⊢
      rw [hread, Option.isNone_iff_eq_none.mp (hnone.mp rfl)]
    · obtain ⟨c, t, rfl, hc⟩ := exists_digit hdigits
      exact absurd hc (by simp [h.scale letter sign c (t ++ others) (by simp) hletter hsign])

/-- What becomes of a number: it is misspelled, it is an integer with too many digits, or it is
read. -/
theorem readNumber_cases (t : Text) :
    readNumber negative t = .error .malformed ∨
    (∃ whole rest, t = whole ++ rest ∧ Whole whole ∧ digitLimit < whole.length ∧
      EndsInteger rest ∧ readNumber negative t = .error (.numeralTooLong whole.length)) ∨
    ∃ u rest v, t = u ++ rest ∧ Unsigned u ∧ readNumber negative t = .ok (v, rest) := by
  cases hwhole : whole? t with
  | none => exact Or.inl (by simp only [readNumber, hwhole])
  | some split =>
    obtain ⟨whole, others⟩ := split
    obtain ⟨rfl, hw, hstop⟩ := whole?_eq_some hwhole
    obtain ⟨decimals, last, rfl, hdecimals, hds, hpoint⟩ := exists_decimals others
    obtain ⟨scale, rest, power, rfl, hscale, hpower, hnone, hletter⟩ := exists_scale last
    right
    by_cases hlong : decimals = [] ∧ scale = [] ∧ digitLimit < whole.length
    · obtain ⟨rfl, rfl, hlong⟩ := hlong
      rw [Option.isNone_iff_eq_none.mp (hnone.mp rfl)] at hpower
      refine Or.inl ⟨whole, rest, rfl, hw, hlong, ⟨?_, hpoint rfl, hletter rfl⟩,
        readNumber_tooLong negative hwhole hds hpower hlong⟩
      rcases hstop with rfl | hstop
      · exact absurd hlong (by decide)
      · intro c t hrest
        exact hstop c (by rw [List.nil_append, List.nil_append, hrest]; rfl)
    · have hshort : decimals = [] → scale = [] → whole.length ≤ digitLimit := by
        intro hd hs
        by_contra hle
        exact hlong ⟨hd, hs, by omega⟩
      obtain ⟨v, hv⟩ := exists_readNumber negative hwhole hds hpower
        fun htail hpower => hshort (hdecimals.eq_nil_of_tail htail) (hnone.mpr hpower)
      exact Or.inr ⟨whole ++ (decimals ++ scale), rest, v, by simp,
        ⟨whole, decimals, scale, rfl, hw, hdecimals, hscale, hshort⟩, hv⟩

end

/-! ## Atoms -/

/-- The words of a document. -/
def words : List Text :=
  [['n', 'u', 'l', 'l'], ['t', 'r', 'u', 'e'], ['f', 'a', 'l', 's', 'e'], ['N', 'a', 'N'],
    ['I', 'n', 'f', 'i', 'n', 'i', 't', 'y'], ['-', 'I', 'n', 'f', 'i', 'n', 'i', 't', 'y']]

/-- A word, a text between quotes, or a number with or without a minus sign. -/
inductive Atom : Text → Prop
  | word {t : Text} (h : t ∈ words) : Atom t
  | text {t : Text} (h : Letters t) : Atom ('"' :: (t ++ ['"']))
  | positive {t : Text} (h : Unsigned t) : Atom t
  | negative {t : Text} (h : Unsigned t) : Atom ('-' :: t)

/-- A text that begins with an atom for which there is no value, with the cause: an integer with too
many digits, or a text with half of a character. -/
inductive Refused : Text → ReadError → Prop
  | positive {whole rest : Text} (hwhole : Whole whole) (hlong : digitLimit < whole.length)
    (hrest : EndsInteger rest) : Refused (whole ++ rest) (.numeralTooLong whole.length)
  | negative {whole rest : Text} (hwhole : Whole whole) (hlong : digitLimit < whole.length)
    (hrest : EndsInteger rest) : Refused ('-' :: (whole ++ rest)) (.numeralTooLong whole.length)
  | text {t : Text} (h : Halved t) : Refused ('"' :: t) .halfCharacter

/-- A text with the first character of an atom. -/
def StartsAtom (t : Text) : Prop :=
  ∃ c u, t = c :: u ∧ isSpace c = false ∧ c ∉ ['[', ']', '{', '}']

theorem startsAtom_of_isDigit (hc : c.isDigit = true) (t : Text) : StartsAtom (c :: t) := by
  refine ⟨c, t, rfl, isSpace_of_isDigit hc, ?_⟩
  have hne : ∀ d : Char, d.isDigit = false → c ≠ d := fun d => Text.Numeral.ne_of_isDigit hc
  simp [hne '[' (by decide), hne ']' (by decide), hne '{' (by decide), hne '}' (by decide)]

theorem Whole.exists_digit (h : Whole whole) : ∃ c t, whole = c :: t ∧ c.isDigit = true := by
  rcases h with rfl | ⟨-, hdigits⟩
  · exact ⟨'0', [], rfl, by decide⟩
  · exact Reader.exists_digit hdigits

theorem Unsigned.exists_digit (h : Unsigned t) : ∃ c u, t = c :: u ∧ c.isDigit = true := by
  obtain ⟨whole, decimals, scale, rfl, hwhole, -⟩ := h
  obtain ⟨c, u, rfl, hc⟩ := hwhole.exists_digit
  exact ⟨c, u ++ (decimals ++ scale), rfl, hc⟩

theorem Atom.starts (h : Atom t) : StartsAtom t := by
  cases h with
  | word h =>
    simp only [words, List.mem_cons, List.not_mem_nil, or_false] at h
    rcases h with rfl | rfl | rfl | rfl | rfl | rfl <;> exact ⟨_, _, rfl, by decide⟩
  | text h => exact ⟨'"', _, rfl, by decide⟩
  | positive h =>
    obtain ⟨c, u, rfl, hc⟩ := h.exists_digit
    exact startsAtom_of_isDigit hc u
  | negative h => exact ⟨'-', _, rfl, by decide⟩

theorem Refused.starts (h : Refused t e) : StartsAtom t := by
  cases h with
  | positive hwhole =>
    obtain ⟨c, u, rfl, hc⟩ := hwhole.exists_digit
    exact startsAtom_of_isDigit hc _
  | negative => exact ⟨'-', _, rfl, by decide⟩
  | text => exact ⟨'"', _, rfl, by decide⟩

theorem Refused.ne_malformed (h : Refused t e) : e ≠ .malformed := by
  cases h <;> simp

theorem mem_words_of_readWord? {v : Value} (h : readWord? t = some (v, rest)) :
    ∃ w ∈ words, t = w ++ rest := by
  unfold readWord? at h
  split at h
  case h_7 => cases h
  all_goals
    obtain ⟨-, rfl⟩ := Prod.mk.inj (Option.some.inj h)
    simp [words]

theorem readAtom_quote (t : Text) :
    readAtom ('"' :: t) = (readText t).map fun (s, rest) => (.text s, rest) := rfl

/-- An atom that is spelled is read, unless what comes behind it goes on with its number. -/
theorem Atom.read (h : Atom t) (hrest : EndsNumber rest) :
    ∃ v, readAtom (t ++ rest) = .ok (v, rest) := by
  cases h with
  | word h =>
    simp only [words, List.mem_cons, List.not_mem_nil, or_false] at h
    rcases h with rfl | rfl | rfl | rfl | rfl | rfl <;> exact ⟨_, rfl⟩
  | @text u h =>
    obtain ⟨s, hs⟩ := h.read rest
    refine ⟨.text s, ?_⟩
    have htext : '"' :: (u ++ ['"']) ++ rest = '"' :: (u ++ '"' :: rest) := by simp
    rw [htext, readAtom_quote, hs]
    rfl
  | positive h =>
    obtain ⟨c, u, rfl, hc⟩ := h.exists_digit
    obtain ⟨v, hv⟩ := h.read false hrest
    exact ⟨v, (readAtom_of_isDigit hc _).trans hv⟩
  | negative h =>
    obtain ⟨c, u, rfl, hc⟩ := h.exists_digit
    obtain ⟨v, hv⟩ := h.read true hrest
    exact ⟨v, (readAtom_minus hc _).trans hv⟩

theorem Refused.readAtom_eq (h : Refused t e) : readAtom t = .error e := by
  cases h with
  | positive hwhole hlong hrest =>
    have hread := hrest.refused false hwhole hlong
    obtain ⟨c, u, rfl, hc⟩ := hwhole.exists_digit
    exact (readAtom_of_isDigit hc _).trans hread
  | negative hwhole hlong hrest =>
    have hread := hrest.refused true hwhole hlong
    obtain ⟨c, u, rfl, hc⟩ := hwhole.exists_digit
    exact (readAtom_minus hc _).trans hread
  | text h =>
    rw [readAtom_quote, h.refused]
    rfl

/-- What becomes of an atom: it is misspelled, it has no value, or it is read. -/
theorem readAtom_cases (t : Text) :
    readAtom t = .error .malformed ∨
    (∃ e, Refused t e ∧ readAtom t = .error e) ∨
    ∃ u rest v, t = u ++ rest ∧ Atom u ∧ readAtom t = .ok (v, rest) := by
  unfold readAtom
  split
  · next v rest h =>
    obtain ⟨w, hw, rfl⟩ := mem_words_of_readWord? h
    exact Or.inr (Or.inr ⟨w, rest, v, rfl, .word hw, rfl⟩)
  · split
    · next u _ =>
      cases hread : readText u with
      | error e =>
        obtain rfl | ⟨rfl, hu⟩ := readText_error hread
        · exact Or.inl rfl
        · exact Or.inr (Or.inl ⟨_, .text hu, rfl⟩)
      | ok split =>
        obtain ⟨s, rest⟩ := split
        obtain ⟨u, rfl, hu⟩ := exists_letters hread
        exact Or.inr (Or.inr ⟨_, rest, .text s, by simp, .text hu, rfl⟩)
    · next u _ =>
      obtain h | ⟨whole, rest, rfl, hwhole, hlong, hrest, h⟩ | ⟨u, rest, v, rfl, hu, h⟩ :=
        readNumber_cases true u
      · exact Or.inl h
      · exact Or.inr (Or.inl ⟨_, .negative hwhole hlong hrest, h⟩)
      · exact Or.inr (Or.inr ⟨_, rest, v, rfl, .negative hu, h⟩)
    · obtain h | ⟨whole, rest, rfl, hwhole, hlong, hrest, h⟩ | ⟨u, rest, v, rfl, hu, h⟩ :=
        readNumber_cases false t
      · exact Or.inl h
      · exact Or.inr (Or.inl ⟨_, .positive hwhole hlong hrest, h⟩)
      · exact Or.inr (Or.inr ⟨u, rest, v, rfl, .positive hu, h⟩)

end Barcode.Document.Reader

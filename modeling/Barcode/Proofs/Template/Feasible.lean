import Barcode.Proofs.Template.Acceptance
import Barcode.Proofs.Template.Compiled
import Barcode.Template.Pattern

/-!
# Feasible divisions of a code

A code may be divided among the fields of a template in several ways when more than one field
takes any number of characters. A division is given by the lengths of its slices; it is feasible
when the groups of the pattern take the slices. The split of a code is the greatest feasible
division, where lengths are compared from left to right, and no other division is checked.
-/

namespace Barcode

open Sequence

namespace Pattern

/-- The texts that a group takes. Every character counts, the end of a line included, and a
digit is an ASCII digit. -/
def Shape.Takes : Shape → Text → Prop
  | .exactly text, s => s = text
  | .characters count, s => s.length = count
  | .digits count, s => s.length = count ∧ ∀ c ∈ s, c.isDigit = true
  | .digit, s => ∃ d : Char, s = [d] ∧ d.isDigit = true
  | .anything, _ => True

theorem takes_digit {s : Text} : Shape.digit.Takes s ↔ Text.isDigits 1 s = true := by
  rw [Text.isDigits_iff, List.length_eq_one_iff]
  constructor
  · rintro ⟨d, rfl, hd⟩
    exact ⟨⟨d, rfl⟩, by simpa using hd⟩
  · rintro ⟨⟨d, rfl⟩, hd⟩
    exact ⟨d, rfl, by simpa using hd⟩

/-- The group of a field takes the slices that the field admits. -/
theorem takes_shape_iff {f : Field} {s : Text} : (shape f).Takes s ↔ f.admits s = true := by
  cases f with
  | literal text => simp only [shape, Shape.Takes, Field.admits, decide_eq_true_eq]
  | code shape =>
    obtain ⟨kind, size, constant⟩ := shape
    cases kind <;> simp only [Pattern.shape, Shape.Takes, Field.admits, decide_eq_true_eq]
  | skip size =>
    cases size <;> simp only [shape, Shape.Takes, Field.admits, decide_eq_true_eq]
  | payloadCheck | eanCheck => exact takes_digit
  | _ => exact Text.isDigits_iff.symm

end Pattern

namespace Split

/-- A division of a text among fields by the lengths of consecutive slices. -/
structure Feasible (fields : List Field) (t : Text) (lengths : List Nat) : Prop where
  covers : lengths.sum = t.length
  taken : List.Forall₂ (fun f s => (Pattern.shape f).Takes s) fields (lengths.splitLengths t)

variable {fields : List Field} {t : Text} {l l' : List Nat} {v w : List Text}

theorem splitLengths_flatten (v : List Text) :
    (v.map List.length).splitLengths v.flatten = v := by
  induction v with
  | nil => rfl
  | cons s v ih =>
    rw [List.map_cons, List.flatten_cons, List.splitLengths_cons, List.take_left' rfl,
      List.drop_left' rfl, ih]

theorem Feasible.admitted (h : Feasible fields t l) : Admitted fields (l.splitLengths t) :=
  h.taken.imp fun _ _ => Pattern.takes_shape_iff.mp

theorem Feasible.flatten (h : Feasible fields t l) : (l.splitLengths t).flatten = t :=
  List.flatten_splitLengths t l h.covers.ge

theorem Feasible.lengths (h : Feasible fields t l) : (l.splitLengths t).map List.length = l :=
  List.map_splitLengths_length t l h.covers.le

/-- Slices that their fields admit are a feasible division of the text that they cover. -/
theorem feasible_of_admitted (hv : Admitted fields v) :
    Feasible fields v.flatten (v.map List.length) := by
  constructor
  · rw [List.length_flatten]
  · rw [splitLengths_flatten]
    exact hv.imp fun _ _ => Pattern.takes_shape_iff.mpr

/-! ## The greatest division -/

/-- No cut that the rest accepts leaves more to the first part than the one that is found. -/
theorem length_le_of_longest {β : Type} {rest : Text → Option β} {taken : Text} {b : β}
    (h : longest rest t = some (taken, b)) {s after : Text} {b' : β} (ht : t = s ++ after)
    (hr : rest after = some b') : s.length ≤ taken.length := by
  induction t generalizing s taken b with
  | nil =>
    obtain ⟨rfl, -⟩ := List.append_eq_nil_iff.mp ht.symm
    exact Nat.zero_le _
  | cons c t ih =>
    cases s with
    | nil => exact Nat.zero_le _
    | cons d s =>
      obtain ⟨rfl, rfl⟩ := List.cons.inj ht
      -- a cut behind the first character exists, so the one found is behind it as well
      obtain ⟨⟨taken', b''⟩, hx⟩ := exists_longest hr s
      rw [List.append_eq, longest_cons, hx] at h
      obtain ⟨rfl, -⟩ := Prod.mk.inj (Option.some.inj h)
      exact Nat.succ_le_succ (ih hx rfl)

/-- The split has the greatest lengths of all slices that cover the code. -/
theorem lengths_le_of_slices? (hv : slices? fields t = some v) (hw : Admitted fields w)
    (ht : w.flatten = t) : w.map List.length ≤ v.map List.length := by
  induction hw generalizing t v with
  | nil =>
    rw [slices?] at hv
    split at hv
    · obtain rfl := Option.some.inj hv
      exact le_refl _
    · cases hv
  | @cons f s fields w hs hw ih =>
    obtain ⟨x, hx⟩ := exists_slices?_of_admitted hw
    rw [List.flatten_cons] at ht
    cases hf : f.isUnbounded with
    | true =>
      rw [slices?, if_pos hf] at hv
      obtain ⟨⟨taken, v⟩, hl, rfl⟩ := Option.map_eq_some_iff.mp hv
      obtain ⟨after, hcut, hafter⟩ := longest_eq _ _ _ _ hl
      rw [List.map_cons, List.map_cons]
      rcases Nat.lt_or_eq_of_le (length_le_of_longest hl ht.symm hx) with hlt | heq
      · exact le_of_lt (List.Lex.rel hlt)
      · obtain ⟨-, hsame⟩ := List.append_inj (ht.trans hcut) heq
        rw [heq]
        exact List.cons_le_cons _ (ih hafter hsame)
    | false =>
      rw [← ht, slices?_cons_bounded hf hs] at hv
      obtain ⟨v', hv', rfl⟩ := Option.map_eq_some_iff.mp hv
      rw [List.map_cons, List.map_cons]
      exact List.cons_le_cons _ (ih hv' rfl)

theorem isGreatest_of_slices? (hv : slices? fields t = some v) :
    IsGreatest {l | Feasible fields t l} (v.map List.length) ∧
      (v.map List.length).splitLengths t = v := by
  obtain ⟨ha, hflat⟩ := admitted_of_slices? hv
  subst hflat
  refine ⟨⟨feasible_of_admitted ha, ?_⟩, splitLengths_flatten v⟩
  intro l hl
  have hle := lengths_le_of_slices? hv hl.admitted hl.flatten
  rwa [hl.lengths] at hle

/-- A text that can be divided has a greatest division. -/
theorem exists_isGreatest (h : Feasible fields t l) :
    ∃ l, IsGreatest {l | Feasible fields t l} l := by
  obtain ⟨v, hv⟩ := exists_slices?_of_admitted h.admitted
  rw [h.flatten] at hv
  exact ⟨_, (isGreatest_of_slices? hv).1⟩

/-- The split of a text is its greatest feasible division. -/
theorem slices?_eq_some_iff :
    slices? fields t = some v ↔
      ∃ l, IsGreatest {l | Feasible fields t l} l ∧ l.splitLengths t = v := by
  constructor
  · intro h
    exact ⟨_, isGreatest_of_slices? h⟩
  · rintro ⟨l, hl, rfl⟩
    obtain ⟨v, hv⟩ := exists_slices?_of_admitted hl.1.admitted
    rw [hl.1.flatten] at hv
    obtain ⟨hgreatest, hsplit⟩ := isGreatest_of_slices? hv
    rw [hv, hl.unique hgreatest, hsplit]

/-! ## A single division -/

/-- At most one field of any number of characters leaves no choice of lengths. -/
theorem lengths_unique (hu : fields.countP Field.isUnbounded ≤ 1) (hv : Admitted fields v)
    (hw : Admitted fields w) (hl : v.flatten.length = w.flatten.length) :
    v.map List.length = w.map List.length := by
  induction hv generalizing w with
  | nil =>
    cases hw
    rfl
  | @cons f s fields v hs hv ih =>
    obtain ⟨s', w', hs', hw', rfl⟩ := List.forall₂_cons_left_iff.mp hw
    rw [List.flatten_cons, List.flatten_cons, List.length_append, List.length_append] at hl
    rw [List.countP_cons] at hu
    cases hf : f.isUnbounded with
    | true =>
      rw [if_pos hf] at hu
      have hb : ∀ g ∈ fields, g.isUnbounded = false := by
        have hzero : fields.countP Field.isUnbounded = 0 := by omega
        simpa using List.countP_eq_zero.mp hzero
      have hvl := length_flatten_admitted hb hv
      have hwl := length_flatten_admitted hb hw'
      rw [List.map_cons, List.map_cons, lengths_of_width hv hvl, lengths_of_width hw' hwl,
        show s.length = s'.length by omega]
    | false =>
      have hsl := Field.length_of_admits hf hs
      have hsl' := Field.length_of_admits hf hs'
      rw [List.map_cons, List.map_cons, hsl, hsl', ih (by omega) hw' (by omega)]

theorem feasible_unique (hu : fields.countP Field.isUnbounded ≤ 1)
    (h : Feasible fields t l) (h' : Feasible fields t l') : l = l' := by
  rw [← h.lengths, ← h'.lengths]
  exact lengths_unique hu h.admitted h'.admitted (by rw [h.flatten, h'.flatten])

theorem isGreatest_of_feasible (hu : fields.countP Field.isUnbounded ≤ 1)
    (h : Feasible fields t l) : IsGreatest {l | Feasible fields t l} l :=
  ⟨h, fun _ h' => (feasible_unique hu h' h).le⟩

end Split

namespace Template

variable {id text : Text} {t : Template} {c : Text} {r : Reading} {l : List Nat}

/-- The reading of a code that is divided by the given lengths. -/
def along (t : Template) (c : Text) (lengths : List Nat) : Reading :=
  ⟨t, t.fields.zip (lengths.splitLengths c)⟩

theorem split?_eq_some_iff_isGreatest :
    t.split? c = some r ↔
      ∃ l, IsGreatest {l | Split.Feasible t.fields c l} l ∧ r = t.along c l := by
  rw [split?_eq_some_iff]
  constructor
  · rintro ⟨v, hv, rfl⟩
    obtain ⟨l, hl, rfl⟩ := Split.slices?_eq_some_iff.mp hv
    exact ⟨l, hl, rfl⟩
  · rintro ⟨l, hl, rfl⟩
    exact ⟨_, Split.slices?_eq_some_iff.mpr ⟨l, hl, rfl⟩, rfl⟩

/-! ## Readings are checked without a fault -/

/-- A template with the check digit of a payload has a payload of five digits to check. -/
theorem exists_checkedPayload (hl : Grammar.Lawful t.fields) (hs : t.split? c = some r)
    (hc : .payloadCheck ∈ t.fields) :
    ∃ p, r.checkedPayload? = some p ∧ Text.isDigits 5 p = true := by
  obtain ⟨f, hf, hfive⟩ := List.exists_of_findSome?_eq_some (hl.payload hc)
  rw [← fields_of_split? hs] at hf
  obtain ⟨e, he, rfl⟩ := List.mem_map.mp hf
  cases hp : r.checkedPayload? with
  | none =>
    have hnone := List.findSome?_eq_none_iff.mp hp e he
    rw [if_pos hfive] at hnone
    cases hnone
  | some p =>
    obtain ⟨⟨g, s⟩, hg, hgs⟩ := List.exists_of_findSome?_eq_some hp
    split at hgs
    · next hg5 =>
      obtain rfl := Option.some.inj hgs
      have hadmit := admits_of_split? hs hg
      refine ⟨s, rfl, ?_⟩
      cases g with
      | embed size =>
        obtain rfl := Option.some.inj hg5
        exact hadmit
      | embedHundreds size =>
        obtain rfl := Option.some.inj hg5
        exact hadmit
      | _ => cases hg5
    · cases hgs

theorem exists_flaw? (hl : Grammar.Lawful t.fields) (hs : t.split? c = some r)
    {e : Field × Text} (he : e ∈ r.entries) : ∃ flaw?, r.flaw? e = .ok flaw? := by
  obtain ⟨f, s⟩ := e
  have hadmit := admits_of_split? hs he
  have hf : f ∈ t.fields := by
    rw [← fields_of_split? hs]
    exact List.mem_map_of_mem he
  cases f with
  | payloadCheck =>
    obtain ⟨p, hp, hp5⟩ := exists_checkedPayload hl hs hf
    obtain ⟨d, hd⟩ := Ean.exists_payloadCheck hp5
    rw [Reading.flaw?, Reading.payloadFlaw?, hp]
    exact ⟨_, bind_eq_ok.mpr ⟨d, hd, rfl⟩⟩
  | eanCheck =>
    have hread := Text.Numeral.read_isDigits (by decide) (by decide) hadmit
    rw [Reading.flaw?, Reading.eanFlaw?]
    cases Ean.parse? r.code with
    | none => exact ⟨_, rfl⟩
    | some ean => exact ⟨_, bind_eq_ok.mpr ⟨_, hread, rfl⟩⟩
  | _ => exact ⟨_, rfl⟩

theorem exists_flaws (hl : Grammar.Lawful t.fields) (hs : t.split? c = some r) :
    ∃ found, r.flaws = .ok found := by
  obtain ⟨found, hf⟩ := exists_mapM_eq_ok (f := fun e => do
      return (← r.flaw? e).map fun flaw => (e.1, flaw)) (l := r.entries) (by
    intro e he
    obtain ⟨flaw?, h⟩ := exists_flaw? hl hs he
    exact ⟨_, bind_eq_ok.mpr ⟨flaw?, h, rfl⟩⟩)
  exact ⟨_, bind_eq_ok.mpr ⟨found, hf, rfl⟩⟩

theorem exists_outcome (hl : Grammar.Lawful t.fields) (c : Text) :
    ∃ outcome, t.read c = .ok outcome := by
  unfold read
  cases hs : t.split? c with
  | none => exact ⟨_, rfl⟩
  | some r =>
    obtain ⟨found, hf⟩ := exists_flaws hl hs
    exact ⟨_, bind_eq_ok.mpr ⟨found, hf, rfl⟩⟩

/-! ## The meaning of a template -/

/-- **A code is read along its greatest feasible division.** Reading never fails. A code that
can be divided has a greatest division, and it is accepted exactly when that division passes
the checks, with the fields beside their slices. The expected length turns no code away that
can be divided, and with at most one field of any number of characters every division that
passes the checks is the one that is read. -/
theorem read_eq_accepted_iff_isGreatest (h : compile id text = .ok t) (c : Text) :
    (∃ outcome, t.read c = .ok outcome) ∧
    ((∃ l, Split.Feasible t.fields c l) → ∃ l, IsGreatest {l | Split.Feasible t.fields c l} l) ∧
    (∀ r, t.read c = .ok (.accepted r) ↔
      ∃ l, IsGreatest {l | Split.Feasible t.fields c l} l ∧ (t.along c l).flaws = .ok [] ∧
        r = t.along c l) ∧
    (∀ r, t.read c = .ok (.accepted r) → r.entries.map Prod.fst = t.fields ∧ r.code = c) ∧
    ((∃ l, Split.Feasible t.fields c l) → t.expectedLength ≠ 0 → c.length = t.expectedLength) ∧
    (t.fields.countP Field.isUnbounded ≤ 1 →
      ((∃ r, t.read c = .ok (.accepted r)) ↔
        ∃ l, Split.Feasible t.fields c l ∧ (t.along c l).flaws = .ok [])) := by
  have haccepted : ∀ r, t.read c = .ok (.accepted r) ↔
      ∃ l, IsGreatest {l | Split.Feasible t.fields c l} l ∧ (t.along c l).flaws = .ok [] ∧
        r = t.along c l := by
    intro r
    rw [read_eq_accepted_iff, split?_eq_some_iff_isGreatest, ← Reading.flaws_eq_nil_iff]
    constructor
    · rintro ⟨⟨l, hl, rfl⟩, hf⟩
      exact ⟨l, hl, hf, rfl⟩
    · rintro ⟨l, hl, hf, rfl⟩
      exact ⟨⟨l, hl, rfl⟩, hf⟩
  refine ⟨exists_outcome (lawful_of_compile h) c, ?_, haccepted, ?_, ?_, ?_⟩
  · rintro ⟨l, hl⟩
    exact Split.exists_isGreatest hl
  · intro r hr
    obtain ⟨hs, -⟩ := read_eq_accepted_iff.mp hr
    exact ⟨fields_of_split? hs, code_of_split? hs⟩
  · rintro ⟨l, hl⟩ hne
    obtain ⟨v, hv⟩ := Split.exists_slices?_of_admitted hl.admitted
    rw [hl.flatten] at hv
    exact length_eq_expectedLength hv hne
  · intro hu
    constructor
    · rintro ⟨r, hr⟩
      obtain ⟨l, hl, hf, -⟩ := (haccepted r).mp hr
      exact ⟨l, hl.1, hf⟩
    · rintro ⟨l, hl, hf⟩
      exact ⟨_, (haccepted _).mpr ⟨l, Split.isGreatest_of_feasible hu hl, hf, rfl⟩⟩

/-- A literal between two fields of any number of characters. -/
def overlapping : Template :=
  ⟨[], Text.withBraces "[code:*]5[_:*]", [.code { kind := .any }, .literal ['5'], .skip none]⟩

/-- Of two ways to divide the code, the one with the longer lookup code is read. -/
theorem read_overlapping :
    compile overlapping.id overlapping.text = .ok overlapping ∧
      ∃ l, IsGreatest {l | Split.Feasible overlapping.fields "1552".toList l} l ∧
        overlapping.along "1552".toList l = ⟨overlapping,
          [(.code { kind := .any }, "15".toList), (.literal ['5'], "5".toList),
            (.skip none, "2".toList)]⟩ := by
  have hc : compile overlapping.id overlapping.text = .ok overlapping := by cbv
  have hm : overlapping.read "1552".toList = .ok (.accepted ⟨overlapping,
      [(.code { kind := .any }, "15".toList), (.literal ['5'], "5".toList),
        (.skip none, "2".toList)]⟩) := rfl
  obtain ⟨-, -, haccepted, -⟩ := read_eq_accepted_iff_isGreatest hc "1552".toList
  obtain ⟨l, hl, -, hr⟩ := (haccepted _).mp hm
  exact ⟨hc, l, hl, hr.symm⟩

end Template

end Barcode

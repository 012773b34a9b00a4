import Barcode.Proofs.Template.Language

/-!
# The error of a template text

A text that is not compiled has one error, which is the leftmost: that of the first token that is
refused, or that of a brace without a counterpart behind accepted tokens, whatever follows. The
rules on the whole are looked at once everything is read, and the first one that is broken
decides. `Faulty` says so from left to right, and the compiler ends with a fault exactly when the
text is faulty in this way.
-/

namespace Barcode

open Sequence
open Piece (Divides Unmatched join)

namespace Piece

variable {p q : Piece} {ps : List Piece} {t : Text} {f : Field}

/-- The field of a piece, or why it has none. -/
def compile : Piece → Except Fault Field
  | .literal text => .ok (.literal text)
  | .braced body => Grammar.bracketedField (Field.bracketed body)

theorem compile_eq_ok_iff : p.compile = .ok f ↔ p.Denotes f := by
  rw [← field_eq_ok_iff 0]
  cases p <;> rfl

/-- The place of a piece does not count for its field. -/
theorem mapM_tokens (position : Nat) (ps : List Piece) :
    (tokens position ps).mapM Grammar.field = ps.mapM compile := by
  induction ps generalizing position with
  | nil => rfl
  | cons p ps ih =>
    have hp : Grammar.field ⟨p.text, !p.isLiteral, position⟩ = p.compile := by cases p <;> rfl
    rw [tokens, List.mapM_cons, List.mapM_cons, ih, hp]

end Piece

namespace Grammar

/-- Complete pieces one behind the other that are accepted one by one. Literals may be next to each
other. -/
def Accepted (q : Text) : Prop :=
  ∃ ps, join ps = q ∧ ∀ p ∈ ps, p.WellFormed ∧ ∃ f, p.Denotes f

/-- Accepted pieces are those of a text. -/
theorem Accepted.exists_divides {q : Text} (h : Accepted q) :
    ∃ ps, Divides q ps ∧ ∀ p ∈ ps, ∃ f, p.Denotes f := by
  obtain ⟨ps, rfl, hps⟩ := h
  exact Piece.exists_divides_of_wellFormed (P := fun p => ∃ f, p.Denotes f)
    (fun _ => ⟨_, rfl⟩) hps

/-- The first rule on the whole that fields break. -/
inductive Breaks : List Field → GrammarError → Prop
  | empty : Breaks [] .empty
  | duplicates {fields : List Field} (hne : fields ≠ []) (hd : duplicates fields ≠ []) :
    Breaks fields (.duplicates (duplicates fields))
  | missingPayload {fields : List Field} (hne : fields ≠ []) (hd : duplicates fields = [])
    (hc : .payloadCheck ∈ fields) (hp : fields.findSome? Field.integerPayload? ≠ some 5) :
    Breaks fields .missingPayload
  | misplacedCheck {fields : List Field} (hne : fields ≠ []) (hd : duplicates fields = [])
    (hp : .payloadCheck ∈ fields → fields.findSome? Field.integerPayload? = some 5)
    (he : .eanCheck ∈ fields) (hl : fields.getLast? ≠ some .eanCheck) :
    Breaks fields .misplacedCheck

/-- What is wrong with a template text, said from left to right: behind complete pieces that denote
fields stands a token that is refused or a brace without a counterpart; or there is none of these,
and the fields break a rule on the whole. -/
inductive Faulty : Text → Fault → Prop
  | token {q body : Text} {fault : Fault} (hq : Accepted q) (hb : '}' ∉ body)
    (hf : bracketedField (Field.bracketed body) = .error fault) (w : Text) :
    Faulty (q ++ (Field.bracketed body ++ w)) fault
  | brace {q rest : Text} {error : GrammarError} (hq : Accepted q)
    (hu : Unmatched q.length rest error) : Faulty (q ++ rest) (.grammar error)
  | rule {s : Text} {ps : List Piece} {fields : List Field} {error : GrammarError}
    (hs : Divides s ps) (hf : List.Forall₂ Piece.Denotes ps fields)
    (hr : Breaks fields error) : Faulty s (.grammar error)

variable {s q rest : Text} {ps : List Piece} {fields : List Field} {error : GrammarError}
  {fault : Fault}

/-! ## The rules on the whole -/

theorem check_eq_error_iff : check fields = .error error ↔ Breaks fields error := by
  unfold check
  constructor
  · intro h
    split at h
    · next he =>
      obtain rfl := Except.error.inj h
      rw [List.isEmpty_iff.mp he]
      exact .empty
    next he =>
    have hne : fields ≠ [] := by simpa using he
    split at h
    · next hd =>
      obtain rfl := Except.error.inj h
      exact .duplicates hne hd
    next hd =>
    have hd := not_not.mp hd
    split at h
    · next hp =>
      obtain rfl := Except.error.inj h
      simp only [Bool.and_eq_true, List.contains_iff_mem, decide_eq_true_eq] at hp
      exact .missingPayload hne hd hp.1 hp.2
    next hp =>
    split at h
    · next hl =>
      obtain rfl := Except.error.inj h
      simp only [Bool.and_eq_true, List.contains_iff_mem, decide_eq_true_eq] at hp hl
      exact .misplacedCheck hne hd (fun hc => not_not.mp fun hfive => hp ⟨hc, hfive⟩) hl.1 hl.2
    · cases h
  · intro h
    cases h with
    | empty => rfl
    | duplicates hne hd => rw [if_neg (by simpa using hne), if_pos hd]
    | missingPayload hne hd hc hp =>
      rw [if_neg (by simpa using hne), if_neg (not_not.mpr hd), if_pos]
      simp [hc, hp]
    | misplacedCheck hne hd hp he hl =>
      rw [if_neg (by simpa using hne), if_neg (not_not.mpr hd), if_neg, if_pos]
      · simp [he, hl]
      · simp only [Bool.and_eq_true, List.contains_iff_mem, decide_eq_true_eq]
        exact fun ⟨hc, hfive⟩ => hfive (hp hc)

/-! ## The error of a piece -/

/-- What an error of a token says: the token, and that its name or its value is refused. -/
def Refuses (token : Text) (error : GrammarError) : Prop :=
  error.token? = some token ∧ (error.code = .unknownToken ∨ error.code = .invalidLength)

theorem refuses_of_length {value token : Text} (h : length value token = .error (.grammar error)) :
    Refuses token error := by
  unfold length at h
  split at h
  · cases h
    exact ⟨rfl, Or.inr rfl⟩
  · split at h
    · cases h
    · split at h <;> cases h
      exact ⟨rfl, Or.inr rfl⟩

theorem refuses_of_map_length {value token : Text} {g : Nat → Field}
    (h : (length value token).map g = .error (.grammar error)) : Refuses token error :=
  refuses_of_length (map_eq_error.mp h)

theorem refuses_of_codeField {separator? : Option Char} {value token : Text}
    (h : codeField separator? value token = .error (.grammar error)) : Refuses token error := by
  unfold codeField at h
  split at h
  · cases h
  · split at h
    · cases h
    · cases h
    · cases h
    · cases h
    · exact refuses_of_map_length h

theorem refuses_of_embedField {value token : Text}
    (h : embedField value token = .error (.grammar error)) : Refuses token error := by
  unfold embedField at h
  split at h
  · exact refuses_of_map_length h
  · split at h
    · cases h
      exact ⟨rfl, Or.inr rfl⟩
    · rcases bind_eq_error.mp h with h | ⟨n, -, h⟩
      · exact refuses_of_length h
      · exact refuses_of_length (bind_pure_eq_error.mp h)

theorem refuses_of_skipField {value token : Text}
    (h : skipField value token = .error (.grammar error)) : Refuses token error := by
  unfold skipField at h
  split at h
  · cases h
  · exact refuses_of_map_length h

theorem refuses_of_bracketedField {token : Text}
    (h : bracketedField token = .error (.grammar error)) : Refuses token error := by
  unfold bracketedField at h
  simp only at h
  split at h
  · exact refuses_of_codeField h
  · exact refuses_of_embedField h
  · exact refuses_of_map_length h
  · exact refuses_of_map_length h
  · exact refuses_of_skipField h
  · exact refuses_of_map_length h
  · exact refuses_of_map_length h
  · cases h
    exact ⟨rfl, Or.inl rfl⟩

/-! ## The leftmost fault -/

/-- A scan gets through accepted pieces, and each of their tokens has a field. -/
theorem Accepted.scan (h : Accepted q) (hrest : ∀ c ∈ rest.head?, Token.isLiteral c = false) :
    ∃ before fields, before.mapM field = .ok fields ∧
      Token.scan (q ++ rest) =
        ⟨before ++ (Token.scanFrom q.length rest).tokens,
          (Token.scanFrom q.length rest).error?⟩ := by
  obtain ⟨ps, hd, hps⟩ := h.exists_divides
  obtain ⟨fields, hf⟩ := exists_mapM_eq_ok (f := Piece.compile) (l := ps) fun p hp => by
    obtain ⟨f, hf⟩ := hps p hp
    exact ⟨f, Piece.compile_eq_ok_iff.mpr hf⟩
  refine ⟨Piece.tokens 0 ps, fields, by rw [Piece.mapM_tokens, hf], ?_⟩
  rw [Token.scan, hd.scanFrom_append hrest, Nat.zero_add]

/-- What is wrong with a text is what its compilation ends with. -/
theorem Faulty.compile_eq (h : Faulty s fault) : compile s = .error fault := by
  rw [compile_eq_error_iff_stages]
  cases h with
  | @token q body fault hq hb hf w =>
    have hhead := Piece.head_text (p := .braced body) rfl w
    obtain ⟨before, fields, hfields, hscan⟩ := hq.scan hhead
    rw [Piece.text] at hscan
    left
    rw [hscan, Piece.scanFrom_braced hb, List.mapM_append, hfields, ok_bind]
    -- the refused token is the first one behind the accepted pieces
    have hfirst : field ⟨Field.bracketed body, true, q.length⟩ = .error fault := hf
    rw [Scan.cons, List.mapM_cons, hfirst]
    rfl
  | @brace q rest error hq hu =>
    obtain ⟨before, fields, hfields, hscan⟩ := hq.scan hu.head
    rw [hscan, hu.scanFrom, List.append_nil]
    exact Or.inr ⟨fields, hfields, error, rfl, Or.inl rfl⟩
  | @rule s ps fields error hs hf hr =>
    have hfields : ps.mapM Piece.compile = .ok fields := by
      rw [mapM_eq_ok]
      exact hf.imp fun _ _ => Piece.compile_eq_ok_iff.mpr
    rw [Token.scan, hs.scanFrom, Piece.mapM_tokens]
    exact Or.inr ⟨fields, hfields, error, rfl, Or.inr ⟨rfl, check_eq_error_iff.mpr hr⟩⟩

theorem accepted_of_forall (hw : ∀ p ∈ ps, p.WellFormed) (hf : ∀ p ∈ ps, ∃ f, p.compile = .ok f) :
    Accepted (join ps) := by
  refine ⟨ps, rfl, fun p hp => ⟨hw p hp, ?_⟩⟩
  obtain ⟨f, hf⟩ := hf p hp
  exact ⟨f, Piece.compile_eq_ok_iff.mp hf⟩

/-- The first piece that is refused is at fault, whatever follows. -/
theorem faulty_of_mapM (hw : ∀ p ∈ ps, p.WellFormed) (h : ps.mapM Piece.compile = .error fault)
    (rest : Text) : Faulty (join ps ++ rest) fault := by
  obtain ⟨before, p, after, rfl, hbefore, hp⟩ := mapM_eq_error.mp h
  have hq : Accepted (join before) :=
    accepted_of_forall (fun q hq => hw q (List.mem_append_left _ hq)) hbefore
  cases p with
  | literal run => cases hp
  | braced body =>
    have hb : (Piece.braced body).WellFormed := hw _ (by simp)
    have htext : join (before ++ .braced body :: after) ++ rest =
        join before ++ (Field.bracketed body ++ (join after ++ rest)) := by
      simp [join, Piece.text]
    rw [htext]
    exact .token hq hb hp _

/-- The error of a compilation says what is wrong with the text. -/
theorem faulty_of_compile_eq (h : compile s = .error fault) : Faulty s fault := by
  obtain ⟨ps, rest, hcut⟩ := Piece.exists_cut 0 s
  rw [compile_eq_error_iff_stages, Token.scan, hcut.scanFrom_tokens, Piece.mapM_tokens] at h
  obtain ⟨rfl, hd, hstop⟩ := hcut
  rcases h with h | ⟨fields, hfields, error, rfl, h⟩
  · exact faulty_of_mapM hd.wellFormed h rest
  have hforall := mapM_eq_ok.mp hfields
  -- behind the pieces is the end of the text, or a brace at which the scan ended
  rcases hstop with rfl | ⟨stray, hu⟩
  · rw [List.append_nil, hd.scanFrom] at h
    rw [List.append_nil]
    obtain h | ⟨-, hr⟩ := h
    · cases h
    · have hdenotes := hforall.imp fun _ _ => Piece.compile_eq_ok_iff.mp
      exact .rule hd hdenotes (check_eq_error_iff.mp hr)
  · have hu' := hu
    rw [Nat.zero_add] at hu'
    rw [hd.scanFrom_append hu.head, hu.scanFrom] at h
    obtain h | ⟨h, -⟩ := h
    · cases Option.some.inj h
      refine .brace (accepted_of_forall hd.wellFormed fun p hp => ?_) hu'
      obtain ⟨f, -, hf⟩ := exists_of_mem_left hforall hp
      exact ⟨f, hf⟩
    · cases h

/-- The errors of the rules on the whole, in the order in which the rules are looked at. -/
def wholeCodes : List GrammarCode :=
  [.emptyTemplate, .duplicateComponent, .missingEmbedField, .misplacedChecksum]

theorem rule_of_wholeCodes (h : Faulty s (.grammar error)) (hc : error.code ∈ wholeCodes) :
    ∃ ps fields, Divides s ps ∧ List.Forall₂ Piece.Denotes ps fields ∧ Breaks fields error := by
  cases h with
  | token _ _ hf _ =>
    obtain ⟨-, hcode | hcode⟩ := refuses_of_bracketedField hf <;>
      exact absurd hc (by rw [hcode]; decide)
  | brace _ hu => cases hu <;> simp [wholeCodes, GrammarError.code] at hc
  | rule hs hf hr => exact ⟨_, _, hs, hf, hr⟩

/-- **The error of a text that is not compiled is its leftmost fault.** Behind accepted pieces a
refused token gives its own error, and a brace without a counterpart gives one with its place,
whatever follows. The rules on the whole are looked at when all pieces are accepted, and the first
one that is broken decides. -/
theorem compile_error_leftmost :
    (∀ s fault, compile s = .error fault ↔ Faulty s fault) ∧
    (∀ q body fault w, Accepted q → '}' ∉ body →
      bracketedField (Field.bracketed body) = .error fault →
        compile (q ++ (Field.bracketed body ++ w)) = .error fault ∧
        ∀ error, fault = .grammar error → Refuses (Field.bracketed body) error) ∧
    (∀ q w, Accepted q →
      compile (q ++ '}' :: w) = .error (.grammar (.unexpectedClosing q.length ('}' :: w)))) ∧
    (∀ q w, Accepted q → '}' ∉ w →
      compile (q ++ '{' :: w) = .error (.grammar (.unterminated q.length ('{' :: w)))) ∧
    ∀ s error, error.code ∈ wholeCodes → (compile s = .error (.grammar error) ↔
      ∃ ps fields, Divides s ps ∧ List.Forall₂ Piece.Denotes ps fields ∧ Breaks fields error) := by
  refine ⟨fun s fault => ⟨faulty_of_compile_eq, Faulty.compile_eq⟩, ?_, ?_, ?_, ?_⟩
  · intro q body fault w hq hb hf
    refine ⟨(Faulty.token hq hb hf w).compile_eq, ?_⟩
    rintro error rfl
    exact refuses_of_bracketedField hf
  · intro q w hq
    exact (Faulty.brace hq (.closing w)).compile_eq
  · intro q w hq hw
    exact (Faulty.brace hq (.opening hw)).compile_eq
  · intro s error hc
    constructor
    · intro h
      exact rule_of_wholeCodes (faulty_of_compile_eq h) hc
    · rintro ⟨ps, fields, hs, hf, hr⟩
      exact (Faulty.rule hs hf hr).compile_eq

/-- A name that is not known is at fault before the braces behind it, and a stray brace before
it is at fault first. -/
theorem compile_error_leftmost_stray :
    (∃ q, q = Text.withBraces "x[code:5]" ∧ Accepted q ∧ '}' ∉ "bogus:3".toList ∧
      bracketedField (Field.bracketed "bogus:3".toList) =
        .error (.grammar (.unknownName "bogus".toList (Field.bracketed "bogus:3".toList))) ∧
      compile (q ++ (Field.bracketed "bogus:3".toList ++ ['}', '{'])) =
        .error (.grammar (.unknownName "bogus".toList (Field.bracketed "bogus:3".toList))) ∧
      compile (q ++ '}' :: Text.withBraces "[bogus:3]") =
        .error (.grammar (.unexpectedClosing 9 ('}' :: Text.withBraces "[bogus:3]"))) ∧
      compile (q ++ '{' :: "bogus:3".toList) =
        .error (.grammar (.unterminated 9 ('{' :: "bogus:3".toList)))) ∧
    GrammarError.empty.code ∈ wholeCodes ∧ compile [] = .error (.grammar .empty) := by
  obtain ⟨-, htoken, hclosing, hopening, hrule⟩ := compile_error_leftmost
  have hq : Accepted (Text.withBraces "x[code:5]") := by
    refine ⟨[.literal ['x'], .braced "code:5".toList], rfl, ?_⟩
    intro p hp
    simp only [List.mem_cons, List.not_mem_nil, or_false] at hp
    rcases hp with rfl | rfl
    · exact ⟨by simp [Piece.WellFormed], _, rfl⟩
    · exact ⟨by simp [Piece.WellFormed], _, Piece.compile_eq_ok_iff.mp rfl⟩
  have hf : bracketedField (Field.bracketed "bogus:3".toList) =
      .error (.grammar (.unknownName "bogus".toList (Field.bracketed "bogus:3".toList))) := rfl
  refine ⟨⟨_, rfl, hq, by decide, hf, (htoken _ _ _ _ hq (by decide) hf).1,
    hclosing _ _ hq, hopening _ _ hq (by decide)⟩, by decide, ?_⟩
  exact (hrule [] .empty (by decide)).mpr ⟨[], [], Piece.divides_nil, .nil, .empty⟩

end Grammar

end Barcode

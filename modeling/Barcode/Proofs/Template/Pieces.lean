import Barcode.Proofs.Text.Digits
import Barcode.Template.Field
import Barcode.Template.Token

/-!
# The pieces of a template text

A template text is made of literals and of bodies between braces. A scan finds the pieces that a
text is made of: it ends without an error exactly on the texts that are made of pieces, and its
tokens are the pieces in order with their places. Literals hold no brace and are never next to
each other, so a text is made of pieces in one way only.
-/

namespace Barcode

inductive Piece where
  | literal (text : Text)
  /-- The text between an opening brace and the first closing one. -/
  | braced (body : Text)
  deriving DecidableEq, Repr

namespace Piece

open Text (takeWhile_append_stop dropWhile_append_stop head?_dropWhile)
open Token (isInside scanFrom)

def text : Piece → Text
  | .literal text => text
  | .braced body => Field.bracketed body

def isLiteral : Piece → Bool
  | .literal _ => true
  | .braced _ => false

/-- A literal is not empty and has no brace; a body has no closing brace. -/
def WellFormed : Piece → Prop
  | .literal text => text ≠ [] ∧ ∀ c ∈ text, c ≠ '{' ∧ c ≠ '}'
  | .braced body => '}' ∉ body

/-- The texts of pieces one behind the other. -/
def join (ps : List Piece) : Text := ps.flatMap text

/-- A text is made of pieces. No literal is next to another one, so literals are as long as
possible. -/
structure Divides (t : Text) (ps : List Piece) : Prop where
  join_eq : join ps = t
  wellFormed : ∀ p ∈ ps, p.WellFormed
  maximal : ps.IsChain fun p q => p.isLiteral = true → q.isLiteral = false

/-- The pieces with their places as tokens. -/
def tokens (position : Nat) : List Piece → List Token
  | [] => []
  | p :: ps => ⟨p.text, !p.isLiteral, position⟩ :: tokens (position + p.text.length) ps

variable {t rest body run : Text} {p q : Piece} {ps qs : List Piece} {position : Nat}

theorem join_cons (p : Piece) (ps : List Piece) : join (p :: ps) = p.text ++ join ps :=
  List.flatMap_cons

/-! ## One piece -/

theorem isLiteral_iff {c : Char} : Token.isLiteral c = true ↔ c ≠ '{' ∧ c ≠ '}' := by
  simp [Token.isLiteral]

theorem isInside_iff {c : Char} : isInside c = true ↔ c ≠ '}' := by simp [isInside]

theorem scanFrom_nil : scanFrom position [] = ⟨[], none⟩ := by rw [Token.scanFrom]

/-- A scan takes a literal up to the next brace. -/
theorem scanFrom_literal (hr : (literal run).WellFormed)
    (hstop : ∀ c ∈ t.head?, Token.isLiteral c = false) :
    scanFrom position (run ++ t) =
      (scanFrom (position + run.length) t).cons ⟨run, false, position⟩ := by
  obtain ⟨hne, hchars⟩ := hr
  obtain ⟨c, run, rfl⟩ := List.exists_cons_of_ne_nil hne
  have hc := hchars c (by simp)
  have hrun : ∀ d ∈ run, Token.isLiteral d = true := fun d hd =>
    isLiteral_iff.mpr (hchars d (List.mem_cons_of_mem _ hd))
  rw [List.cons_append, scanFrom, if_neg hc.2, if_neg hc.1]
  simp only [takeWhile_append_stop hrun hstop, dropWhile_append_stop hrun hstop]

/-- A scan takes a body up to its closing brace. -/
theorem scanFrom_braced (hb : '}' ∉ body) :
    scanFrom position (Field.bracketed body ++ t) =
      (scanFrom (position + (Field.bracketed body).length) t).cons
        ⟨Field.bracketed body, true, position⟩ := by
  have hall : ∀ c ∈ body, isInside c = true := by
    intro c hc
    rw [isInside_iff]
    rintro rfl
    exact hb hc
  have hstop : ∀ c ∈ ('}' :: t).head?, isInside c = false := by simp [isInside]
  have htake := takeWhile_append_stop hall hstop
  have hdrop := dropWhile_append_stop hall hstop
  have htext : Field.bracketed body ++ t = '{' :: (body ++ '}' :: t) := by simp [Field.bracketed]
  rw [htext, scanFrom, if_neg (by decide), if_pos rfl]
  split
  · next h =>
    rw [hdrop] at h
    cases h
  · next close after h =>
    rw [hdrop] at h
    obtain ⟨rfl, rfl⟩ := List.cons.inj h
    rw [htake]
    rfl

/-- The text of a piece that is no literal begins with a brace. -/
theorem head_text (hp : p.isLiteral = false) (t : Text) :
    ∀ c ∈ (p.text ++ t).head?, Token.isLiteral c = false := by
  cases p with
  | literal text => cases hp
  | braced body =>
    intro c hc
    obtain rfl : '{' = c := Option.some.inj hc
    rfl

/-! ## Many pieces -/

theorem scanFrom_piece (hp : p.WellFormed)
    (hstop : p.isLiteral = true → ∀ c ∈ t.head?, Token.isLiteral c = false) :
    scanFrom position (p.text ++ t) =
      (scanFrom (position + p.text.length) t).cons ⟨p.text, !p.isLiteral, position⟩ := by
  cases p with
  | literal run => exact scanFrom_literal hp (hstop rfl)
  | braced body => exact scanFrom_braced hp

/-- A scan of a text that begins with pieces finds them, and goes on behind them unless the last
one could be longer. -/
theorem Divides.scanFrom_append (h : Divides t ps)
    (hrest : ∀ c ∈ rest.head?, Token.isLiteral c = false) (position : Nat) :
    Token.scanFrom position (t ++ rest) =
      ⟨tokens position ps ++ (Token.scanFrom (position + t.length) rest).tokens,
        (Token.scanFrom (position + t.length) rest).error?⟩ := by
  obtain ⟨rfl, hw, hm⟩ := h
  induction ps generalizing position with
  | nil => rfl
  | cons p ps ih =>
    obtain ⟨hnext, hm⟩ := List.isChain_cons.mp hm
    have hstop : p.isLiteral = true →
        ∀ c ∈ (join ps ++ rest).head?, Token.isLiteral c = false := by
      intro hp
      cases ps with
      | nil => exact hrest
      | cons q ps =>
        rw [join_cons, List.append_assoc]
        exact head_text (hnext q rfl hp) _
    rw [join_cons, List.append_assoc, scanFrom_piece (hw p (by simp)) hstop,
      ih _ (fun q hq => hw q (List.mem_cons_of_mem _ hq)) hm, List.length_append, Nat.add_assoc]
    rfl

/-- The pieces of a text are the tokens of its scan. -/
theorem Divides.scanFrom (h : Divides t ps) (position : Nat) :
    scanFrom position t = ⟨tokens position ps, none⟩ := by
  have hrest : ∀ c ∈ ([] : Text).head?, Token.isLiteral c = false := by simp
  have hscan := h.scanFrom_append hrest position
  rw [List.append_nil, scanFrom_nil, List.append_nil] at hscan
  exact hscan

theorem text_injective (hl : p.isLiteral = q.isLiteral) (ht : p.text = q.text) : p = q := by
  cases p with
  | literal run =>
    cases q with
    | literal run' => exact congrArg literal ht
    | braced body' => cases hl
  | braced body =>
    cases q with
    | literal run' => cases hl
    | braced body' =>
      have hbody : body ++ ['}'] = body' ++ ['}'] := List.tail_eq_of_cons_eq ht
      rw [List.append_cancel_right hbody]

theorem tokens_injective (h : tokens position ps = tokens position qs) : ps = qs := by
  induction ps generalizing qs position with
  | nil =>
    cases qs with
    | nil => rfl
    | cons q qs => cases h
  | cons p ps ih =>
    cases qs with
    | nil => cases h
    | cons q qs =>
      obtain ⟨htoken, hrest⟩ := List.cons.inj h
      obtain ⟨htext, hflag, -⟩ := Token.mk.inj htoken
      obtain rfl : p = q := text_injective (Bool.not_inj hflag) htext
      rw [ih hrest]

/-- **A text is made of pieces in one way only.** -/
theorem Divides.unique (h : Divides t ps) (h' : Divides t qs) : ps = qs := by
  have htokens := (h.scanFrom 0).symm.trans (h'.scanFrom 0)
  exact tokens_injective (Scan.mk.inj htokens).1

/-- A text that begins with a brace does not begin with a literal. -/
theorem Divides.not_literal (h : Divides t ps) (ht : ∀ c ∈ t.head?, Token.isLiteral c = false) :
    ∀ p ∈ ps.head?, p.isLiteral = false := by
  intro p hp
  obtain ⟨ps, rfl⟩ := List.head?_eq_some_iff.mp hp
  cases p with
  | braced body => rfl
  | literal run =>
    obtain ⟨hne, hchars⟩ := h.wellFormed _ List.mem_cons_self
    obtain ⟨c, run, rfl⟩ := List.exists_cons_of_ne_nil hne
    have hc := ht c (by rw [← h.join_eq]; rfl)
    rw [isLiteral_iff.mpr (hchars c List.mem_cons_self)] at hc
    cases hc

theorem Divides.cons (h : Divides t ps) (hp : p.WellFormed)
    (hstop : p.isLiteral = true → ∀ c ∈ t.head?, Token.isLiteral c = false) :
    Divides (p.text ++ t) (p :: ps) := by
  constructor
  · rw [join_cons, h.join_eq]
  · intro q hq
    rcases List.mem_cons.mp hq with rfl | hq
    · exact hp
    · exact h.wellFormed q hq
  · rw [List.isChain_cons]
    exact ⟨fun q hq hl => h.not_literal (hstop hl) q hq, h.maximal⟩

theorem divides_nil : Divides [] [] := ⟨rfl, by simp, List.isChain_nil⟩

/-! ## Literals next to each other -/

theorem head_join (hp : ∀ p ∈ ps.head?, p.isLiteral = false) :
    ∀ c ∈ (join ps).head?, Token.isLiteral c = false := by
  cases ps with
  | nil => simp [join]
  | cons p ps => exact head_text (hp p rfl) (join ps)

/-- A literal in front of a text that begins with a literal makes that one longer. -/
theorem Divides.merge {run' : Text} (h : Divides t (literal run' :: ps))
    (hr : (literal run).WellFormed) : Divides (run ++ t) (literal (run ++ run') :: ps) := by
  obtain ⟨rfl, hw, hm⟩ := h
  obtain ⟨hnext, hm⟩ := List.isChain_cons.mp hm
  have hrun' : (literal run').WellFormed := hw _ List.mem_cons_self
  have hmerged : (literal (run ++ run')).WellFormed :=
    ⟨by simp [hr.1], List.forall_mem_append.mpr ⟨hr.2, hrun'.2⟩⟩
  have htail : Divides (join ps) ps := ⟨rfl, fun q hq => hw q (List.mem_cons_of_mem _ hq), hm⟩
  rw [join_cons, ← List.append_assoc]
  exact htail.cons hmerged fun _ => head_join fun q hq => hnext q hq rfl

/-- A piece in front of a text. What holds of every literal holds of the one that is made longer. -/
theorem Divides.exists_cons {P : Piece → Prop} (hlit : ∀ run, P (literal run)) (h : Divides t ps)
    (hps : ∀ q ∈ ps, P q) (hp : p.WellFormed) (hf : P p) :
    ∃ qs, Divides (p.text ++ t) qs ∧ ∀ q ∈ qs, P q := by
  by_cases hend : ∀ q ∈ ps.head?, p.isLiteral = true → q.isLiteral = false
  · refine ⟨p :: ps, h.cons hp fun hl => ?_, List.forall_mem_cons.mpr ⟨hf, hps⟩⟩
    rw [← h.join_eq]
    exact head_join fun q hq => hend q hq hl
  · push Not at hend
    obtain ⟨q, hq, hpl, hql⟩ := hend
    obtain ⟨ps, rfl⟩ := List.head?_eq_some_iff.mp hq
    cases p with
    | braced body => cases hpl
    | literal run =>
      cases q with
      | braced body => exact absurd rfl hql
      | literal run' =>
        exact ⟨_, h.merge hp, List.forall_mem_cons.mpr ⟨hlit _, (List.forall_mem_cons.mp hps).2⟩⟩

/-- Pieces one behind the other make a text, whether or not literals are next to each other. -/
theorem exists_divides_of_wellFormed {P : Piece → Prop} (hlit : ∀ run, P (literal run))
    (hps : ∀ p ∈ ps, p.WellFormed ∧ P p) : ∃ qs, Divides (join ps) qs ∧ ∀ q ∈ qs, P q := by
  induction ps with
  | nil => exact ⟨[], divides_nil, by simp⟩
  | cons p ps ih =>
    obtain ⟨⟨hp, hf⟩, hps⟩ := List.forall_mem_cons.mp hps
    obtain ⟨qs, hd, hqs⟩ := ih hps
    rw [join_cons]
    exact hd.exists_cons hlit hqs hp hf

/-! ## Braces without a counterpart -/

/-- A text begins with a brace that has no counterpart, and this is the error of a scan there. -/
inductive Unmatched (position : Nat) : Text → GrammarError → Prop
  | closing (t : Text) : Unmatched position ('}' :: t) (.unexpectedClosing position ('}' :: t))
  | opening {t : Text} (ht : '}' ∉ t) :
    Unmatched position ('{' :: t) (.unterminated position ('{' :: t))

theorem Unmatched.head {error : GrammarError} (h : Unmatched position t error) :
    ∀ c ∈ t.head?, Token.isLiteral c = false := by
  intro c hc
  cases h with
  | closing | opening =>
    obtain rfl := Option.some.inj hc
    rfl

theorem Unmatched.scanFrom {error : GrammarError} (h : Unmatched position t error) :
    scanFrom position t = ⟨[], some error⟩ := by
  cases h with
  | closing t => rw [Token.scanFrom, if_pos rfl]
  | @opening t ht =>
    have hall : t.dropWhile isInside = [] := by
      rw [List.dropWhile_eq_nil_iff]
      intro c hc
      rw [isInside_iff]
      rintro rfl
      exact ht hc
    rw [Token.scanFrom, if_neg (by decide), if_pos rfl]
    split
    · rfl
    · next h =>
      rw [hall] at h
      cases h

/-- A text is made of pieces up to its end, or up to a brace without a counterpart. -/
structure Cut (position : Nat) (t : Text) (ps : List Piece) (rest : Text) : Prop where
  append : join ps ++ rest = t
  divides : Divides (join ps) ps
  stop : rest = [] ∨ ∃ error, Unmatched (position + (join ps).length) rest error

theorem cut_nil (h : t = [] ∨ ∃ error, Unmatched position t error) : Cut position t [] t :=
  ⟨rfl, divides_nil, h⟩

theorem Cut.cons (h : Cut (position + p.text.length) t ps rest) (hp : p.WellFormed)
    (hstop : p.isLiteral = true → ∀ c ∈ t.head?, Token.isLiteral c = false) :
    Cut position (p.text ++ t) (p :: ps) rest := by
  obtain ⟨rfl, hd, hend⟩ := h
  constructor
  · rw [join_cons, List.append_assoc]
  · rw [join_cons]
    refine hd.cons hp fun hl c hc => hstop hl c ?_
    -- the pieces begin as the text does
    rw [List.head?_append, Option.mem_def.mp hc]
    rfl
  · rw [join_cons, List.length_append, ← Nat.add_assoc]
    exact hend

/-- Every text is made of pieces up to its end or to a brace without a counterpart. -/
theorem exists_cut (position : Nat) (t : Text) : ∃ ps rest, Cut position t ps rest := by
  fun_induction Token.scanFrom position t with
  | case1 position => exact ⟨[], [], cut_nil (Or.inl rfl)⟩
  | case2 position rest => exact ⟨[], _, cut_nil (Or.inr ⟨_, .closing rest⟩)⟩
  | case3 position rest hdrop =>
    have hb : '}' ∉ rest := by
      intro hm
      exact absurd (List.dropWhile_eq_nil_iff.mp hdrop _ hm) (by decide)
    exact ⟨[], _, cut_nil (Or.inr ⟨_, .opening hb⟩)⟩
  | case4 position rest close after hdrop _ token ih =>
    obtain ⟨ps, last, hps⟩ := ih
    have hclose : close = '}' := by
      have hstop := head?_dropWhile isInside rest close (by rw [hdrop]; rfl)
      by_contra hne
      rw [isInside_iff.mpr hne] at hstop
      cases hstop
    have hcut : rest = rest.takeWhile isInside ++ '}' :: after := by
      rw [← hclose, ← hdrop, List.takeWhile_append_dropWhile]
    have hbody : (braced (rest.takeWhile isInside)).WellFormed := by
      intro hm
      exact absurd (List.mem_takeWhile_imp hm) (by decide)
    have htext : (braced (rest.takeWhile isInside)).text ++ after = '{' :: rest := by
      simp only [text, Field.bracketed, List.cons_append, List.append_assoc, List.nil_append]
      rw [← hcut]
    have hlen : token.length = (braced (rest.takeWhile isInside)).text.length := by
      simp [token, text, Field.bracketed]
    rw [hlen] at hps
    exact ⟨_, _, htext ▸ hps.cons hbody nofun⟩
  | case5 position c rest hclose hopen token ih =>
    obtain ⟨ps, last, hps⟩ := ih
    have hrun : (literal (c :: rest.takeWhile Token.isLiteral)).WellFormed := by
      refine ⟨by simp, ?_⟩
      intro d hd
      rcases List.mem_cons.mp hd with rfl | hd
      · exact ⟨hopen, hclose⟩
      · exact isLiteral_iff.mp (List.mem_takeWhile_imp hd)
    have htext : (literal (c :: rest.takeWhile Token.isLiteral)).text ++
        rest.dropWhile Token.isLiteral = c :: rest := by
      rw [text, List.cons_append, List.takeWhile_append_dropWhile]
    exact ⟨_, _, htext ▸ hps.cons hrun fun _ => head?_dropWhile _ rest⟩

/-- A scan finds the pieces of a cut, and ends with the error of the brace behind them. -/
theorem Cut.scanFrom_tokens (h : Cut position t ps rest) :
    (scanFrom position t).tokens = tokens position ps := by
  obtain ⟨rfl, hd, rfl | ⟨error, he⟩⟩ := h
  · rw [List.append_nil, hd.scanFrom]
  · rw [hd.scanFrom_append he.head, he.scanFrom, List.append_nil]

/-- Every text that a scan gets through is made of pieces. -/
theorem exists_divides (h : (scanFrom position t).error? = none) : ∃ ps, Divides t ps := by
  obtain ⟨ps, rest, rfl, hd, rfl | ⟨error, he⟩⟩ := exists_cut position t
  · exact ⟨ps, by rwa [List.append_nil]⟩
  · rw [hd.scanFrom_append he.head, he.scanFrom] at h
    cases h

/-- The texts that a scan gets through are those made of pieces. -/
theorem scan_error?_eq_none_iff : (Token.scan t).error? = none ↔ ∃ ps, Divides t ps := by
  constructor
  · exact exists_divides
  · rintro ⟨ps, h⟩
    rw [Token.scan, h.scanFrom]

end Piece

end Barcode

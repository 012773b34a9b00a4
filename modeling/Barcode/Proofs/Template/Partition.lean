import Barcode.Proofs.Fault.Sequence
import Barcode.Proofs.Template.Pieces

/-!
# The tokens of a text

Tokens are a partition of a text: each stands at its place, nothing is left out, and no two literal
runs meet. A text has tokens exactly when it is made of brace-free runs and of bracketed blocks,
however the runs are cut, and the partition of it is the one that is found. Where a text has no
tokens, the ones before the fault are those of the text up to there.
-/

namespace Barcode

open Piece (Divides Unmatched join)
open Sequence (exists_of_mem_left exists_of_mem_right)

namespace Token

/-- A block begins with a brace and ends with the first closing one; a run is not empty and has no
brace. -/
structure WellFormed (token : Token) : Prop where
  block : token.bracketed = true → ∃ body, token.text = '{' :: body ++ ['}'] ∧ '}' ∉ body
  run : token.bracketed = false → token.text ≠ [] ∧ ∀ c ∈ token.text, c ≠ '{' ∧ c ≠ '}'

/-- The tokens of a text, said without a scan. No run is next to another one. -/
structure Partitions (s : Text) (tokens : List Token) : Prop where
  cover : tokens.flatMap text = s
  place : ∀ before token after, tokens = before ++ token :: after →
    token.position = (before.flatMap text).length
  wellFormed : ∀ token ∈ tokens, token.WellFormed
  apart : tokens.IsChain fun a b => a.bracketed = false → b.bracketed = true

variable {s : Text} {p : Piece} {ps : List Piece} {token : Token} {tokens : List Token}
  {position : Nat}

/-! ## Tokens that carry pieces -/

/-- The token has the text of the piece. -/
structure Carries (token : Token) (p : Piece) : Prop where
  text : token.text = p.text
  bracketed : token.bracketed = !p.isLiteral

/-- The piece with the text of a token. -/
def piece (token : Token) : Piece :=
  if token.bracketed then .braced token.text.tail.dropLast else .literal token.text

theorem carries_tokens (position : Nat) (ps : List Piece) :
    List.Forall₂ Carries (Piece.tokens position ps) ps := by
  induction ps generalizing position with
  | nil => exact .nil
  | cons p ps ih => exact .cons ⟨rfl, rfl⟩ (ih _)

/-- The tokens of pieces stand behind each other, the first at the given place. -/
theorem position_of_tokens {before after : List Token}
    (h : Piece.tokens position ps = before ++ token :: after) :
    token.position = position + (before.flatMap Token.text).length := by
  induction ps generalizing position before with
  | nil => cases before <;> cases h
  | cons p ps ih =>
    cases before with
    | nil =>
      obtain ⟨rfl, -⟩ := List.cons.inj h
      rfl
    | cons first before =>
      obtain ⟨rfl, hrest⟩ := List.cons.inj h
      rw [ih hrest, List.flatMap_cons, List.length_append, Nat.add_assoc]

/-- Tokens that carry pieces and stand behind each other are the tokens of the pieces. -/
theorem eq_tokens (hc : List.Forall₂ Carries tokens ps)
    (hplace : ∀ before token after, tokens = before ++ token :: after →
      token.position = position + (before.flatMap Token.text).length) :
    tokens = Piece.tokens position ps := by
  induction hc generalizing position with
  | nil => rfl
  | @cons token p tokens ps hp _ ih =>
    have hfirst := hplace [] token tokens rfl
    have hrest : tokens = Piece.tokens (position + p.text.length) ps := by
      refine ih fun before next after he => ?_
      rw [hplace (token :: before) next after (by rw [he]; rfl), List.flatMap_cons,
        List.length_append, hp.text, Nat.add_assoc]
    rw [Piece.tokens, ← hrest, ← hp.text, ← hp.bracketed]
    obtain ⟨text, bracketed, place⟩ := token
    obtain rfl : place = position := hfirst
    rfl

theorem flatMap_text (hc : List.Forall₂ Carries tokens ps) :
    tokens.flatMap Token.text = join ps := by
  induction hc with
  | nil => rfl
  | cons hp _ ih => rw [List.flatMap_cons, ih, Piece.join_cons, hp.text]

theorem map_bracketed (hc : List.Forall₂ Carries tokens ps) :
    tokens.map Token.bracketed = ps.map fun p => !p.isLiteral := by
  induction hc with
  | nil => rfl
  | cons hp _ ih => rw [List.map_cons, List.map_cons, ih, hp.bracketed]

/-- Literal runs are apart where literal pieces are. -/
theorem apart_iff (hc : List.Forall₂ Carries tokens ps) :
    (tokens.IsChain fun a b => a.bracketed = false → b.bracketed = true) ↔
      ps.IsChain fun p q => p.isLiteral = true → q.isLiteral = false := by
  have hflags := congrArg (List.IsChain fun x y => x = false → y = true) (map_bracketed hc)
  rw [List.isChain_map, List.isChain_map] at hflags
  simpa using hflags

theorem Carries.wellFormed_iff (h : Carries token p) : token.WellFormed ↔ p.WellFormed := by
  obtain ⟨htext, hflag⟩ := h
  cases p with
  | literal run =>
    constructor
    · intro hw
      have hrun := hw.run hflag
      rwa [htext] at hrun
    · intro hw
      refine ⟨fun hb => ?_, fun _ => by rwa [htext]⟩
      rw [hflag] at hb
      cases hb
  | braced body =>
    constructor
    · intro hw
      obtain ⟨body', he, hb⟩ := hw.block hflag
      have hsame : Piece.braced body = .braced body' :=
        Piece.text_injective rfl (htext.symm.trans he)
      rw [hsame]
      exact hb
    · intro hw
      refine ⟨fun _ => ⟨body, htext, hw⟩, fun hb => ?_⟩
      rw [hflag] at hb
      cases hb

/-! ## Partitions -/

theorem Partitions.carries (h : Partitions s tokens) :
    List.Forall₂ Carries tokens (tokens.map piece) := by
  rw [List.forall₂_map_right_iff, List.forall₂_same]
  intro token ht
  cases hb : token.bracketed with
  | true =>
    obtain ⟨body, htext, -⟩ := (h.wellFormed token ht).block hb
    have hpiece : token.piece = .braced body := by
      rw [piece, if_pos hb, htext, List.cons_append, List.tail_cons, List.dropLast_concat]
    rw [hpiece]
    exact ⟨htext, hb⟩
  | false =>
    have hpiece : token.piece = .literal token.text := by rw [piece, if_neg (by simp [hb])]
    rw [hpiece]
    exact ⟨rfl, hb⟩

/-- The partition of a text is given by the pieces that the text is made of. -/
theorem partitions_iff :
    Partitions s tokens ↔ ∃ ps, Divides s ps ∧ tokens = Piece.tokens 0 ps := by
  constructor
  · intro h
    have hc := h.carries
    refine ⟨_, ⟨?_, ?_, (apart_iff hc).mp h.apart⟩, eq_tokens hc ?_⟩
    · rw [← flatMap_text hc, h.cover]
    · intro p hp
      obtain ⟨token, ht, hcarries⟩ := exists_of_mem_right hc hp
      exact hcarries.wellFormed_iff.mp (h.wellFormed token ht)
    · intro before token after he
      rw [h.place before token after he, Nat.zero_add]
  · rintro ⟨ps, hd, rfl⟩
    have hc := carries_tokens 0 ps
    refine ⟨?_, ?_, ?_, (apart_iff hc).mpr hd.maximal⟩
    · rw [flatMap_text hc, hd.join_eq]
    · intro before token after he
      rw [position_of_tokens he, Nat.zero_add]
    · intro token ht
      obtain ⟨p, hp, hcarries⟩ := exists_of_mem_left hc ht
      exact hcarries.wellFormed_iff.mpr (hd.wellFormed p hp)

/-! ## Tokenization -/

theorem tokenize_eq_ok_iff :
    tokenize s = .ok tokens ↔ (scan s).error? = none ∧ (scan s).tokens = tokens := by
  unfold tokenize
  cases (scan s).error? with
  | some error => simp
  | none => simp

theorem tokenize_eq_error_iff {error : GrammarError} :
    tokenize s = .error error ↔ (scan s).error? = some error := by
  unfold tokenize
  cases (scan s).error? with
  | some error => simp
  | none => simp

theorem tokenize_eq_ok_iff_divides :
    tokenize s = .ok tokens ↔ ∃ ps, Divides s ps ∧ tokens = Piece.tokens 0 ps := by
  rw [tokenize_eq_ok_iff]
  constructor
  · rintro ⟨he, rfl⟩
    obtain ⟨ps, hd⟩ := Piece.exists_divides he
    exact ⟨ps, hd, by rw [scan, hd.scanFrom]⟩
  · rintro ⟨ps, hd, rfl⟩
    rw [scan, hd.scanFrom]
    exact ⟨rfl, rfl⟩

/-- A text has tokens if it is made of runs and blocks, which need not be as long as possible. -/
theorem exists_tokenize_iff :
    (∃ tokens, tokenize s = .ok tokens) ↔
      ∃ ps, join ps = s ∧ ∀ p ∈ ps, p.WellFormed := by
  simp only [tokenize_eq_ok_iff_divides]
  constructor
  · rintro ⟨-, ps, hd, -⟩
    exact ⟨ps, hd.join_eq, hd.wellFormed⟩
  · rintro ⟨ps, rfl, hw⟩
    obtain ⟨qs, hd, -⟩ := Piece.exists_divides_of_wellFormed (P := fun _ => True)
      (fun _ => trivial) fun p hp => ⟨hw p hp, trivial⟩
    exact ⟨_, qs, hd, rfl⟩

/-- The scan of a text ends at a brace without a counterpart, behind the tokens of what stands
before it. -/
theorem tokenize_eq_error_iff_unmatched {error : GrammarError} :
    tokenize s = .error error ↔
      ∃ position, Unmatched position (s.drop position) error ∧
        tokenize (s.take position) = .ok (scan s).tokens := by
  rw [tokenize_eq_error_iff]
  constructor
  · intro h
    obtain ⟨ps, rest, hcut⟩ := Piece.exists_cut 0 s
    have htokens := hcut.scanFrom_tokens
    obtain ⟨rfl, hd, hstop⟩ := hcut
    have htake : (join ps ++ rest).take (join ps).length = join ps := List.take_left' rfl
    have hdrop : (join ps ++ rest).drop (join ps).length = rest := List.drop_left' rfl
    rw [Nat.zero_add] at hstop
    rcases hstop with rfl | ⟨error', hu⟩
    · rw [List.append_nil, scan, hd.scanFrom] at h
      cases h
    · rw [scan, hd.scanFrom_append hu.head, Nat.zero_add, hu.scanFrom] at h
      obtain rfl := Option.some.inj h
      refine ⟨(join ps).length, by rwa [hdrop], ?_⟩
      rw [htake, tokenize_eq_ok_iff_divides]
      exact ⟨ps, hd, htokens⟩
  · rintro ⟨position, hu, hok⟩
    obtain ⟨ps, hd, -⟩ := tokenize_eq_ok_iff_divides.mp hok
    have hlength : (s.take position).length = position := by
      have hne : s.drop position ≠ [] := by
        intro hnil
        rw [hnil] at hu
        cases hu
      have hlt := List.drop_eq_nil_iff.not.mp hne
      rw [List.length_take]
      omega
    have hscan := hd.scanFrom_append hu.head 0
    rw [List.take_append_drop, hlength, Nat.zero_add, hu.scanFrom] at hscan
    rw [scan, hscan]

/-- **Tokens are a lossless partition.** A text has tokens exactly when it is a concatenation of
non-empty runs without a brace and of blocks in braces without a closing brace inside, and then
they are its partition. Otherwise the scan ends at the first brace without a counterpart: the
tokens before it are those of the text up to its place, and the rest of the text is at fault. -/
theorem tokenize_partitions (s : Text) :
    ((∃ tokens, tokenize s = .ok tokens) ↔ ∃ ps, join ps = s ∧ ∀ p ∈ ps, p.WellFormed) ∧
    (∀ tokens, tokenize s = .ok tokens ↔ Partitions s tokens) ∧
    ∀ error, tokenize s = .error error ↔
      ∃ position, Unmatched position (s.drop position) error ∧
        error.token? = some (s.drop position) ∧
        tokenize (s.take position) = .ok (scan s).tokens := by
  refine ⟨exists_tokenize_iff, fun tokens => ?_, fun error => ?_⟩
  · rw [tokenize_eq_ok_iff_divides, partitions_iff]
  · rw [tokenize_eq_error_iff_unmatched]
    refine exists_congr fun position => and_congr_right fun hu => ?_
    have htoken : error.token? = some (s.drop position) := by
      generalize s.drop position = rest at hu
      cases hu <;> rfl
    exact (and_iff_right htoken).symm

end Token

end Barcode

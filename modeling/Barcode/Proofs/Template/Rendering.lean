import Barcode.Proofs.Template.Acceptance
import Barcode.Proofs.Template.Language

/-!
# Rendering a template

A field is written as a piece of the language, with every length in full and without leading
zeros, so the written fields of a template are a template text again. It compiles to the same
fields, and a code is read along both in the same way.
-/

namespace Barcode

open Sequence
open Piece (Divides)

namespace Field

/-- The piece that a field is written as. -/
def piece : Field → Piece
  | .literal text => .literal text
  | f => .braced (Grammar.inner f.describe)

theorem text_piece (f : Field) : f.piece.text = f.describe := by
  cases f with
  | literal text => rfl
  | code shape =>
    obtain ⟨kind, size, constant⟩ := shape
    cases kind <;> exact congrArg bracketed (Grammar.inner_bracketed _)
  | skip size => cases size <;> exact congrArg bracketed (Grammar.inner_bracketed _)
  | _ => exact congrArg bracketed (Grammar.inner_bracketed _)

end Field

namespace Grammar

/-- The written fields one behind the other. -/
def render (fields : List Field) : Text := fields.flatMap Field.describe

/-- A number that a numeral denotes is written as a numeral. -/
theorem Numeral.ofNat {v : Text} {n : Nat} (h : Numeral v n) : Numeral (Text.ofNat n) n := by
  have hlen : 0 < v.length := List.length_pos_of_ne_nil h.nonempty
  have hlt : n < 10 ^ v.length := by
    rw [← h.value]
    exact Text.toNat_lt h.digits
  refine ⟨?_, fun _ => Text.isDigit_ofNat, ?_, Text.toNat_ofNat n, h.positive⟩
  · intro hnil
    have hzero := Text.toNat_ofNat n
    rw [hnil] at hzero
    exact absurd hzero h.positive.ne
  · exact ((Text.length_ofNat_le_iff hlen).mpr hlt).trans h.short

theorem Sized.given_ofNat {w : Text} {n : Nat} (h : Sized w n) : Sized (':' :: Text.ofNat n) n := by
  cases h with
  | absent => exact .given (Or.inl rfl) numeral_one.ofNat
  | given hs hv => exact .given (Or.inl rfl) hv.ofNat

/-- What a field is written as between braces denotes the field. -/
theorem denotes_describe {body : Text} {f : Field} (h : Denotes body f) :
    Denotes (inner f.describe) f := by
  cases h with
  | code => exact .codeValue (.sized numeral_one.ofNat)
  | codeValue hv =>
    cases hv with
    | named hk =>
      simp only [List.mem_cons, List.not_mem_nil, or_false] at hk
      rcases hk with rfl | rfl | rfl | rfl
      · exact .codeValue (@CodeValue.named .any (by decide))
      · exact .codeValue (@CodeValue.named .ean8 (by decide))
      · exact .codeValue (@CodeValue.named .ean13 (by decide))
      · exact .codeValue (@CodeValue.named .ean14 (by decide))
    | sized hv =>
      rw [Field.describe, inner_bracketed]
      exact .codeValue (.sized hv.ofNat)
  | codeConstant v =>
    rw [Field.describe, inner_bracketed]
    exact .codeConstant v
  | embed hw =>
    rw [Field.describe, inner_bracketed]
    exact .embed hw.given_ofNat
  | embedDecimal hs hv hw =>
    rw [Field.describe, inner_bracketed]
    exact .embedDecimal (Or.inl rfl) hv.ofNat hw.ofNat
  | embedHundreds hw =>
    rw [Field.describe, inner_bracketed]
    exact .embedHundreds hw.given_ofNat
  | price hw =>
    rw [Field.describe, inner_bracketed]
    exact .price hw.given_ofNat
  | skip hw =>
    rw [Field.describe, inner_bracketed]
    exact .skip hw.given_ofNat
  | skipAll hs => exact .skipAll (Or.inl rfl)
  | payloadCheck hw => exact .payloadCheck .absent
  | eanCheck hw => exact .eanCheck .absent

theorem closing_not_mem_ofNat (n : Nat) : '}' ∉ Text.ofNat n := by
  intro h
  exact absurd (Text.isDigit_ofNat h) (by decide)

/-- A field that stands between braces is written without a closing brace. -/
theorem closing_not_mem_describe {body : Text} {f : Field} (h : Denotes body f)
    (hb : '}' ∉ body) : '}' ∉ inner f.describe := by
  have hn := closing_not_mem_ofNat
  cases h with
  | code => simp [Field.describe, inner_bracketed, hn]
  | codeValue hv =>
    cases hv with
    | @named kind hk =>
      simp only [List.mem_cons, List.not_mem_nil, or_false] at hk
      rcases hk with rfl | rfl | rfl | rfl <;>
        simp [Field.describe, inner_bracketed, CodeKind.name]
    | sized hv => simp [Field.describe, inner_bracketed, hn]
  | codeConstant v =>
    rw [Field.describe, inner_bracketed]
    exact hb
  | embedDecimal hs hv hw => simp [Field.describe, inner_bracketed, hn]
  | skipAll hs => simp [Field.describe, inner_bracketed]
  | _ => simp [Field.describe, inner_bracketed, hn]

end Grammar

namespace Piece

variable {s : Text} {ps : List Piece} {p : Piece} {f : Field} {fields : List Field}

/-- A field is written as a piece of the same kind as the one that denotes it. -/
theorem Denotes.piece (h : p.Denotes f) (hp : p.WellFormed) :
    f.piece.WellFormed ∧ f.piece.Denotes f ∧ f.piece.isLiteral = p.isLiteral := by
  cases p with
  | literal text =>
    obtain rfl : f = .literal text := h
    exact ⟨hp, rfl, rfl⟩
  | braced body =>
    have hbraced : f.piece = .braced (Grammar.inner f.describe) := by
      cases f with
      | literal text => cases h
      | _ => rfl
    rw [hbraced]
    exact ⟨Grammar.closing_not_mem_describe h hp, Grammar.denotes_describe h, rfl⟩

/-- The written fields of a text are made of their pieces. -/
theorem Divides.render (h : Divides s ps) (hf : List.Forall₂ Denotes ps fields) :
    Divides (Grammar.render fields) (fields.map Field.piece) ∧
      List.Forall₂ Denotes (fields.map Field.piece) fields := by
  have hpiece : List.Forall₂ (fun p f => f.piece.WellFormed ∧ f.piece.Denotes f ∧
      f.piece.isLiteral = p.isLiteral) ps fields :=
    ((List.forall₂_and_left ps fields).mpr ⟨h.wellFormed, hf⟩).imp fun _ _ hp => hp.2.piece hp.1
  have hlit : (fields.map Field.piece).map isLiteral = ps.map isLiteral := by
    rw [List.map_map, ← List.forall₂_eq_eq_eq, List.forall₂_map_left_iff,
      List.forall₂_map_right_iff]
    exact hpiece.flip.imp fun _ _ hp => hp.2.2
  refine ⟨⟨?_, ?_, ?_⟩, ?_⟩
  · rw [join, Grammar.render, List.flatMap_map]
    simp only [Field.text_piece]
  · intro q hq
    obtain ⟨f, hm, rfl⟩ := List.mem_map.mp hq
    obtain ⟨p, -, hp⟩ := exists_of_mem_right hpiece hm
    exact hp.1
  · -- neighbours are compared by kind, and the written pieces are of the kinds of the given ones
    have hmap : ∀ qs : List Piece,
        qs.IsChain (fun p q => p.isLiteral = true → q.isLiteral = false) ↔
          (qs.map isLiteral).IsChain (fun a b => a = true → b = false) :=
      fun qs => (List.isChain_map (R := fun a b => a = true → b = false) isLiteral).symm
    rw [hmap, hlit, ← hmap]
    exact h.maximal
  · rw [List.forall₂_map_left_iff, List.forall₂_same]
    intro f hm
    obtain ⟨p, -, hp⟩ := exists_of_mem_right hpiece hm
    exact hp.2.1

end Piece

namespace Template

/-- The fields of a template beside the slices of a code, none for a code that is rejected. -/
def entries? (t : Template) (c : Text) : Except Fault (Option (List (Field × Text))) :=
  (t.read c).map fun outcome => outcome.reading?.map Reading.entries

theorem split?_eq_map (t : Template) (c : Text) :
    t.split? c = (Split.slices? t.fields c).map fun v => ⟨t, t.fields.zip v⟩ := by
  ext r
  rw [split?_eq_some_iff, Option.map_eq_some_iff]
  simp only [eq_comm]

/-- How a code is read depends on the fields only. -/
theorem entries?_of_fields {t t' : Template} (h : t.fields = t'.fields) (c : Text) :
    t.entries? c = t'.entries? c := by
  rw [entries?, entries?, read, read, split?_eq_map, split?_eq_map, h]
  cases Split.slices? t'.fields c with
  | none => rfl
  | some v =>
    have hflaws : (Reading.mk t (t'.fields.zip v)).flaws =
        (Reading.mk t' (t'.fields.zip v)).flaws := rfl
    simp only [Option.map_some, hflaws]
    cases (Reading.mk t' (t'.fields.zip v)).flaws with
    | error fault => rfl
    | ok flaws =>
      cases flaws <;> rfl

end Template

namespace Grammar

theorem compile_render_eq {s : Text} {fields : List Field} (h : compile s = .ok fields) :
    compile (render fields) = .ok fields := by
  obtain ⟨ps, hps, hf, hl⟩ := compile_eq_ok_iff_pieces.mp h
  obtain ⟨hps', hf'⟩ := hps.render hf
  exact compile_eq_ok_iff_pieces.mpr ⟨_, hps', hf', hl⟩

/-- **Rendering undoes compiling.** The written fields of a template text compile to the same
fields, so writing them again changes nothing, and every code is accepted or rejected along both
texts alike, with the same slices. -/
theorem compile_render {s : Text} {fields : List Field} (h : compile s = .ok fields) :
    compile (render fields) = .ok fields ∧
    (∀ fields', compile (render fields) = .ok fields' → render fields' = render fields) ∧
    ∀ id id' c, (Template.compile id s >>= (·.entries? c)) =
      (Template.compile id' (render fields) >>= (·.entries? c)) := by
  have hr := compile_render_eq h
  refine ⟨hr, ?_, ?_⟩
  · intro fields' h'
    rw [Except.ok.inj (h'.symm.trans hr)]
  · intro id id' c
    rw [Template.compile, Template.compile, h, hr]
    show (Template.ofFields id s fields >>= (·.entries? c)) =
      (Template.ofFields id' (render fields) fields >>= (·.entries? c))
    rw [Template.ofFields, Template.ofFields]
    cases Pattern.check fields with
    | error fault => rfl
    | ok u =>
      have hfields : (Template.mk id s fields).fields =
          (Template.mk id' (render fields) fields).fields := rfl
      exact Template.entries?_of_fields hfields c

/-- A text with leading zeros, lengths of check digits, an equals sign for a colon, and a constant
that holds a brace and both signs. -/
def loose : Text := Text.withBraces "7[code=[:=][embed=05][i:7][_][ec=3]"

theorem compile_render_loose :
    ∃ fields, compile loose = .ok fields ∧
      render fields = Text.withBraces "7[code=[:=][embed:5][i][_:1][ec]" ∧
      compile (render fields) = .ok fields := by
  let fields : List Field := [.literal ['7'],
    .code { kind := .constant, constant := ['{', ':', '='] }, .embed 5, .payloadCheck,
    .skip (some 1), .eanCheck]
  have hc : compile loose = .ok fields := by cbv
  exact ⟨fields, hc, by cbv, (compile_render hc).1⟩

end Grammar

end Barcode

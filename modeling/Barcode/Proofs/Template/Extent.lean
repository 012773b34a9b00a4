import Barcode.Proofs.Template.Feasible
import Barcode.Proofs.Template.Language

/-!
# The length that a template expects

Fields of given width leave one length to the codes that the pattern takes, the sum of the widths;
next to a field of any number of characters every greater length is taken as well. The expected
length tells the two cases apart by a field of width 0. A code field for the empty text has width 0
too, although it takes no character, so a template with one expects no length and yet takes codes
of one length only.
-/

namespace Barcode

open Sequence
open Split (Admitted)

namespace Field

/-- A code field for the empty text. -/
def emptyConstant : Field := .code { kind := .constant }

/-- A field takes a slice of its own width, any characters where it asks for none. -/
theorem exists_admitted (f : Field) : ∃ s, f.admits s = true ∧ s.length = f.width := by
  simp only [← Pattern.takes_shape_iff]
  cases hs : Pattern.shape f with
  | exactly text =>
    refine ⟨text, rfl, ?_⟩
    rcases Pattern.shape_eq_exactly_iff.mp hs with rfl | ⟨size, rfl⟩ <;> rfl
  | characters n =>
    obtain ⟨hw, -⟩ := Pattern.shape_eq_characters_iff.mp hs
    exact ⟨List.replicate n '0', List.length_replicate, List.length_replicate.trans hw.symm⟩
  | digits n =>
    obtain ⟨hw, -⟩ := Pattern.shape_eq_digits_iff.mp hs
    exact ⟨List.replicate n '0', Text.isDigits_iff.mp (Text.isDigits_zeros n),
      List.length_replicate.trans hw.symm⟩
  | digit =>
    refine ⟨['0'], ⟨'0', rfl, rfl⟩, ?_⟩
    rcases Pattern.shape_eq_digit_iff.mp hs with rfl | rfl <;> rfl
  | anything =>
    exact ⟨[], trivial, (width_of_isUnbounded (Pattern.shape_eq_anything_iff.mp hs)).symm⟩

end Field

namespace Pattern

/-- The groups of the pattern take a code one behind the other. -/
def Accepts (fields : List Field) (c : Text) : Prop :=
  ∃ slices, List.Forall₂ (fun f s => (shape f).Takes s) fields slices ∧ slices.flatten = c

variable {fields : List Field} {c : Text} {n : Nat}

theorem accepts_iff_admitted : Accepts fields c ↔ ∃ v, Admitted fields v ∧ v.flatten = c := by
  simp only [Accepts, Admitted, takes_shape_iff]

/-- The pattern takes the codes that have a split. -/
theorem accepts_iff_slices? : Accepts fields c ↔ ∃ v, Split.slices? fields c = some v := by
  rw [accepts_iff_admitted]
  constructor
  · rintro ⟨v, hv, rfl⟩
    exact Split.exists_slices?_of_admitted hv
  · rintro ⟨v, hv⟩
    exact ⟨v, Split.admitted_of_slices? hv⟩

theorem length_of_accepts (hb : ∀ f ∈ fields, f.isUnbounded = false) (h : Accepts fields c) :
    c.length = Split.width fields := by
  obtain ⟨v, hv, rfl⟩ := accepts_iff_admitted.mp h
  exact Split.length_flatten_admitted hb hv

theorem width_le_of_accepts (h : Accepts fields c) : Split.width fields ≤ c.length := by
  obtain ⟨v, hv, rfl⟩ := accepts_iff_admitted.mp h
  exact Split.width_le_flatten hv

theorem accepts_cons {f : Field} {s : Text} (hs : f.admits s = true) (h : Accepts fields c) :
    Accepts (f :: fields) (s ++ c) := by
  obtain ⟨v, hv, rfl⟩ := accepts_iff_admitted.mp h
  exact accepts_iff_admitted.mpr ⟨s :: v, List.Forall₂.cons hs hv, rfl⟩

theorem exists_accepts_width (fields : List Field) :
    ∃ c, Accepts fields c ∧ c.length = Split.width fields := by
  induction fields with
  | nil => exact ⟨[], accepts_iff_admitted.mpr ⟨[], List.Forall₂.nil, rfl⟩, rfl⟩
  | cons f fields ih =>
    obtain ⟨s, hs, hl⟩ := f.exists_admitted
    obtain ⟨c, hc, hw⟩ := ih
    refine ⟨s ++ c, accepts_cons hs hc, ?_⟩
    rw [List.length_append, hl, hw, Split.width_cons]

/-- The first field of any number of characters takes what the others leave. -/
theorem exists_accepts_of_isUnbounded (hu : ∃ f ∈ fields, f.isUnbounded = true)
    (hn : Split.width fields ≤ n) : ∃ c, Accepts fields c ∧ c.length = n := by
  induction fields generalizing n with
  | nil =>
    obtain ⟨f, hf, -⟩ := hu
    cases hf
  | cons f fields ih =>
    rw [Split.width_cons] at hn
    cases hf : f.isUnbounded with
    | true =>
      obtain ⟨c, hc, hl⟩ := exists_accepts_width fields
      refine ⟨List.replicate (n - Split.width fields) '0' ++ c,
        accepts_cons (Field.admits_of_isUnbounded hf _) hc, ?_⟩
      rw [List.length_append, List.length_replicate, hl]
      omega
    | false =>
      have hrest : ∃ g ∈ fields, g.isUnbounded = true := by
        simpa [hf] using hu
      obtain ⟨s, hs, hw⟩ := f.exists_admitted
      obtain ⟨c, hc, hl⟩ := ih hrest (n := n - f.width) (by omega)
      refine ⟨s ++ c, accepts_cons hs hc, ?_⟩
      rw [List.length_append, hw, hl]
      omega

end Pattern

/-! ## Fields of width 0 -/

theorem Grammar.Sized.positive {w : Text} {n : Nat} (h : Grammar.Sized w n) : 0 < n := by
  cases h with
  | absent => exact Nat.one_pos
  | given _ hv => exact hv.positive

/-- Between braces, width 0 is denoted by a field of any number of characters or by the code field
for the empty text. -/
theorem Grammar.Denotes.width_eq_zero_iff {body : Text} {f : Field} (h : Grammar.Denotes body f) :
    f.width = 0 ↔ f.isUnbounded = true ∨ f = .emptyConstant := by
  cases h with
  | code => decide
  | codeValue hv =>
    cases hv with
    | named hk =>
      simp only [List.mem_cons, List.not_mem_nil, or_false] at hk
      rcases hk with rfl | rfl | rfl | rfl <;> decide
    | sized hv =>
      exact iff_of_false hv.positive.ne' (by simp [Field.isUnbounded, Field.emptyConstant])
  | codeConstant v =>
    simp [Field.width, CodeShape.width, Field.isUnbounded, Field.emptyConstant]
  | skipAll _ => exact iff_of_true rfl (Or.inl rfl)
  | embedDecimal _ hv _ =>
    have hpos := hv.positive
    refine iff_of_false ?_ (by simp [Field.isUnbounded, Field.emptyConstant])
    rw [Field.width]
    omega
  | payloadCheck _ | eanCheck _ => decide
  | embed hw | embedHundreds hw | price hw | skip hw =>
    exact iff_of_false hw.positive.ne' (by simp [Field.isUnbounded, Field.emptyConstant])

theorem Piece.Denotes.width_eq_zero_iff {p : Piece} {f : Field} (h : p.Denotes f)
    (hp : p.WellFormed) : f.width = 0 ↔ f.isUnbounded = true ∨ f = .emptyConstant := by
  cases p with
  | literal text =>
    obtain rfl : f = .literal text := h
    have hne : text.length ≠ 0 := fun hl => hp.1 (List.length_eq_zero_iff.mp hl)
    exact iff_of_false hne (by simp [Field.isUnbounded, Field.emptyConstant])
  | braced body => exact Grammar.Denotes.width_eq_zero_iff h

/-- A field of a purpose that is served once is the only field if no other field occurs. -/
theorem Grammar.Lawful.eq_singleton {fields : List Field} (hl : Grammar.Lawful fields) {f : Field}
    (hf : f.purpose.repeatable = false) (h : ∀ g ∈ fields, g = f) : fields = [f] := by
  have hcount : fields.countP (·.purpose = f.purpose) = fields.length :=
    List.countP_eq_length.mpr fun g hg => decide_eq_true (by rw [h g hg])
  have hone := hl.single f.purpose hf
  have hpos := List.length_pos_of_ne_nil hl.nonempty
  have hlen : fields.length = 1 := by omega
  rw [List.eq_replicate_of_mem h, hlen, List.replicate_one]

namespace Template

variable {id text : Text} {t : Template}

theorem width_eq_zero_iff_of_compile (h : compile id text = .ok t) {f : Field} (hf : f ∈ t.fields) :
    f.width = 0 ↔ f.isUnbounded = true ∨ f = .emptyConstant := by
  obtain ⟨fields, hg, -, rfl⟩ := compile_eq_ok_iff.mp h
  obtain ⟨ps, hps, hd, -⟩ := Grammar.compile_eq_ok_iff_pieces.mp hg
  obtain ⟨p, hp, hpf⟩ := exists_of_mem_right hd hf
  exact hpf.width_eq_zero_iff (hps.wellFormed p hp)

/-- No length is expected when the code has any number of characters, or the empty text is one of
its parts. -/
theorem expectedLength_eq_zero_iff (h : compile id text = .ok t) :
    t.expectedLength = 0 ↔
      (∃ f ∈ t.fields, f.isUnbounded = true) ∨ .emptyConstant ∈ t.fields := by
  have hwidth : (∃ f ∈ t.fields, f.width = 0) ↔
      (∃ f ∈ t.fields, f.isUnbounded = true) ∨ .emptyConstant ∈ t.fields := by
    constructor
    · rintro ⟨f, hf, hw⟩
      rcases (width_eq_zero_iff_of_compile h hf).mp hw with hu | rfl
      · exact Or.inl ⟨f, hf, hu⟩
      · exact Or.inr hf
    · rintro (⟨f, hf, hu⟩ | hf)
      · exact ⟨f, hf, Field.width_of_isUnbounded hu⟩
      · exact ⟨_, hf, rfl⟩
  rw [← hwidth, expectedLength]
  cases hz : t.fields.any (·.width = 0) with
  | true =>
    obtain ⟨f, hf, hw⟩ := List.any_eq_true.mp hz
    exact iff_of_true rfl ⟨f, hf, of_decide_eq_true hw⟩
  | false =>
    -- every width is positive, and there is a field
    have hpos : ∀ f ∈ t.fields, f.width ≠ 0 := by simpa using hz
    obtain ⟨f, hf⟩ := List.exists_mem_of_ne_nil _ (lawful_of_compile h).nonempty
    refine iff_of_false (fun hzero => ?_) fun ⟨f, hf, hw⟩ => hpos f hf hw
    have hle : f.width ≤ Split.width t.fields := Split.width_le_width hf
    have hsum : Split.width t.fields = 0 := hzero
    exact hpos f hf (by omega)

theorem expectedLength_of_ne_zero (h : t.expectedLength ≠ 0) :
    t.expectedLength = Split.width t.fields := by
  rw [expectedLength] at h ⊢
  split
  · next hz => exact absurd (if_pos hz) h
  · rfl

/-- Without a field of any number of characters the sum of the widths is expected, unless the empty
text is one part among others. -/
theorem expectedLength_eq_width_iff (h : compile id text = .ok t)
    (hb : ∀ f ∈ t.fields, f.isUnbounded = false) :
    t.expectedLength = Split.width t.fields ↔
      (.emptyConstant ∈ t.fields → t.fields = [.emptyConstant]) := by
  have hzero := expectedLength_eq_zero_iff h
  by_cases hmem : .emptyConstant ∈ t.fields
  · rw [hzero.mpr (Or.inr hmem), imp_iff_right hmem]
    constructor
    · intro hw
      refine (lawful_of_compile h).eq_singleton rfl fun f hf => ?_
      have hle := Split.width_le_width hf
      have hu := hb f hf
      rcases (width_eq_zero_iff_of_compile h hf).mp (by omega) with hf' | hf'
      · rw [hu] at hf'
        cases hf'
      · exact hf'
    · intro hone
      rw [hone]
      rfl
  · refine iff_of_true (expectedLength_of_ne_zero fun hz => ?_) fun h => absurd h hmem
    rcases hzero.mp hz with ⟨f, hf, hu⟩ | hm
    · rw [hb f hf] at hu
      cases hu
    · exact hmem hm

/-- **The expected length is exact, but for the empty constant.** The pattern takes the codes that
have a split. Without a field of any number of characters they have one length, the sum of the
widths, and this is the expected length unless the empty text is one constant among other fields.
With such a field codes of every length from the sum of the widths on are taken, and no length is
expected. So none is expected only where the length is open, or where the empty text is a part. -/
theorem expectedLength_exact (h : compile id text = .ok t) :
    (∀ c, Pattern.Accepts t.fields c ↔ ∃ slices, Split.slices? t.fields c = some slices) ∧
    ((∀ f ∈ t.fields, f.isUnbounded = false) →
      (∃ c, Pattern.Accepts t.fields c) ∧
      (∀ c, Pattern.Accepts t.fields c → c.length = Split.width t.fields) ∧
      (t.expectedLength = Split.width t.fields ↔
        (.emptyConstant ∈ t.fields → t.fields = [.emptyConstant]))) ∧
    ((∃ f ∈ t.fields, f.isUnbounded = true) →
      t.expectedLength = 0 ∧
      ∀ n, (∃ c, Pattern.Accepts t.fields c ∧ c.length = n) ↔ Split.width t.fields ≤ n) ∧
    (t.expectedLength = 0 ↔
      (∃ f ∈ t.fields, f.isUnbounded = true) ∨ .emptyConstant ∈ t.fields) := by
  have hzero := expectedLength_eq_zero_iff h
  refine ⟨fun c => Pattern.accepts_iff_slices?, fun hb => ?_, fun hu => ?_, hzero⟩
  · obtain ⟨c, hc, -⟩ := Pattern.exists_accepts_width t.fields
    exact ⟨⟨c, hc⟩, fun c hc => Pattern.length_of_accepts hb hc, expectedLength_eq_width_iff h hb⟩
  · refine ⟨hzero.mpr (Or.inl hu), fun n => ⟨?_, Pattern.exists_accepts_of_isUnbounded hu⟩⟩
    rintro ⟨c, hc, rfl⟩
    exact Pattern.width_le_of_accepts hc

/-- A character and the empty constant: codes of one length, and yet no length is expected. -/
theorem expectedLength_exact_unless :
    ∃ t, compile [] (Text.withBraces "x[code=]") = .ok t ∧ t.expectedLength = 0 ∧
      (∃ c, Pattern.Accepts t.fields c) ∧ ∀ c, Pattern.Accepts t.fields c → c.length = 1 := by
  let t : Template := ⟨[], Text.withBraces "x[code=]", [.literal ['x'], .emptyConstant]⟩
  have hc : compile [] (Text.withBraces "x[code=]") = .ok t := by cbv
  obtain ⟨-, hbounded, -, hzero⟩ := expectedLength_exact hc
  obtain ⟨hsome, hlength, -⟩ := hbounded (by decide)
  exact ⟨t, hc, hzero.mpr (Or.inr (by decide)), hsome, hlength⟩

end Template

end Barcode

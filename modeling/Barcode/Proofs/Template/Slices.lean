import Mathlib
import Barcode.Template.Split

/-!
# Slices that a code is split into

A split covers the code with slices that their fields admit. Fields of given width at either
end of a template take their slices off that end of the code and leave the split of the rest to
the fields between them.
-/

namespace Barcode

namespace Field

theorem width_of_isUnbounded {f : Field} (hf : f.isUnbounded = true) : f.width = 0 := by
  cases f with
  | code shape =>
    have hk : shape.kind = .any := of_decide_eq_true hf
    rw [width, CodeShape.width, hk]
  | skip size =>
    cases size with
    | none => rfl
    | some n => simp [isUnbounded] at hf
  | _ => simp [isUnbounded] at hf

theorem admits_of_isUnbounded {f : Field} (hf : f.isUnbounded = true) (s : Text) :
    f.admits s = true := by
  cases f with
  | code shape =>
    have hk : shape.kind = .any := of_decide_eq_true hf
    rw [admits, hk]
  | skip size =>
    cases size with
    | none => rfl
    | some n => simp [isUnbounded] at hf
  | _ => simp [isUnbounded] at hf

/-- A field of given width admits slices of that width only. -/
theorem length_of_admits {f : Field} {s : Text} (hf : f.isUnbounded = false)
    (hs : f.admits s = true) : s.length = f.width := by
  cases f with
  | literal text =>
    have h : s = text := of_decide_eq_true hs
    rw [h, width]
  | code shape =>
    obtain ⟨kind, size, constant⟩ := shape
    cases kind with
    | any => simp [isUnbounded] at hf
    | constant =>
      have h : s = constant := of_decide_eq_true hs
      rw [h]
      rfl
    | _ => exact of_decide_eq_true hs
  | skip size =>
    cases size with
    | none => simp [isUnbounded] at hf
    | some n => exact of_decide_eq_true hs
  | _ => simp_all [admits, Text.isDigits, width]

end Field

namespace Split

/-- The slices are admitted by the fields one by one. -/
abbrev Admitted (fields : List Field) (slices : List Text) : Prop :=
  List.Forall₂ (fun f s => f.admits s = true) fields slices

/-- The number of characters of fields of given width. -/
def width (fields : List Field) : Nat := fields.foldr (fun f n => f.width + n) 0

theorem width_cons (f : Field) (fields : List Field) :
    width (f :: fields) = f.width + width fields := rfl

theorem width_append (a b : List Field) : width (a ++ b) = width a + width b := by
  induction a with
  | nil => exact (Nat.zero_add _).symm
  | cons f a ih => rw [List.cons_append, width_cons, width_cons, ih, Nat.add_assoc]

theorem width_le_width {f : Field} {fields : List Field} (hf : f ∈ fields) :
    f.width ≤ width fields := by
  obtain ⟨before, after, rfl⟩ := List.append_of_mem hf
  rw [width_append, width_cons]
  omega

theorem length_flatten_admitted {fields : List Field} {v : List Text}
    (hb : ∀ f ∈ fields, f.isUnbounded = false) (hv : Admitted fields v) :
    v.flatten.length = width fields := by
  induction hv with
  | nil => rfl
  | @cons f s fields v hs _ ih =>
    have h := Field.length_of_admits (hb f (by simp)) hs
    have hr := ih fun g hg => hb g (List.mem_cons_of_mem _ hg)
    rw [List.flatten_cons, List.length_append, h, hr]
    rfl

/-- A split covers the code with admitted slices. -/
theorem admitted_of_slices? {fields : List Field} {t : Text} {v : List Text}
    (h : slices? fields t = some v) : Admitted fields v ∧ v.flatten = t := by
  induction fields generalizing t v with
  | nil =>
    rw [slices?] at h
    split at h
    · next he =>
      obtain rfl := Option.some.inj h
      exact ⟨List.Forall₂.nil, (List.isEmpty_iff.mp he).symm⟩
    · cases h
  | cons f fields ih =>
    rw [slices?] at h
    split at h
    · next hu =>
      obtain ⟨⟨taken, rest⟩, hl, rfl⟩ := Option.map_eq_some_iff.mp h
      obtain ⟨after, rfl, hr⟩ := longest_eq _ _ _ _ hl
      obtain ⟨ha, rfl⟩ := ih hr
      exact ⟨List.Forall₂.cons (Field.admits_of_isUnbounded hu _) ha, rfl⟩
    · simp only at h
      split at h
      · next hs =>
        obtain ⟨rest, hr, rfl⟩ := Option.map_eq_some_iff.mp h
        obtain ⟨ha, he⟩ := ih hr
        refine ⟨List.Forall₂.cons hs ha, ?_⟩
        rw [List.flatten_cons, he, List.take_append_drop]
      · cases h

theorem slices?_cons_bounded {f : Field} {s : Text} (hf : f.isUnbounded = false)
    (hs : f.admits s = true) (fields : List Field) (t : Text) :
    slices? (f :: fields) (s ++ t) = (slices? fields t).map (s :: ·) := by
  have hl := Field.length_of_admits hf hs
  have htake : (s ++ t).take f.width = s := List.take_left' hl
  have hdrop : (s ++ t).drop f.width = t := List.drop_left' hl
  rw [slices?, if_neg (by rw [hf]; decide)]
  simp only [htake, hdrop, if_pos hs]

/-- Fields of given width at the front take their slices off the code. -/
theorem slices?_append_left {front : List Field} {v : List Text}
    (hb : ∀ f ∈ front, f.isUnbounded = false) (hv : Admitted front v)
    (fields : List Field) (t : Text) :
    slices? (front ++ fields) (v.flatten ++ t) = (slices? fields t).map (v ++ ·) := by
  induction hv with
  | nil => cases h : slices? fields t <;> simp [h]
  | @cons f s front v hs _ ih =>
    have hr := ih fun g hg => hb g (List.mem_cons_of_mem _ hg)
    rw [List.flatten_cons, List.append_assoc, List.cons_append,
      slices?_cons_bounded (hb f (by simp)) hs, hr, Option.map_map]
    rfl

theorem slices?_flatten {fields : List Field} {v : List Text}
    (hb : ∀ f ∈ fields, f.isUnbounded = false) (hv : Admitted fields v) :
    slices? fields v.flatten = some v := by
  have h := slices?_append_left hb hv [] []
  rw [List.append_nil, List.append_nil] at h
  rw [h]
  simp [slices?]

/-! ## The end of a code -/

theorem longest_cons {β : Type} (rest : Text → Option β) (c : Char) (t : Text) :
    longest rest (c :: t) =
      ((longest rest t).map (Prod.map (c :: ·) id)).or ((rest (c :: t)).map ([], ·)) := by
  rw [longest]
  cases longest rest t <;> rfl

theorem longest_eq_none {β : Type} {rest : Text → Option β} {n : Nat}
    (hr : ∀ t, t.length < n → rest t = none) {t : Text} (ht : t.length < n) :
    longest rest t = none := by
  induction t with
  | nil => rw [longest, hr [] ht]; rfl
  | cons c t ih =>
    rw [List.length_cons] at ht
    rw [longest_cons, ih (by omega), hr (c :: t) ht]
    rfl

/-- What no cut can reach into stays at the end of every cut. -/
theorem longest_append {α β : Type} {rest : Text → Option α} {rest' : Text → Option β}
    {g : α → β} {d : Text} (hshort : ∀ t, t.length < d.length → rest' t = none)
    (hr : ∀ t, rest' (t ++ d) = (rest t).map g) (t : Text) :
    longest rest' (t ++ d) = (longest rest t).map (Prod.map id g) := by
  induction t with
  | nil =>
    have hd : longest rest' d = (rest' d).map ([], ·) := by
      cases d with
      | nil => rfl
      | cons c d => rw [longest_cons, longest_eq_none hshort (by simp)]; rfl
    have h := hr []
    rw [List.nil_append] at h ⊢
    rw [hd, h, longest]
    cases rest [] <;> rfl
  | cons c t ih =>
    have h := hr (c :: t)
    rw [List.cons_append] at h ⊢
    rw [longest_cons, longest_cons, ih, h]
    cases longest rest t <;> cases rest (c :: t) <;> rfl

theorem admitted_append {front back : List Field} {v : List Text}
    (h : Admitted (front ++ back) v) :
    ∃ w d, v = w ++ d ∧ Admitted front w ∧ Admitted back d := by
  induction front generalizing v with
  | nil => exact ⟨[], v, rfl, List.Forall₂.nil, h⟩
  | cons f front ih =>
    obtain ⟨s, v, hs, hv, rfl⟩ := List.forall₂_cons_left_iff.mp h
    obtain ⟨w, d, rfl, hw, hd⟩ := ih hv
    exact ⟨s :: w, d, rfl, List.Forall₂.cons hs hw, hd⟩

theorem width_le_of_slices? {fields back : List Field} {t : Text} {v : List Text}
    (hb : ∀ f ∈ back, f.isUnbounded = false) (h : slices? (fields ++ back) t = some v) :
    width back ≤ t.length := by
  obtain ⟨hv, rfl⟩ := admitted_of_slices? h
  obtain ⟨w, d, rfl, -, hd⟩ := admitted_append hv
  rw [List.flatten_append, List.length_append, length_flatten_admitted hb hd]
  omega

/-- Fields of given width at the back take their slices off the end of the code. -/
theorem slices?_append_right {back : List Field} {d : List Text}
    (hb : ∀ f ∈ back, f.isUnbounded = false) (hd : Admitted back d)
    (fields : List Field) (t : Text) :
    slices? (fields ++ back) (t ++ d.flatten) = (slices? fields t).map (· ++ d) := by
  have hlen := length_flatten_admitted hb hd
  have hshort : ∀ fields : List Field, ∀ t : Text, t.length < d.flatten.length →
      slices? (fields ++ back) t = none := by
    intro fields t ht
    cases h : slices? (fields ++ back) t with
    | none => rfl
    | some v =>
      have := width_le_of_slices? hb h
      omega
  induction fields generalizing t with
  | nil =>
    cases t with
    | nil => rw [List.nil_append, List.nil_append, slices?_flatten hb hd]; rfl
    | cons c t =>
      cases h : slices? back (c :: t ++ d.flatten) with
      | none => rw [List.nil_append, h]; rfl
      | some v =>
        obtain ⟨hv, he⟩ := admitted_of_slices? h
        have hl := length_flatten_admitted hb hv
        rw [he, List.length_append, List.length_cons] at hl
        omega
  | cons f fields ih =>
    rw [List.cons_append, slices?, slices?]
    cases hf : f.isUnbounded with
    | true =>
      simp only [if_true]
      rw [longest_append (hshort fields) ih]
      cases longest (slices? fields) t <;> rfl
    | false =>
      simp only [Bool.false_eq_true, if_false]
      by_cases ht : f.width ≤ t.length
      · rw [List.take_append_of_le_length ht, List.drop_append_of_le_length ht, ih]
        split
        · cases slices? fields (t.drop f.width) <;> rfl
        · rfl
      · -- `f` takes its whole width or nothing, so either the back is short or `f` is
        have hshortf : ∀ u : Text, u.length < f.width → f.admits (u.take f.width) = false := by
          intro u hu
          rw [Bool.eq_false_iff]
          intro h
          have hl := Field.length_of_admits hf h
          rw [List.length_take] at hl
          omega
        rw [hshortf t (by omega)]
        by_cases hw : f.width ≤ (t ++ d.flatten).length
        · have hdrop : slices? (fields ++ back) ((t ++ d.flatten).drop f.width) = none := by
            apply hshort
            rw [List.length_append] at hw
            rw [List.length_drop, List.length_append]
            omega
          rw [hdrop]
          cases f.admits ((t ++ d.flatten).take f.width) <;> rfl
        · rw [hshortf _ (by omega)]
          rfl

/-! ## Splits that are found -/

theorem exists_longest {β : Type} {rest : Text → Option β} {t : Text} {b : β}
    (h : rest t = some b) (s : Text) : ∃ x, longest rest (s ++ t) = some x := by
  induction s with
  | nil =>
    cases t with
    | nil => exact ⟨([], b), by rw [List.append_nil, longest, h]; rfl⟩
    | cons c t =>
      rw [List.nil_append, longest_cons, h]
      cases longest rest t with
      | none => exact ⟨_, rfl⟩
      | some x => exact ⟨_, rfl⟩
  | cons c s ih =>
    obtain ⟨x, hx⟩ := ih
    rw [List.cons_append, longest_cons, hx]
    exact ⟨_, rfl⟩

/-- A code that is covered by admitted slices has a split. -/
theorem exists_slices?_of_admitted {fields : List Field} {v : List Text} (hv : Admitted fields v) :
    ∃ w, slices? fields v.flatten = some w := by
  induction hv with
  | nil => exact ⟨[], rfl⟩
  | @cons f s fields v hs _ ih =>
    obtain ⟨w, hw⟩ := ih
    rw [List.flatten_cons]
    cases hf : f.isUnbounded with
    | true =>
      obtain ⟨x, hx⟩ := exists_longest hw s
      rw [slices?, if_pos hf, hx]
      exact ⟨_, rfl⟩
    | false =>
      rw [slices?_cons_bounded hf hs, hw]
      exact ⟨_, rfl⟩

theorem width_le_flatten {fields : List Field} {v : List Text} (hv : Admitted fields v) :
    width fields ≤ v.flatten.length := by
  induction hv with
  | nil => exact Nat.le_refl 0
  | @cons f s fields v hs _ ih =>
    rw [List.flatten_cons, List.length_append, width_cons]
    cases hf : f.isUnbounded with
    | true => rw [Field.width_of_isUnbounded hf]; omega
    | false => rw [Field.length_of_admits hf hs]; omega

/-- A code that is as long as its fields require leaves nothing to the others. -/
theorem lengths_of_width {fields : List Field} {v : List Text} (hv : Admitted fields v)
    (hw : v.flatten.length = width fields) : v.map List.length = fields.map Field.width := by
  induction hv with
  | nil => rfl
  | @cons f s fields v hs hrest ih =>
    have hle := width_le_flatten hrest
    have hsum : s.length + v.flatten.length = f.width + width fields := by
      rw [← List.length_append, ← List.flatten_cons, hw]
      rfl
    have hs' : s.length = f.width := by
      cases hf : f.isUnbounded with
      | true =>
        have h0 := Field.width_of_isUnbounded hf
        omega
      | false => exact Field.length_of_admits hf hs
    rw [List.map_cons, List.map_cons, hs', ih (by omega)]

theorem slices?_of_width {fields : List Field} {v : List Text} (hv : Admitted fields v)
    (hw : v.flatten.length = width fields) : slices? fields v.flatten = some v := by
  obtain ⟨w, h⟩ := exists_slices?_of_admitted hv
  obtain ⟨hwa, hflat⟩ := admitted_of_slices? h
  have heq : w = v := by
    rw [List.eq_iff_flatten_eq]
    refine ⟨hflat, ?_⟩
    rw [lengths_of_width hv hw, lengths_of_width hwa (by rw [hflat, hw])]
  rw [h, heq]

end Split

end Barcode

import Barcode.Proofs.Template.Slices
import Barcode.Proofs.Text.Digits

/-!
# Exchanging slices of a split

Slices are exchanged for others that their fields admit. At both ends of a template the fields
of given width fix where their slices lie. Between two fields of any number of characters a
slice has no fixed place; there digits may be exchanged for digits as long as no literal holds
a digit, since such fields ask of a character no more than whether it is a digit.
-/

namespace Barcode

/-! ## Texts that differ in digits only -/

namespace Text

/-- The same text but for digits in the place of digits. -/
def Alike (s t : Text) : Prop :=
  List.Forall₂ (fun a b => a = b ∨ (a.isDigit = true ∧ b.isDigit = true)) s t

theorem Alike.refl (s : Text) : Alike s s := List.forall₂_same.mpr fun _ _ => Or.inl rfl

theorem Alike.length {s t : Text} (h : Alike s t) : s.length = t.length := List.Forall₂.length_eq h

theorem Alike.symm {s t : Text} (h : Alike s t) : Alike t s := by
  induction h with
  | nil => exact List.Forall₂.nil
  | cons hc _ ih =>
    refine List.Forall₂.cons ?_ ih
    rcases hc with rfl | ⟨ha, hb⟩
    · exact Or.inl rfl
    · exact Or.inr ⟨hb, ha⟩

theorem Alike.append {s t u v : Text} (h : Alike s t) (h' : Alike u v) : Alike (s ++ u) (t ++ v) :=
  List.rel_append h h'

theorem Alike.flatten {v w : List Text} (h : List.Forall₂ Alike v w) :
    Alike v.flatten w.flatten := by
  induction h with
  | nil => exact List.Forall₂.nil
  | cons hs _ ih => exact hs.append ih

theorem alike_of_isDigits {n : Nat} {s t : Text} (hs : isDigits n s = true)
    (ht : isDigits n t = true) : Alike s t := by
  obtain ⟨hsl, hsd⟩ := isDigits_iff.mp hs
  obtain ⟨htl, htd⟩ := isDigits_iff.mp ht
  rw [Alike, List.forall₂_iff_get]
  refine ⟨hsl.trans htl.symm, ?_⟩
  intro i hi hi'
  exact Or.inr ⟨hsd _ (List.get_mem s ⟨i, hi⟩), htd _ (List.get_mem t ⟨i, hi'⟩)⟩

theorem Alike.all_isDigit {s t : Text} (h : Alike s t) :
    s.all Char.isDigit = t.all Char.isDigit := by
  induction h with
  | nil => rfl
  | cons hc _ ih =>
    rw [List.all_cons, List.all_cons, ih]
    rcases hc with rfl | ⟨ha, hb⟩
    · rfl
    · rw [ha, hb]

/-- A text without digits is like itself only. -/
theorem Alike.eq_of_no_digit {s t : Text} (h : Alike s t) (hs : s.any Char.isDigit = false) :
    s = t := by
  induction h with
  | nil => rfl
  | cons hc _ ih =>
    rw [List.any_cons, Bool.or_eq_false_iff] at hs
    rcases hc with rfl | ⟨ha, -⟩
    · rw [ih hs.2]
    · rw [ha] at hs
      exact absurd hs.1 (by decide)

end Text

open Text (Alike)

/-- A literal or a constant that holds a digit. -/
def Field.hasDigit : Field → Bool
  | .literal text => text.any Char.isDigit
  | .code shape => shape.kind = .constant && shape.constant.any Char.isDigit
  | _ => false

theorem Field.hasDigit_of_isUnbounded {f : Field} (hf : f.isUnbounded = true) :
    f.hasDigit = false := by
  cases f with
  | code shape =>
    have hk : shape.kind = .any := of_decide_eq_true hf
    simp [hasDigit, hk]
  | literal text => simp [isUnbounded] at hf
  | _ => rfl

theorem Field.admits_alike {f : Field} {s t : Text} (hf : f.hasDigit = false) (h : Alike s t) :
    f.admits s = f.admits t := by
  have hfixed : ∀ u : Text, u.any Char.isDigit = false → (s = u ↔ t = u) := by
    intro u hu
    constructor
    · rintro rfl
      exact (h.eq_of_no_digit hu).symm
    · rintro rfl
      exact (h.symm.eq_of_no_digit hu).symm
  have hlen := h.length
  have hdigits : ∀ n, Text.isDigits n s = Text.isDigits n t := by
    intro n
    rw [Text.isDigits, Text.isDigits, hlen, h.all_isDigit]
  cases f with
  | literal text =>
    have hiff := hfixed text hf
    simp only [admits, hiff]
  | code shape =>
    obtain ⟨kind, size, constant⟩ := shape
    cases kind with
    | constant =>
      have hiff := hfixed constant (by simpa [hasDigit] using hf)
      simp only [admits, hiff]
    | any => rfl
    | _ => simp only [admits, hlen]
  | skip size =>
    cases size with
    | none => rfl
    | some n => simp only [admits, hlen]
  | _ => simp only [admits, hdigits]

namespace Split

theorem longest_alike {α β : Type} {R : α → β → Prop} {rest : Text → Option α}
    {rest' : Text → Option β} (hr : ∀ t t', Alike t t' → Option.Rel R (rest t) (rest' t'))
    {t t' : Text} (h : Alike t t') :
    Option.Rel (fun a b => Alike a.1 b.1 ∧ R a.2 b.2) (longest rest t) (longest rest' t') := by
  induction h with
  | nil =>
    have hnil := hr [] [] List.Forall₂.nil
    rw [longest, longest]
    generalize rest [] = a at hnil ⊢
    generalize rest' [] = b at hnil ⊢
    cases hnil with
    | none => exact Option.Rel.none
    | some hab => exact Option.Rel.some ⟨List.Forall₂.nil, hab⟩
  | @cons c c' t t' hc ht ih =>
    have hall := hr (c :: t) (c' :: t') (List.Forall₂.cons hc ht)
    rw [longest_cons, longest_cons]
    generalize longest rest t = a at ih ⊢
    generalize longest rest' t' = b at ih ⊢
    generalize rest (c :: t) = a' at hall ⊢
    generalize rest' (c' :: t') = b' at hall ⊢
    cases ih with
    | some hab => exact Option.Rel.some ⟨List.Forall₂.cons hc hab.1, hab.2⟩
    | none =>
      cases hall with
      | none => exact Option.Rel.none
      | some hab => exact Option.Rel.some ⟨List.Forall₂.nil, hab⟩

/-- Texts that differ in digits only are split at the same places. -/
theorem slices?_alike {fields : List Field} (hd : ∀ f ∈ fields, f.hasDigit = false) {t t' : Text}
    (h : Alike t t') :
    Option.Rel (List.Forall₂ Alike) (slices? fields t) (slices? fields t') := by
  induction fields generalizing t t' with
  | nil =>
    rw [slices?, slices?]
    cases h with
    | nil => exact Option.Rel.some List.Forall₂.nil
    | cons _ _ => exact Option.Rel.none
  | cons f fields ih =>
    have hrest : ∀ t t', Alike t t' →
        Option.Rel (List.Forall₂ Alike) (slices? fields t) (slices? fields t') :=
      fun t t' ht => ih (fun g hg => hd g (List.mem_cons_of_mem _ hg)) ht
    rw [slices?, slices?]
    cases hf : f.isUnbounded with
    | true =>
      simp only [if_true]
      have hl := longest_alike hrest h
      generalize longest (slices? fields) t = a at hl ⊢
      generalize longest (slices? fields) t' = b at hl ⊢
      cases hl with
      | none => exact Option.Rel.none
      | some hab => exact Option.Rel.some (List.Forall₂.cons hab.1 hab.2)
    | false =>
      simp only [Bool.false_eq_true, if_false]
      have htake : Alike (t.take f.width) (t'.take f.width) := List.forall₂_take _ h
      have hdrop := hrest (t.drop f.width) (t'.drop f.width) (List.forall₂_drop _ h)
      rw [Field.admits_alike (hd f (by simp)) htake]
      split
      · generalize slices? fields (t.drop f.width) = a at hdrop ⊢
        generalize slices? fields (t'.drop f.width) = b at hdrop ⊢
        cases hdrop with
        | none => exact Option.Rel.none
        | some hab => exact Option.Rel.some (List.Forall₂.cons htake hab)
      · exact Option.Rel.none

theorem lengths_alike {v w : List Text} (h : List.Forall₂ Alike v w) :
    v.map List.length = w.map List.length := by
  induction h with
  | nil => rfl
  | cons hs _ ih => rw [List.map_cons, List.map_cons, ih, hs.length]

/-- A split into alike slices is found again. -/
theorem slices?_of_alike {fields : List Field} (hd : ∀ f ∈ fields, f.hasDigit = false)
    {v w : List Text} (hv : slices? fields v.flatten = some v) (h : List.Forall₂ Alike v w) :
    slices? fields w.flatten = some w := by
  have hrel := slices?_alike hd (Alike.flatten h)
  rw [hv] at hrel
  cases hw : slices? fields w.flatten with
  | none =>
    rw [hw] at hrel
    cases hrel
  | some u =>
    rw [hw] at hrel
    cases hrel with
    | some hu =>
      have heq : u = w := by
        rw [List.eq_iff_flatten_eq]
        exact ⟨(admitted_of_slices? hw).2, (lengths_alike hu).symm.trans (lengths_alike h)⟩
      rw [heq]

/-! ## Exchanging slices -/

/-- An exchange of slices that their fields admit. -/
def exchange (g : Field → Text → Text) (fields : List Field) (slices : List Text) : List Text :=
  List.zipWith g fields slices

theorem admitted_exchange {g : Field → Text → Text} {fields : List Field} {v : List Text}
    (hg : ∀ f ∈ fields, ∀ s, f.admits s = true → f.admits (g f s) = true)
    (hv : Admitted fields v) : Admitted fields (exchange g fields v) := by
  induction hv with
  | nil => exact List.Forall₂.nil
  | @cons f s fields v hs _ ih =>
    exact List.Forall₂.cons (hg f (by simp) s hs) (ih fun h hh => hg h (List.mem_cons_of_mem _ hh))

theorem alike_exchange {g : Field → Text → Text} {fields : List Field} {v : List Text}
    (hg : ∀ f ∈ fields, ∀ s, f.admits s = true → Alike s (g f s)) (hv : Admitted fields v) :
    List.Forall₂ Alike v (exchange g fields v) := by
  induction hv with
  | nil => exact List.Forall₂.nil
  | @cons f s fields v hs _ ih =>
    exact List.Forall₂.cons (hg f (by simp) s hs) (ih fun h hh => hg h (List.mem_cons_of_mem _ hh))

theorem exchange_eq_self {g : Field → Text → Text} {fields : List Field} {v : List Text}
    (hg : ∀ f ∈ fields, ∀ s, g f s = s) (hl : fields.length = v.length) :
    exchange g fields v = v := by
  induction fields generalizing v with
  | nil => exact (List.length_eq_zero_iff.mp hl.symm).symm
  | cons f fields ih =>
    obtain ⟨s, v, rfl⟩ := List.exists_cons_of_length_eq_add_one hl.symm
    rw [exchange, List.zipWith_cons_cons, hg f (by simp) s]
    congr 1
    exact ih (fun h hh => hg h (List.mem_cons_of_mem _ hh)) (by simpa using hl)

/-- The field stands between two fields of any number of characters. -/
def Inner (fields : List Field) (f : Field) : Prop :=
  ∃ before after, fields = before ++ f :: after ∧
    (∃ h ∈ before, h.isUnbounded = true) ∧ ∃ h ∈ after, h.isUnbounded = true

/-- Where a field of the kind `p` has no fixed place, no literal holds a digit. -/
def Settled (p : Field → Bool) (fields : List Field) : Prop :=
  ∀ f g, Inner fields f → p f = true → Inner fields g → g.hasDigit = false

theorem Settled.mono {p q : Field → Bool} {fields : List Field} (h : Settled p fields)
    (hq : ∀ f, q f = true → p f = true) : Settled q fields :=
  fun f g hf hqf hg => h f g hf (hq f hqf) hg

theorem settled_of_countP_le_one {p : Field → Bool} {fields : List Field}
    (h : fields.countP Field.isUnbounded ≤ 1) : Settled p fields := by
  intro f _ hf _ _
  obtain ⟨before, after, rfl, ⟨x, hx, hxu⟩, y, hy, hyu⟩ := hf
  have hb : 0 < before.countP Field.isUnbounded := List.countP_pos_iff.mpr ⟨x, hx, hxu⟩
  have ha : 0 < after.countP Field.isUnbounded := List.countP_pos_iff.mpr ⟨y, hy, hyu⟩
  rw [List.countP_append, List.countP_cons] at h
  omega

/-- The fields of given width at both ends, and the core that they leave, which begins and ends
with a field of any number of characters unless it is empty. -/
theorem exists_core (fields : List Field) :
    ∃ front core back, fields = front ++ (core ++ back) ∧
      (∀ f ∈ front, f.isUnbounded = false) ∧ (∀ f ∈ back, f.isUnbounded = false) ∧
      ∀ h : core ≠ [], (core.head h).isUnbounded = true ∧ (core.getLast h).isUnbounded = true := by
  let bounded (f : Field) : Bool := !f.isUnbounded
  let rest := fields.dropWhile bounded
  refine ⟨fields.takeWhile bounded, rest.rdropWhile bounded, rest.rtakeWhile bounded,
    ?_, ?_, ?_, ?_⟩
  · rw [List.rdropWhile_append_rtakeWhile, List.takeWhile_append_dropWhile]
  · intro f hf
    have h : bounded f = true := List.mem_takeWhile_imp hf
    exact (Bool.not_eq_true' _).mp h
  · intro f hf
    have h : bounded f = true := List.mem_rtakeWhile_imp hf
    exact (Bool.not_eq_true' _).mp h
  · intro h
    have hrest : rest ≠ [] := by
      intro hr
      rw [hr] at h
      exact h (List.rdropWhile_nil _)
    have hhead : (rest.rdropWhile bounded).head h = rest.head hrest :=
      (List.rdropWhile_prefix bounded rest).head h
    have hfirst : bounded (rest.head hrest) = false := List.head_dropWhile_not _ hrest
    have hlast := List.rdropWhile_last_not bounded rest h
    rw [hhead]
    exact ⟨by simpa [bounded] using hfirst, by simpa [bounded] using hlast⟩

/-- A field of given width in the core has no fixed place. -/
theorem inner_of_mem_core {fields front core back : List Field}
    (he : fields = front ++ (core ++ back))
    (hc : ∀ h : core ≠ [], (core.head h).isUnbounded = true ∧ (core.getLast h).isUnbounded = true)
    {f : Field} (hf : f ∈ core) (hb : f.isUnbounded = false) : Inner fields f := by
  obtain ⟨l, r, rfl⟩ := List.append_of_mem hf
  obtain ⟨hhead, hlast⟩ := hc (by simp)
  refine ⟨front ++ l, r ++ back, by rw [he]; simp, ?_, ?_⟩
  · cases l with
    | nil => exact absurd (hb.symm.trans hhead) (by decide)
    | cons u l => exact ⟨u, by simp, hhead⟩
  · rcases List.eq_nil_or_concat r with rfl | ⟨r, u, rfl⟩
    · rw [List.getLast_append_of_ne_nil _ (by simp)] at hlast
      exact absurd (hb.symm.trans hlast) (by decide)
    · refine ⟨u, by simp, ?_⟩
      simpa using hlast

/-- The split of a core, whose digits are exchanged for digits. -/
theorem slices?_exchange_core {p : Field → Bool} {g : Field → Text → Text}
    {fields front core back : List Field} {b : List Text}
    (hb : ∀ f, p f = true → f.isUnbounded = false)
    (ha : ∀ f, p f = true → ∀ s, f.admits s = true → Alike s (g f s))
    (hid : ∀ f, p f = false → ∀ s, g f s = s) (hp : Settled p fields)
    (he : fields = front ++ (core ++ back))
    (hc : ∀ h : core ≠ [], (core.head h).isUnbounded = true ∧ (core.getLast h).isUnbounded = true)
    (h : slices? core b.flatten = some b) :
    slices? core (exchange g core b).flatten = some (exchange g core b) := by
  have hv := (admitted_of_slices? h).1
  by_cases hex : ∃ f ∈ core, p f = true
  · obtain ⟨f, hf, hpf⟩ := hex
    have hinner := inner_of_mem_core he hc hf (hb f hpf)
    have hd : ∀ x ∈ core, x.hasDigit = false := by
      intro x hx
      cases hu : x.isUnbounded with
      | true => exact Field.hasDigit_of_isUnbounded hu
      | false => exact hp f x hinner hpf (inner_of_mem_core he hc hx hu)
    have halike : ∀ x ∈ core, ∀ s, x.admits s = true → Alike s (g x s) := by
      intro x _ s hs
      cases hpx : p x with
      | true => exact ha x hpx s hs
      | false =>
        rw [hid x hpx s]
        exact Alike.refl s
    exact slices?_of_alike hd h (alike_exchange halike hv)
  · have hsame : exchange g core b = b := by
      apply exchange_eq_self _ hv.length_eq
      intro f hf
      exact hid f (by simpa using fun hpf => hex ⟨f, hf, hpf⟩)
    rw [hsame]
    exact h

/-- Exchanged slices are split where the old ones were. -/
theorem slices?_exchange {p : Field → Bool} {g : Field → Text → Text} {fields : List Field}
    {t : Text} {v : List Text} (hb : ∀ f, p f = true → f.isUnbounded = false)
    (hg : ∀ f ∈ fields, ∀ s, f.admits s = true → f.admits (g f s) = true)
    (ha : ∀ f, p f = true → ∀ s, f.admits s = true → Alike s (g f s))
    (hid : ∀ f, p f = false → ∀ s, g f s = s) (hp : Settled p fields)
    (h : slices? fields t = some v) :
    slices? fields (exchange g fields v).flatten = some (exchange g fields v) := by
  obtain ⟨front, core, back, he, hfront, hback, hcore⟩ := exists_core fields
  obtain ⟨hv, rfl⟩ := admitted_of_slices? h
  rw [he] at h hv hg ⊢
  obtain ⟨a, w, rfl, haf, hw⟩ := admitted_append hv
  obtain ⟨b, d, rfl, hcb, hd⟩ := admitted_append hw
  -- the split of the core, which neither end takes part in
  have hmid : slices? core b.flatten = some b := by
    rw [List.flatten_append, List.flatten_append, slices?_append_left hfront haf,
      slices?_append_right hback hd, Option.map_map] at h
    obtain ⟨b', hb', heq⟩ := Option.map_eq_some_iff.mp h
    rw [hb']
    simpa using heq
  have hnew := slices?_exchange_core hb ha hid hp he hcore hmid
  have ha' := admitted_exchange (fun f hf => hg f (by simp [hf])) haf
  have hd' := admitted_exchange (fun f hf => hg f (by simp [hf])) hd
  have hsplit : exchange g (front ++ (core ++ back)) (a ++ (b ++ d)) =
      exchange g front a ++ (exchange g core b ++ exchange g back d) := by
    rw [exchange, List.zipWith_append haf.length_eq, List.zipWith_append hcb.length_eq]
    rfl
  rw [hsplit, List.flatten_append, List.flatten_append, slices?_append_left hfront ha',
    slices?_append_right hback hd', hnew]
  rfl

end Split

end Barcode

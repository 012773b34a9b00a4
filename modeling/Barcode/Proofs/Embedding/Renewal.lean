import Barcode.Proofs.Ean.Completion
import Barcode.Proofs.Embedding.Put

/-!
# A reading with a renewed payload

Embedding a payload amounts to three exchanges: the payload field takes the new digits, the
check digit of the payload takes the digit that belongs to them, and the check digit of the EAN
the one that belongs to the first twelve characters. The layout that embedding is made for is a
condition on the reading; in this layout the renewed code is accepted with the renewed reading.
-/

namespace Barcode

open Sequence
open Grammar (Lawful)
open Split (Settled)
open Ean (payloadDigit isDigits_payloadDigit)
open Text (isDigits isDigits_iff isDigits_padZeros padZeros)
open Text.Numeral (Writable digitLimit)

/-- A field whose slice changes when a payload is embedded. -/
def Field.isRenewed : Field → Bool
  | .embed _ | .payloadCheck | .eanCheck => true
  | _ => false

theorem Field.isUnbounded_of_isRenewed {f : Field} (h : f.isRenewed = true) :
    f.isUnbounded = false := by
  cases f <;> first | rfl | cases h

/-- The slices of a renewed field are runs of digits of its width. -/
theorem Field.alike_of_isRenewed {f : Field} (h : f.isRenewed = true) {s x : Text}
    (hs : f.admits s = true) (hx : f.admits x = true) : Text.Alike s x := by
  cases f with
  | embed n => exact Text.alike_of_isDigits hs hx
  | payloadCheck => exact Text.alike_of_isDigits hs hx
  | eanCheck => exact Text.alike_of_isDigits hs hx
  | _ => cases h

theorem Field.not_repeatable_of_isRenewed {f : Field} (h : f.isRenewed = true) :
    f.purpose.repeatable = false := by
  cases f <;> first | rfl | cases h

namespace Reading

/-- The reading with a payload and the check digit that belongs to it. -/
def checked (r : Reading) (n : Nat) (p : Text) : Reading :=
  (r.put (.embed n) p).put .payloadCheck (payloadDigit p)

/-- The reading with a payload and both check digits that belong to it. -/
def renewed (r : Reading) (n : Nat) (p : Text) : Reading :=
  (r.checked n p).put .eanCheck (Text.ofNat (Ean.check ((r.checked n p).code.take 12)))

theorem payloadSizes_of_entries {r : Reading} {before after : List (Field × Text)} {n : Nat}
    {p : Text} (he : r.entries = before ++ (.embed n, p) :: after) :
    r.payloadSizes =
      (Reading.mk r.template before).payloadSizes ++
        n :: (Reading.mk r.template after).payloadSizes := by
  simp [payloadSizes, he]

theorem payloadSizes_eq_nil {t : Template} {l : List (Field × Text)}
    (hl : ∀ e ∈ l, e.1.purpose ≠ .embed) : (Reading.mk t l).payloadSizes = [] := by
  rw [payloadSizes, List.filterMap_eq_nil_iff]
  intro e hm
  have hne := hl e hm
  obtain ⟨f, s⟩ := e
  cases f <;> first | rfl | exact absurd rfl hne

theorem payloadSizes_of_mem {r : Reading} {n : Nat} (hl : Lawful (r.entries.map Prod.fst))
    (hn : .embed n ∈ r.entries.map Prod.fst) : r.payloadSizes = [n] := by
  obtain ⟨before, p, after, he, hb, ha⟩ := exists_entry hl hn rfl
  rw [payloadSizes_of_entries he, payloadSizes_eq_nil hb, payloadSizes_eq_nil ha]
  rfl

theorem payloadSizes_of_not_mem {r : Reading} (h : ∀ n, .embed n ∉ r.entries.map Prod.fst) :
    r.payloadSizes = [] := by
  rw [payloadSizes, List.filterMap_eq_nil_iff]
  intro e he
  obtain ⟨f, s⟩ := e
  cases f with
  | embed n => exact absurd (List.mem_map_of_mem he) (h n)
  | _ => rfl

theorem has_iff {r : Reading} {f : Field} : r.has f = true ↔ f ∈ r.entries.map Prod.fst := by
  rw [has, List.any_eq_true, List.mem_map]
  simp only [decide_eq_true_eq]

/-- A code and its reading in the layout that embedding is made for. -/
structure Embeddable (t : Template) (c : Text) (r : Reading) (n : Nat) : Prop where
  lawful : Lawful t.fields
  split : t.split? c = some r
  first : t.fields.find? (fun f => f.integerPayload?.isSome) = some (.embed n)
  pos : 0 < n
  readable : n ≤ digitLimit
  settled : Settled Field.isRenewed t.fields
  offset : .payloadCheck ∈ t.fields → r.offset .payloadCheck = 6

namespace Embeddable

variable {t : Template} {c : Text} {r : Reading} {n : Nat} {p q : Text}

theorem fields (h : Embeddable t c r n) : r.entries.map Prod.fst = t.fields :=
  Template.fields_of_split? h.split

theorem lawful_entries (h : Embeddable t c r n) : Lawful (r.entries.map Prod.fst) := by
  rw [h.fields]
  exact h.lawful

theorem embed_mem (h : Embeddable t c r n) : .embed n ∈ t.fields :=
  List.mem_of_find?_eq_some h.first

/-- The payload field is the only one, and no integer payload stands before it. -/
theorem exists_payload (h : Embeddable t c r n) :
    ∃ before p after, r.entries = before ++ (.embed n, p) :: after ∧
      (∀ e ∈ before, e.1.purpose ≠ .embed) ∧ (∀ e ∈ after, e.1.purpose ≠ .embed) ∧
      (∀ e ∈ before, e.1.integerPayload? = none) := by
  have hm : Field.embed n ∈ r.entries.map Prod.fst := by rw [h.fields]; exact h.embed_mem
  obtain ⟨before, p, after, he, hb, ha⟩ := exists_entry h.lawful_entries hm rfl
  refine ⟨before, p, after, he, hb, ha, ?_⟩
  have hfirst := h.first
  rw [← h.fields, he, List.map_append, List.find?_append] at hfirst
  cases hf : (before.map Prod.fst).find? (fun f => f.integerPayload?.isSome) with
  | none =>
    intro e hm
    have hn := List.find?_eq_none.mp hf e.1 (List.mem_map_of_mem hm)
    simpa using hn
  | some f =>
    -- an earlier integer payload would be a second plain one
    rw [hf, Option.some_or, Option.some.injEq] at hfirst
    obtain ⟨e, hm, hef⟩ := List.mem_map.mp (List.mem_of_find?_eq_some hf)
    exact absurd (by rw [hef, hfirst]) (hb e hm)

theorem payload_slice (h : Embeddable t c r n) (hp : (.embed n, p) ∈ r.entries) :
    isDigits n p = true :=
  Template.admits_of_split? h.split hp

/-- The check digit of a payload belongs to a payload of five digits. -/
theorem five (h : Embeddable t c r n) (hc : .payloadCheck ∈ t.fields) : n = 5 := by
  have h5 := h.lawful.payload hc
  obtain ⟨l, r', hsplit, hl⟩ := (List.find?_eq_some_iff_append.mp h.first).2
  rw [hsplit, List.findSome?_append, List.findSome?_eq_none_iff.mpr, Option.none_or,
    List.findSome?_cons] at h5
  · exact Option.some.inj h5
  · intro f hf
    simpa using hl f hf

theorem embed_unique (h : Embeddable t c r n) {e : Field × Text} (he : e ∈ r.entries)
    (hp : e.1.purpose = .embed) : e.1 = .embed n := by
  obtain ⟨before, p, after, hsplit, -, -, -⟩ := h.exists_payload
  have hm : (.embed n, p) ∈ r.entries := by rw [hsplit]; simp
  rw [eq_of_purpose_eq h.lawful_entries hm he hp rfl]

theorem payloadSizes (h : Embeddable t c r n) : r.payloadSizes = [n] :=
  payloadSizes_of_mem h.lawful_entries (h.fields.symm ▸ h.embed_mem)

/-- Every plain payload field takes the new digits, and there is only one. -/
theorem replacePayload (h : Embeddable t c r n) (digits : Text) :
    r.replacePayload digits = (r.put (.embed n) (padZeros n digits)).code := by
  rw [Reading.replacePayload, code, put, List.flatMap_map, List.flatMap_def, List.flatMap_def]
  congr 1
  apply List.map_congr_left
  intro e he
  by_cases hp : e.1.purpose = .embed
  · have hf := h.embed_unique he hp
    obtain ⟨f, s⟩ := e
    simp only at hf
    rw [hf, if_pos rfl]
  · have hne : e.1 ≠ .embed n := fun hf => hp (by rw [hf]; rfl)
    rw [if_neg hne]
    obtain ⟨f, s⟩ := e
    cases f <;> first | rfl | exact absurd rfl hp

theorem has_iff (h : Embeddable t c r n) (f : Field) : r.has f = true ↔ f ∈ t.fields := by
  rw [Reading.has_iff, h.fields]

theorem payload_unique (h : Embeddable t c r n) (hp : (.embed n, p) ∈ r.entries)
    (hq : (.embed n, q) ∈ r.entries) : p = q :=
  congrArg Prod.snd (eq_of_purpose_eq h.lawful_entries hq hp rfl rfl)

theorem embeddedData (h : Embeddable t c r n) (hp : (.embed n, p) ∈ r.entries) :
    r.embeddedData = .ok (some (Text.toNat p : Int)) := by
  obtain ⟨before, s, after, he, -, -, hnone⟩ := h.exists_payload
  obtain rfl : s = p := h.payload_unique (by rw [he]; simp) hp
  exact embeddedData_of_entries he hnone h.pos h.readable (h.payload_slice hp)

/-- The payload whose check digit is checked is the plain one. -/
theorem checkedPayload (h : Embeddable t c r n) (hc : .payloadCheck ∈ t.fields)
    (hp : (.embed n, p) ∈ r.entries) : r.checkedPayload? = some p := by
  obtain ⟨before, s, after, he, -, -, hnone⟩ := h.exists_payload
  obtain rfl : s = p := h.payload_unique (by rw [he]; simp) hp
  rw [h.five hc] at he
  exact checkedPayload_of_entries he hnone rfl

end Embeddable

/-! ## Readings of one layout -/

/-- The new reading is that of its code, and differs from the old one in renewed slices only,
which have kept their width. -/
structure SameLayout (t : Template) (r r' : Reading) : Prop where
  split : t.split? r'.code = some r'
  offset : ∀ g, r'.offset g = r.offset g
  length : r'.code.length = r.code.length
  elsewhere : List.Forall₂ (fun e e' : Field × Text =>
    e'.1 = e.1 ∧ (e.1.isRenewed = false → e'.2 = e.2)) r.entries r'.entries

section Layout

variable {t : Template} {c : Text} {r : Reading} {f : Field} {x : Text}

theorem SameLayout.trans {r r' r'' : Reading} (h : SameLayout t r r') (h' : SameLayout t r' r'') :
    SameLayout t r r'' := by
  refine ⟨h'.split, fun g => (h'.offset g).trans (h.offset g), h'.length.trans h.length, ?_⟩
  have hboth := h.elsewhere
  have hnext := h'.elsewhere
  generalize r.entries = l at hboth ⊢
  generalize r'.entries = l' at hboth hnext
  generalize r''.entries = l'' at hnext ⊢
  induction hboth generalizing l'' with
  | nil =>
    cases hnext
    exact List.Forall₂.nil
  | cons he _ ih =>
    obtain ⟨e'', l'', he', hl, rfl⟩ := List.forall₂_cons_left_iff.mp hnext
    refine List.Forall₂.cons ⟨he'.1.trans he.1, fun hr => ?_⟩ (ih _ hl)
    rw [he'.2 (by rw [he.1]; exact hr), he.2 hr]

theorem exists_slice (hs : t.split? c = some r) (hl : Lawful t.fields) (hf : f ∈ t.fields)
    (hr : f.isRenewed = true) :
    ∃ before s after, r.entries = before ++ (f, s) :: after ∧ (∀ e ∈ before, e.1 ≠ f) ∧
      (∀ e ∈ after, e.1 ≠ f) ∧ s.length = f.width := by
  have hfields := Template.fields_of_split? hs
  obtain ⟨before, s, after, he, hbe, haf⟩ :=
    exists_entry (by rw [hfields]; exact hl) (by rw [hfields]; exact hf)
      (Field.not_repeatable_of_isRenewed hr)
  have hm : (f, s) ∈ r.entries := by rw [he]; simp
  exact ⟨before, s, after, he, fun e h => ne_of_purpose_ne (hbe e h),
    fun e h => ne_of_purpose_ne (haf e h),
    Field.length_of_admits (Field.isUnbounded_of_isRenewed hr) (Template.admits_of_split? hs hm)⟩

/-- The check digit of the EAN is the last character. -/
theorem offset_eanCheck (hs : t.split? c = some r) (hl : Lawful t.fields)
    (hf : .eanCheck ∈ t.fields) : r.offset .eanCheck + 1 = c.length := by
  obtain ⟨before, s, after, he, hbe, haf, hlen⟩ := exists_slice hs hl hf rfl
  have hlast := hl.last hf
  rw [← Template.fields_of_split? hs, he, List.map_append, List.map_cons] at hlast
  have hnil : after = [] := by
    rcases List.eq_nil_or_concat after with h | ⟨l, e, rfl⟩
    · exact h
    · rw [List.concat_eq_append, List.map_append, ← List.cons_append, ← List.append_assoc,
        List.map_singleton, List.getLast?_concat] at hlast
      exact absurd (Option.some.inj hlast) (haf e (by simp))
  rw [offset_of_entries he hbe, ← Template.code_of_split? hs, code, he, hnil]
  simp [hlen, Field.width]

theorem elsewhere_put (hr : f.isRenewed = true) :
    List.Forall₂ (fun e e' : Field × Text =>
      e'.1 = e.1 ∧ (e.1.isRenewed = false → e'.2 = e.2)) r.entries (r.put f x).entries := by
  rw [put, List.forall₂_map_right_iff, List.forall₂_same]
  intro e _
  by_cases he : e.1 = f
  · rw [if_pos he]
    refine ⟨he.symm, fun hn => ?_⟩
    rw [he, hr] at hn
    cases hn
  · rw [if_neg he]
    exact ⟨rfl, fun _ => rfl⟩

theorem sameLayout_put (hs : t.split? c = some r) (hl : Lawful t.fields)
    (hp : Settled Field.isRenewed t.fields) (hr : f.isRenewed = true) (hx : f.admits x = true) :
    SameLayout t r (r.put f x) := by
  have hb := Field.isUnbounded_of_isRenewed hr
  have hsettled : Settled (· = f) t.fields :=
    hp.mono fun g hg => by rw [of_decide_eq_true hg]; exact hr
  have hsplit := Template.split?_put hs hb hsettled hx
    fun s hsx => Field.alike_of_isRenewed hr hsx hx
  by_cases hf : f ∈ t.fields
  · obtain ⟨before, s, after, he, hbe, haf, hlen⟩ := exists_slice hs hl hf hr
    have hw := (Field.length_of_admits hb hx).trans hlen.symm
    exact ⟨hsplit, offset_put he hbe haf hw, length_code_put he hbe haf hw, elsewhere_put hr⟩
  · have hid : r.put f x = r :=
      put_of_not_mem (by rw [Template.fields_of_split? hs]; exact hf)
    exact ⟨hsplit, fun g => by rw [hid], by rw [hid], elsewhere_put hr⟩

end Layout

end Reading

end Barcode

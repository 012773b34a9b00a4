import Barcode.Proofs.Embedding.Lens
import Barcode.Proofs.Instore.Carrying

/-!
# The builders of in-store codes agree

Three builders make in-store codes: one assembles the code from the fields of a template, one
renews a code that the template has read, and one knows the fixed layout only. On a template in
the in-store layout, with a lead of seven characters, all three make the same code.
-/

namespace Barcode

open Ean (payloadDigit isDigits_payloadDigit)
open Split (Admitted width)
open Text (isDigits isDigits_iff padZeros isDigits_padZeros)

/-- A field that stands before the payload in the in-store layout. -/
def Field.isLeading : Field → Bool
  | .literal _ | .skip (some _) | .payloadCheck => true
  | .code shape => shape.kind = .fixed || shape.kind = .constant
  | _ => false

theorem Field.isUnbounded_of_isLeading {f : Field} (h : f.isLeading = true) :
    f.isUnbounded = false := by
  cases f with
  | code shape =>
    cases hk : shape.kind <;> simp_all [Field.isLeading, Field.isUnbounded]
  | skip size => cases size <;> first | rfl | cases h
  | _ => rfl

theorem Field.integerPayload?_of_isLeading {f : Field} (h : f.isLeading = true) :
    f.integerPayload? = none := by
  cases f <;> first | rfl | cases h

namespace Reading

variable {t : Template} {c : Text} {r : Reading} {f : Field} {before after : List Field}

/-- Behind fields of given width a field stands at the sum of their widths. -/
theorem offset_of_fields (hs : t.split? c = some r) (hf : t.fields = before ++ f :: after)
    (hb : ∀ g ∈ before, g.isUnbounded = false) (hne : f ∉ before) :
    r.offset f = width before := by
  obtain ⟨v, rfl, hv, -⟩ := Template.admitted_of_split? hs
  rw [hf] at hv
  obtain ⟨w, d, rfl, hw, hd⟩ := Split.admitted_append hv
  obtain ⟨s, d, -, -, rfl⟩ := List.forall₂_cons_left_iff.mp hd
  have hzip : t.fields.zip (w ++ s :: d) = before.zip w ++ (f, s) :: after.zip d := by
    rw [hf, List.zip_append hw.length_eq, List.zip_cons_cons]
  have hno : ∀ e ∈ before.zip w, e.1 ≠ f := by
    intro e he hef
    exact hne (hef ▸ (List.of_mem_zip he).1)
  rw [offset_of_entries hzip hno, ← Split.length_flatten_admitted hb hw]
  exact congrArg List.length (code_zip (t := t) hw.length_eq)

end Reading

namespace Template

/-- The in-store layout: seven characters, of which the last is the check digit of the payload
if there is one, five digits of payload, and the check digit of the EAN. -/
structure InstoreLayout (t : Template) (lead : List Field) : Prop where
  fields : t.fields = lead ++ [.embed 5, .eanCheck]
  leading : ∀ f ∈ lead, f.isLeading = true
  width : Split.width lead = leadingLength
  place : .payloadCheck ∈ lead → Split.width (lead.takeWhile (· ≠ .payloadCheck)) = 6

namespace InstoreLayout

variable {t : Template} {lead : List Field} {id text c s p : Text} {r : Reading}

theorem not_mem (h : t.InstoreLayout lead) {f : Field} (hf : f.isLeading = false) : f ∉ lead := by
  intro hm
  rw [h.leading f hm] at hf
  cases hf

theorem isUnbounded (h : t.InstoreLayout lead) : ∀ f ∈ t.fields, f.isUnbounded = false := by
  intro f hf
  rw [h.fields] at hf
  rcases List.mem_append.mp hf with hf | hf
  · exact Field.isUnbounded_of_isLeading (h.leading f hf)
  · rcases List.mem_cons.mp hf with rfl | hf
    · rfl
    · rw [List.mem_singleton.mp hf]
      rfl

theorem payloadCheck_mem (h : t.InstoreLayout lead) :
    .payloadCheck ∈ t.fields ↔ .payloadCheck ∈ lead := by
  rw [h.fields]
  simp

theorem offset_embed (h : t.InstoreLayout lead) (hs : t.split? c = some r) :
    r.offset (.embed 5) = 7 := by
  rw [Reading.offset_of_fields hs h.fields ?_ (h.not_mem rfl), h.width]
  · rfl
  · exact fun f hf => Field.isUnbounded_of_isLeading (h.leading f hf)

theorem offset_payloadCheck (h : t.InstoreLayout lead) (hs : t.split? c = some r)
    (hc : .payloadCheck ∈ t.fields) : r.offset .payloadCheck = 6 := by
  have hmem := h.payloadCheck_mem.mp hc
  obtain ⟨before, after, hsplit, hne⟩ := List.eq_append_cons_of_mem hmem
  have hbefore : lead.takeWhile (· ≠ .payloadCheck) = before := by
    rw [hsplit, List.takeWhile_append_of_pos, List.takeWhile_cons_of_neg (by simp),
      List.append_nil]
    exact fun f hf => decide_eq_true fun heq => hne (heq ▸ hf)
  have hfields : t.fields = before ++ .payloadCheck :: (after ++ [.embed 5, .eanCheck]) := by
    rw [h.fields, hsplit, List.append_assoc, List.cons_append]
  rw [Reading.offset_of_fields hs hfields ?_ hne, ← hbefore, h.place hmem]
  exact fun f hf => h.isUnbounded f (by rw [hfields]; simp [hf])

theorem length_eq (h : t.InstoreLayout lead) (hs : t.split? c = some r) : c.length = 13 := by
  obtain ⟨v, -, hv, rfl⟩ := Template.admitted_of_split? hs
  rw [Split.length_flatten_admitted h.isUnbounded hv, h.fields, Split.width_append, h.width]
  rfl

theorem embeddable (h : t.InstoreLayout lead) (hc : compile id text = .ok t)
    (hs : t.split? c = some r) : Reading.Embeddable t c r 5 := by
  have hfirst : t.fields.find? (fun f => f.integerPayload?.isSome) = some (.embed 5) := by
    rw [h.fields, List.find?_append, List.find?_eq_none.mpr, Option.none_or]
    · rfl
    · intro f hf
      rw [Field.integerPayload?_of_isLeading (h.leading f hf)]
      decide
  have hsettled : Split.Settled Field.isRenewed t.fields := by
    apply Split.settled_of_countP_le_one
    rw [List.countP_eq_zero.mpr]
    · exact Nat.zero_le 1
    · intro f hf
      rw [h.isUnbounded f hf]
      decide
  exact Reading.embeddable_of_compile hc hfirst (by decide) hsettled hs (h.offset_payloadCheck hs)

/-! ## What the fields before the payload ask for -/

/-- A reading whose skipped characters are zeros has the slices that its short code asks for. -/
theorem slice_eq_blank (h : t.InstoreLayout lead) (hc : compile id text = .ok t)
    (hs : t.split? c = some r)
    (hz : ∀ e ∈ r.entries, ∀ k, e.1 = .skip (some k) → ∀ x ∈ e.2, x = '0')
    {e : Field × Text} (he : e ∈ r.entries) (hlead : e.1 ∈ lead) (hne : e.1 ≠ .payloadCheck) :
    e.2 = e.1.blank r.lookupCode p := by
  have hadm := admits_of_split? hs he
  have hl := h.leading e.1 hlead
  obtain ⟨f, z⟩ := e
  cases f with
  | literal text => exact of_decide_eq_true hadm
  | code shape =>
    refine (Reading.lookupCode_of_entries ?_ (List.mem_map_of_mem he)).symm
    intro e' he' shape' hcode
    have hp : e'.1.purpose = .code := by rw [hcode]; rfl
    rw [Reading.eq_of_purpose_eq (fields_of_split? hs ▸ lawful_of_compile hc) he he' hp rfl]
  | skip size =>
    cases size with
    | none => cases hl
    | some k =>
      have hlen : z.length = k := of_decide_eq_true hadm
      show z = List.replicate k '0'
      rw [← hlen]
      exact List.eq_replicate_of_mem (hz _ he k rfl)
  | payloadCheck => exact absurd rfl hne
  | _ => cases hl

/-- The code with a renewed payload begins with what the fields before it ask for. -/
theorem code_checked (h : t.InstoreLayout lead) (hc : compile id text = .ok t)
    (hs : t.split? c = some r)
    (hz : ∀ e ∈ r.entries, ∀ k, e.1 = .skip (some k) → ∀ x ∈ e.2, x = '0')
    (hp : isDigits 5 p = true) :
    ∃ y, (r.checked 5 p).code = lead.flatMap (Field.blank r.lookupCode p) ++ p ++ y := by
  have hemb := h.embeddable hc hs
  have hsplit := (hemb.sameLayout_checked hp).split
  have hslice : ∀ e ∈ (r.checked 5 p).entries, e.1 ∈ lead → e.2 = e.1.blank r.lookupCode p := by
    intro e he hlead
    rcases Reading.Embeddable.mem_checked he with rfl | rfl | ⟨h0, -, hne⟩
    · rfl
    · exact absurd hlead (h.not_mem rfl)
    · exact h.slice_eq_blank hc hs hz h0 hlead hne
  obtain ⟨v, hr, hv, hflat⟩ := admitted_of_split? hsplit
  rw [h.fields] at hv
  obtain ⟨u, w, rfl, hu, hw⟩ := Split.admitted_append hv
  obtain ⟨x, w, -, hw, rfl⟩ := List.forall₂_cons_left_iff.mp hw
  have hzip : (r.checked 5 p).entries = lead.zip u ++ (.embed 5, x) :: [.eanCheck].zip w := by
    rw [hr, h.fields, List.zip_append hu.length_eq, List.zip_cons_cons]
  have hx : x = p := by
    have hm : (Field.embed 5, x) ∈ (r.checked 5 p).entries := by rw [hzip]; simp
    have hl : Grammar.Lawful ((r.checked 5 p).entries.map Prod.fst) :=
      fields_of_split? hsplit ▸ lawful_of_compile hc
    exact congrArg Prod.snd (Reading.eq_of_purpose_eq hl hemb.payload_mem_checked hm rfl rfl)
  have hlead : u = lead.map (Field.blank r.lookupCode p) := by
    have hmap : ∀ e ∈ lead.zip u, e.2 = e.1.blank r.lookupCode p := by
      intro e he
      exact hslice e (by rw [hzip]; simp [he]) (List.of_mem_zip he).1
    calc u = (lead.zip u).map Prod.snd := (List.map_snd_zip hu.length_eq.ge).symm
      _ = (lead.zip u).map (Field.blank r.lookupCode p ∘ Prod.fst) := List.map_congr_left hmap
      _ = lead.map (Field.blank r.lookupCode p) := by
        rw [← List.map_map, List.map_fst_zip hu.length_eq.le]
  refine ⟨w.flatten, ?_⟩
  rw [← hflat, hx, hlead, List.flatten_append, List.flatten_cons, List.flatMap_def,
    List.append_assoc]

theorem length_lookupCode (h : t.InstoreLayout lead) (hc : compile id text = .ok t)
    (hs : t.split? c = some r)
    (hz : ∀ e ∈ r.entries, ∀ k, e.1 = .skip (some k) → ∀ x ∈ e.2, x = '0') {shape : CodeShape}
    (hshape : .code shape ∈ t.fields) : r.lookupCode.length = shape.width := by
  have hlead : .code shape ∈ lead := by
    rw [h.fields] at hshape
    simpa using hshape
  obtain ⟨e, he, hcode⟩ := List.mem_map.mp ((fields_of_split? hs).symm ▸ hshape)
  have hslice : e.2 = r.lookupCode := by
    rw [h.slice_eq_blank (p := []) hc hs hz he (hcode ▸ hlead) (by rw [hcode]; simp), hcode]
    rfl
  have hadm := admits_of_split? hs he
  rw [hcode, hslice] at hadm
  exact Field.length_of_admits (h.isUnbounded _ hshape) hadm

/-! ## The code that the builders make -/

theorem length_blanks (h : t.InstoreLayout lead)
    (hw : ∀ shape, .code shape ∈ t.fields → s.length = shape.width) :
    (lead.flatMap (Field.blank s p)).length = leadingLength := by
  rw [List.flatMap_def, length_lead, h.width]
  intro shape hm
  exact hw shape (by rw [h.fields]; simp [hm])

/-- The assembly begins with what the fields before the payload ask for. -/
theorem take_assembly (h : t.InstoreLayout lead)
    (hw : ∀ shape, .code shape ∈ t.fields → s.length = shape.width) (hp : isDigits 5 p = true) :
    (t.assembly s p).take leadingLength = lead.flatMap (Field.blank s p) := by
  have hpart : ∀ f ∈ lead, (layoutPart s p f).toOption.getD [] = f.blank s p := by
    intro f hf
    have hl := h.leading f hf
    cases f with
    | literal text => rfl
    | code shape => rfl
    | skip size =>
      cases size with
      | none => cases hl
      | some k =>
        have hk : k ≤ leadingLength := by
          rw [← h.width]
          exact Split.width_le_width hf
        show zeros k = List.replicate k '0'
        rw [zeros, Nat.min_eq_left hk]
    | payloadCheck =>
      obtain ⟨d, hd⟩ := Ean.exists_payloadCheck hp
      show ((Ean.payloadCheck p).map Text.ofNat).toOption.getD [] = payloadDigit p
      rw [Ean.payloadDigit_eq hd, hd]
      rfl
    | _ => cases hl
  rw [assembly, h.fields, List.flatMap_append, List.flatMap_def, List.map_congr_left hpart,
    ← List.flatMap_def, List.take_left' (h.length_blanks hw)]

/-- Before the check digit of the payload nothing is renewed. -/
theorem take_checked (h : t.InstoreLayout lead) (hc : compile id text = .ok t)
    (hs : t.split? c = some r) (hcheck : .payloadCheck ∈ t.fields) (hp : isDigits 5 p = true) :
    (r.checked 5 p).code.take leadingLength = c.take 6 ++ payloadDigit p := by
  have hemb := h.embeddable hc hs
  have hlen := h.length_eq hs
  obtain ⟨before, x, after, he, hb, ha, -⟩ :=
    Reading.exists_slice hs (lawful_of_compile hc) hemb.embed_mem rfl
  have hput : (r.put (.embed 5) p).code.take 6 = c.take 6 := by
    rw [Reading.code_put he hb ha, h.offset_embed hs, code_of_split? hs, List.append_assoc,
      List.take_append_of_le_length (by rw [List.length_take]; omega), List.take_take]
    rfl
  have hseven : (c.take 6 ++ payloadDigit p).length = leadingLength := by
    rw [List.length_append, List.length_take, hlen, (isDigits_iff.mp (isDigits_payloadDigit p)).1]
    rfl
  rw [hemb.code_checked hcheck hp, hput, List.take_left' hseven]

end InstoreLayout

end Template

namespace Registry

open Template (fiveDigits leadingLength InstoreLayout)

variable {registry : Registry} {project id text c : Text} {t : Template} {lead : List Field}
  {r : Reading} {data : Int}

/-- **The builders of in-store codes agree.** -/
theorem builders_agree (ht : registry.template? project id = some t)
    (hc : Template.compile id text = .ok t) (h : t.InstoreLayout lead)
    (hread : t.read c = .ok (.accepted r))
    (hz : ∀ e ∈ r.entries, ∀ k, e.1 = .skip (some k) → ∀ x ∈ e.2, x = '0')
    (h0 : 0 ≤ data) (h5 : data ≤ 99999) :
    ∃ code : Ean.Code,
      (registry.synthesize (.text id) (.text r.lookupCode) data (some project)).outcome =
        .ok (some code.text) ∧
      r.embed data = .ok (some code.text) ∧
      (.payloadCheck ∈ t.fields → data < 99999 → Ean.embedPayload c data = .ok (some code)) := by
  obtain ⟨m, rfl⟩ := Int.eq_ofNat_of_zero_le h0
  have hm : m < 10 ^ 5 := by omega
  obtain ⟨hs, hsound⟩ := Template.read_eq_accepted_iff.mp hread
  have hemb := h.embeddable hc hs
  have hp : isDigits 5 (fiveDigits m) = true := isDigits_padZeros (by decide) hm
  have hw : ∀ shape, .code shape ∈ t.fields → r.lookupCode.length = shape.width :=
    fun _ hshape => h.length_lookupCode hc hs hz hshape
  have hean : .eanCheck ∈ t.fields := by rw [h.fields]; simp
  -- all three complete the same twelve characters
  obtain ⟨y, hchecked⟩ := h.code_checked hc hs hz hp
  have htwelve : (r.checked 5 (fiveDigits m)).code.take 12 =
      lead.flatMap (Field.blank r.lookupCode (fiveDigits m)) ++ fiveDigits m := by
    rw [hchecked, List.take_left']
    rw [List.length_append, h.length_blanks hw, (isDigits_iff.mp hp).1]
    rfl
  have hdigits := hemb.isDigits_checked hsound hean (by rw [h.length_eq hs]; decide) hp
  refine ⟨⟨Ean.completed ((r.checked 5 (fiveDigits m)).code.take 12), .ean13⟩, ?_, ?_, ?_⟩
  · have hbody : (t.assembly r.lookupCode (fiveDigits m)).take leadingLength ++ fiveDigits m =
        (r.checked 5 (fiveDigits m)).code.take 12 := by
      rw [h.take_assembly hw hp, htwelve]
    rw [outcome_synthesize ht, Template.synthesize_of_isDigits hm hw hemb.embed_mem
      (by rw [hbody]; exact hdigits), hbody]
    rfl
  · rw [hemb.embed_eq_renewed hsound (fun _ => h.length_eq hs) hm,
      hemb.code_renewed hean (h.length_eq hs) hp]
  · intro hcheck hlt
    obtain ⟨d, hd⟩ := Ean.exists_payloadCheck hp
    have hbody : c.take 6 ++ Text.ofNat d ++ fiveDigits m =
        (r.checked 5 (fiveDigits m)).code.take 12 := by
      rw [← Ean.payloadDigit_eq hd, ← h.take_checked hc hs hcheck hp, htwelve, hchecked,
        List.append_assoc, List.take_left' (h.length_blanks hw)]
    have hfits : ¬ (decide ((m : Int) < 0) || decide (99999 ≤ (m : Int))) = true := by
      simp only [Bool.or_eq_true, decide_eq_true_eq, not_or]
      omega
    rw [Ean.embedPayload, if_neg hfits, Int.toNat_natCast]
    show Ean.payloadCheck (fiveDigits m) >>= _ = _
    rw [hd, Sequence.ok_bind, hbody, Ean.ean13?_of_twelve hdigits]
    rfl

/-- A lead with all kinds of fields: text, a zero, the short code and a check digit. -/
theorem builders_agree_lead :
    ∃ history t r,
      (run history).template? ['p'] ['t'] = some t ∧
      t.read "2057787007423".toList = .ok (.accepted r) ∧
      ∃ code : Ean.Code,
        ((run history).synthesize (.text ['t']) (.text r.lookupCode) 12345 (some ['p'])).outcome =
          .ok (some code.text) ∧
        r.embed 12345 = .ok (some code.text) ∧
        Ean.embedPayload "2057787007423".toList 12345 = .ok (some code) := by
  let history : List Operation :=
    [.register ['p'] ⟨['t'], Text.withBraces "2[_:1][code:4][i][embed:5][ec]"⟩]
  let lead : List Field :=
    [.literal ['2'], .skip (some 1), .code { kind := .fixed, size := 4 }, .payloadCheck]
  let t : Template := ⟨['t'], Text.withBraces "2[_:1][code:4][i][embed:5][ec]",
    lead ++ [.embed 5, .eanCheck]⟩
  let r : Reading := ⟨t, [(.literal ['2'], ['2']), (.skip (some 1), ['0']),
    (.code { kind := .fixed, size := 4 }, "5778".toList), (.payloadCheck, ['7']),
    (.embed 5, "00742".toList), (.eanCheck, ['3'])]⟩
  have hc : Template.compile ['t']
      (Text.withBraces "2[_:1][code:4][i][embed:5][ec]") = .ok t := by cbv
  have ht : (run history).template? ['p'] ['t'] = some t := template?_run_register hc
  have hread : t.read "2057787007423".toList = .ok (.accepted r) := by cbv
  have hlayout : t.InstoreLayout lead := ⟨rfl, by decide, by decide, by decide⟩
  have hz : ∀ e ∈ r.entries, ∀ k, e.1 = .skip (some k) → ∀ x ∈ e.2, x = '0' := by
    simp [r]
  have hcheck : .payloadCheck ∈ t.fields := by simp [t, lead]
  have hagree := builders_agree ht hc hlayout hread hz (by decide : (0 : Int) ≤ 12345) (by decide)
  obtain ⟨code, hbuilt, hembed, hfixed⟩ := hagree
  exact ⟨history, t, r, ht, hread, code, hbuilt, hembed, hfixed hcheck (by decide)⟩

end Registry

end Barcode

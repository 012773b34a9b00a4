import Barcode.Proofs.Embedding.Failure
import Barcode.Proofs.Template.Detection

/-!
# What is extracted determines the code

Where a template passes nothing over, every slice of a code that is read can be had back from what
is extracted. A literal is its own slice, the code field has the lookup code, a run of digits is
the only one of its width that denotes its number, and the check digits belong to the rest. So no
two codes give the same lookup code, payloads and price.
-/

namespace Barcode

open Sequence
open Grammar (Lawful)
open Text (isDigits isDigits_iff)
open Text.Numeral (digitLimit)

namespace Field

/-- What one of an integer payload counts for. -/
def unit : Field → Nat
  | .embedHundreds _ => 100
  | _ => 1

theorem unit_pos (f : Field) : 0 < f.unit := by
  cases f <;> simp [unit]

theorem shape_of_integerPayload? {f : Field} {n : Nat} (hf : f.integerPayload? = some n) :
    Pattern.shape f = .digits n := by
  cases f <;> cases hf <;> rfl

/-- A run of digits is as long as the lengths that it is written with say. -/
theorem digits_pos {f : Field} {n : Nat} (hf : Pattern.shape f = .digits n)
    (hsizes : ∀ m ∈ f.sizes, 0 < m) : 0 < n := by
  obtain ⟨rfl, hp⟩ := Pattern.shape_eq_digits_iff.mp hf
  cases f with
  | embedDecimal i j => exact Nat.add_pos_left (hsizes i (by simp [sizes])) j
  | embed m | embedHundreds m | price m => exact hsizes m (by simp [sizes])
  | _ => simp [purpose] at hp

end Field

namespace Reading

variable {r : Reading} {e : Field × Text}

/-- The entry of the only field of a kind has none of that kind before it. -/
theorem exists_only {p : Field → Bool} (hone : (r.entries.map Prod.fst).countP p ≤ 1)
    (he : e ∈ r.entries) (hp : p e.1 = true) :
    ∃ before after, r.entries = before ++ e :: after ∧ ∀ x ∈ before, p x.1 = false := by
  obtain ⟨before, after, hsplit⟩ := List.append_of_mem he
  refine ⟨before, after, hsplit, fun x hx => ?_⟩
  rw [hsplit, List.map_append, List.map_cons, List.countP_append, List.countP_cons, if_pos hp]
    at hone
  have hzero : (before.map Prod.fst).countP p = 0 := by omega
  exact Bool.eq_false_iff.mpr (List.countP_eq_zero.mp hzero x.1 (List.mem_map_of_mem hx))

/-- What is looked for in the only field of a kind is found in its entry. -/
theorem findSome?_of_mem {β : Type} {g : Field × Text → Option β} {b : β} {p : Field → Bool}
    (hone : (r.entries.map Prod.fst).countP p ≤ 1) (hg : ∀ x, p x.1 = false → g x = none)
    (he : e ∈ r.entries) (hb : g e = some b) : r.entries.findSome? g = some b := by
  have hp : p e.1 = true := by
    by_contra hne
    rw [hg e (Bool.eq_false_iff.mpr hne)] at hb
    cases hb
  obtain ⟨before, after, hsplit, hbefore⟩ := exists_only hone he hp
  have hnone : ∀ x ∈ before, g x = none := fun x hx => hg x (hbefore x hx)
  rw [hsplit, List.findSome?_append, List.findSome?_eq_none_iff.mpr hnone, Option.none_or,
    List.findSome?_cons, hb]

theorem exists_only_payload {f : Field} {n : Nat} {s : Text}
    (hone : (r.entries.map Prod.fst).countP Field.isIntegerPayload ≤ 1)
    (he : (f, s) ∈ r.entries) (hf : f.integerPayload? = some n) :
    ∃ before after, r.entries = before ++ (f, s) :: after ∧
      ∀ x ∈ before, x.1.integerPayload? = none := by
  have hp : f.isIntegerPayload = true := by rw [Field.isIntegerPayload, hf]; rfl
  obtain ⟨before, after, hsplit, hbefore⟩ := exists_only hone he hp
  refine ⟨before, after, hsplit, fun x hx => ?_⟩
  simpa [Field.isIntegerPayload] using hbefore x hx

/-- Entries of the same fields are the same if their slices are. -/
theorem entries_eq_of_slices {l l' : List (Field × Text)}
    (hfields : l.map Prod.fst = l'.map Prod.fst)
    (h : ∀ f s s', (f, s) ∈ l → (f, s') ∈ l' → s = s') : l = l' := by
  induction l generalizing l' with
  | nil => exact (List.map_eq_nil_iff.mp hfields.symm).symm
  | cons e l ih =>
    obtain ⟨e', l', rfl, hhead, htail⟩ := List.map_eq_cons_iff.mp hfields.symm
    obtain ⟨f, s⟩ := e
    obtain ⟨f', s'⟩ := e'
    obtain rfl : f' = f := hhead
    rw [h f' s s' List.mem_cons_self List.mem_cons_self, ih htail.symm fun g x x' hx hx' =>
      h g x x' (List.mem_cons_of_mem _ hx) (List.mem_cons_of_mem _ hx')]

/-- The same is extracted from both readings. -/
structure Agrees (r r' : Reading) : Prop where
  lookupCode : r.lookupCode = r'.lookupCode
  embeddedData : r.embeddedData = r'.embeddedData
  embeddedDecimal : r.embeddedDecimal = r'.embeddedDecimal
  referencePrice : r.referencePrice = r'.referencePrice

end Reading

namespace Template

variable {id text : Text} {t : Template}

/-! ## What is extracted from a field -/

section Extracted

variable {c : Text} {r : Reading} {f : Field} {s : Text} {n : Nat}
  (h : compile id text = .ok t) (hs : t.split? c = some r)
include h hs

theorem lawful_entries : Lawful (r.entries.map Prod.fst) := by
  rw [fields_of_split? hs]
  exact lawful_of_compile h

omit h in
theorem isDigits_of_mem (he : (f, s) ∈ r.entries) (hf : Pattern.shape f = .digits n) :
    isDigits n s = true := by
  have htakes := Pattern.takes_shape_iff.mpr (admits_of_split? hs he)
  rw [hf] at htakes
  exact isDigits_iff.mpr htakes

/-- A run of digits is read as the number that it denotes. -/
theorem read_of_mem (he : (f, s) ∈ r.entries) (hf : Pattern.shape f = .digits n)
    (hn : n ≤ digitLimit) : Text.Numeral.read s = .ok (Text.toNat s) := by
  have hm : f ∈ t.fields := fields_of_split? hs ▸ List.mem_map_of_mem he
  have hpos := Field.digits_pos hf (sizes_pos_of_compile h f hm)
  exact Text.Numeral.read_isDigits hpos hn (isDigits_of_mem hs he hf)

theorem lookupCode_of_mem {shape : CodeShape} (he : (.code shape, s) ∈ r.entries) :
    r.lookupCode = s := by
  have hall : ∀ x ∈ r.entries, ∀ shape', x.1 = .code shape' → x.2 = s := by
    intro x hx shape' hcode
    have hp : x.1.purpose = Field.purpose (.code shape) := by rw [hcode]; rfl
    rw [Reading.eq_of_purpose_eq (lawful_entries h hs) he hx hp rfl]
  have hc : .code shape ∈ r.entries.map Prod.fst := List.mem_map_of_mem he
  exact Reading.lookupCode_of_entries hall hc

theorem referencePrice_of_mem (he : (.price n, s) ∈ r.entries) (hn : n ≤ digitLimit) :
    r.referencePrice = .ok (some (Text.toNat s : Nat)) := by
  unfold Reading.referencePrice
  generalize hx : List.findSome? _ r.entries = found
  have hfound : found = some s := by
    have hone := (lawful_entries h hs).single .price rfl
    refine hx.symm.trans (Reading.findSome?_of_mem hone ?_ he rfl)
    rintro ⟨f, x⟩ hf
    cases f with
    | price m => cases hf
    | _ => rfl
  rw [hfound]
  simp only [read_of_mem h hs he rfl hn]
  rfl

theorem embeddedDecimal_of_mem {i j : Nat} (he : (.embedDecimal i j, s) ∈ r.entries)
    (hn : i + j ≤ digitLimit) : r.embeddedDecimal = .ok (some ⟨i, j, (Text.toNat s : Nat)⟩) := by
  unfold Reading.embeddedDecimal
  generalize hx : List.findSome? _ r.entries = found
  have hfound : found = some (i, j, s) := by
    have hone := (lawful_entries h hs).single .embed rfl
    refine hx.symm.trans (Reading.findSome?_of_mem hone ?_ he rfl)
    rintro ⟨f, x⟩ hf
    cases f with
    | embedDecimal k l => cases hf
    | _ => rfl
  rw [hfound]
  simp only [read_of_mem h hs he rfl hn]
  rfl

variable (hone : t.fields.countP Field.isIntegerPayload ≤ 1) (he : (f, s) ∈ r.entries)
include hone he

theorem embeddedData_of_mem (hf : f.integerPayload? = some n) (hn : n ≤ digitLimit) :
    r.embeddedData = .ok (some (f.unit * Text.toNat s : Nat)) := by
  rw [← fields_of_split? hs] at hone
  obtain ⟨before, after, hsplit, hbefore⟩ := Reading.exists_only_payload hone he hf
  have hread := read_of_mem h hs he (Field.shape_of_integerPayload? hf) hn
  unfold Reading.embeddedData
  rw [Reading.find?_integerPayload hsplit hbefore hf]
  cases f with
  | embedHundreds m =>
    simp only [hread, Field.unit, Nat.mul_comm 100]
    rfl
  | embed m =>
    simp only [hread, Field.unit, Nat.one_mul]
    rfl
  | _ => cases hf

omit h in
theorem checkedPayload?_of_mem (hf : f.integerPayload? = some 5) : r.checkedPayload? = some s := by
  rw [← fields_of_split? hs] at hone
  obtain ⟨before, after, hsplit, hbefore⟩ := Reading.exists_only_payload hone he hf
  exact Reading.checkedPayload_of_entries hsplit hbefore hf

end Extracted

/-! ## Two codes that are read -/

/-- A template that passes nothing over and extracts all that it reads: it skips no characters, its
integer payload is the only one, and its runs of digits are not too long to be read. -/
structure Retains (t : Template) : Prop where
  skip : ∀ size, .skip size ∉ t.fields
  payload : t.fields.countP Field.isIntegerPayload ≤ 1
  digits : ∀ f ∈ t.fields, ∀ n, Pattern.shape f = .digits n → n ≤ digitLimit

section Slices

variable {c c' : Text} {r r' : Reading} {f : Field} {s s' : Text} {n : Nat}

/-- Slices of one run of digits are the same if they denote the same number. -/
theorem slice_eq_of_toNat (hs : t.split? c = some r) (hs' : t.split? c' = some r')
    (he : (f, s) ∈ r.entries) (he' : (f, s') ∈ r'.entries) (hf : Pattern.shape f = .digits n)
    (hv : Text.toNat s = Text.toNat s') : s = s' :=
  Text.eq_of_isDigits (isDigits_of_mem hs he hf) (isDigits_of_mem hs' he' hf) hv

theorem exists_slice (hs : t.split? c = some r) (hf : f ∈ t.fields) : ∃ s, (f, s) ∈ r.entries := by
  rw [← fields_of_split? hs] at hf
  obtain ⟨⟨f', s⟩, he, rfl⟩ := List.mem_map.mp hf
  exact ⟨s, he⟩

variable (h : compile id text = .ok t) (hk : t.Retains)
  (hr : t.read c = .ok (.accepted r)) (hr' : t.read c' = .ok (.accepted r')) (ha : r.Agrees r')
include h hk hr hr' ha

theorem payload_slice_eq (he : (f, s) ∈ r.entries) (he' : (f, s') ∈ r'.entries)
    (hf : f.integerPayload? = some n) : s = s' := by
  obtain ⟨hs, -⟩ := read_eq_accepted_iff.mp hr
  obtain ⟨hs', -⟩ := read_eq_accepted_iff.mp hr'
  have hm : f ∈ t.fields := fields_of_split? hs ▸ List.mem_map_of_mem he
  have hn := hk.digits f hm n (Field.shape_of_integerPayload? hf)
  have hdata := ha.embeddedData
  rw [embeddedData_of_mem h hs hk.payload he hf hn,
    embeddedData_of_mem h hs' hk.payload he' hf hn] at hdata
  have hmul : f.unit * Text.toNat s = f.unit * Text.toNat s' := by
    simpa only [Except.ok.injEq, Option.some.injEq, Int.natCast_inj] using hdata
  exact slice_eq_of_toNat hs hs' he he' (Field.shape_of_integerPayload? hf)
    (Nat.eq_of_mul_eq_mul_left f.unit_pos hmul)

/-- The check digit of the payload belongs to the payload, which is the same. -/
theorem payloadCheck_slice_eq (he : (.payloadCheck, s) ∈ r.entries)
    (he' : (.payloadCheck, s') ∈ r'.entries) : s = s' := by
  obtain ⟨hs, hsound⟩ := read_eq_accepted_iff.mp hr
  obtain ⟨hs', hsound'⟩ := read_eq_accepted_iff.mp hr'
  have hc : .payloadCheck ∈ t.fields := fields_of_split? hs ▸ List.mem_map_of_mem he
  obtain ⟨f, hf, hfive⟩ := List.exists_of_findSome?_eq_some ((lawful_of_compile h).payload hc)
  obtain ⟨x, hx⟩ := exists_slice hs hf
  obtain ⟨x', hx'⟩ := exists_slice hs' hf
  obtain rfl : x = x' := payload_slice_eq h hk hr hr' ha hx hx' hfive
  obtain ⟨p, d, hp, hd, rfl⟩ := Reading.flaw?_payloadCheck.mp (hsound _ he)
  obtain ⟨p', d', hp', hd', rfl⟩ := Reading.flaw?_payloadCheck.mp (hsound' _ he')
  rw [checkedPayload?_of_mem hs hk.payload hx hfive] at hp
  rw [checkedPayload?_of_mem hs' hk.payload hx' hfive] at hp'
  obtain rfl := Option.some.inj hp
  obtain rfl := Option.some.inj hp'
  rw [Except.ok.inj (hd.symm.trans hd')]

/-- Every slice but the check digit of the EAN is known from what is extracted. -/
theorem slice_eq (he : (f, s) ∈ r.entries) (he' : (f, s') ∈ r'.entries) (hf : f ≠ .eanCheck) :
    s = s' := by
  obtain ⟨hs, -⟩ := read_eq_accepted_iff.mp hr
  obtain ⟨hs', -⟩ := read_eq_accepted_iff.mp hr'
  have hm : f ∈ t.fields := fields_of_split? hs ▸ List.mem_map_of_mem he
  cases f with
  | literal u =>
    have hu : s = u := of_decide_eq_true (admits_of_split? hs he)
    have hu' : s' = u := of_decide_eq_true (admits_of_split? hs' he')
    rw [hu, hu']
  | code shape =>
    rw [← lookupCode_of_mem h hs he, ← lookupCode_of_mem h hs' he', ha.lookupCode]
  | embed m | embedHundreds m => exact payload_slice_eq h hk hr hr' ha he he' rfl
  | embedDecimal i j =>
    have hn := hk.digits _ hm _ rfl
    have hdecimal := ha.embeddedDecimal
    rw [embeddedDecimal_of_mem h hs he hn, embeddedDecimal_of_mem h hs' he' hn] at hdecimal
    exact slice_eq_of_toNat hs hs' he he' rfl (by simpa using hdecimal)
  | price m =>
    have hn := hk.digits _ hm _ rfl
    have hprice := ha.referencePrice
    rw [referencePrice_of_mem h hs he hn, referencePrice_of_mem h hs' he' hn] at hprice
    exact slice_eq_of_toNat hs hs' he he' rfl (by simpa using hprice)
  | skip size => exact absurd hm (hk.skip size)
  | payloadCheck => exact payloadCheck_slice_eq h hk hr hr' ha he he'
  | eanCheck => exact absurd rfl hf

end Slices

/-- **What is extracted determines the code.** Of two codes that a template reads without passing
anything over, the lookup codes, the payloads or the prices are different, unless the codes are the
same. -/
theorem code_eq_of_agrees {c c' : Text} {r r' : Reading} (h : compile id text = .ok t)
    (hk : t.Retains) (hr : t.read c = .ok (.accepted r)) (hr' : t.read c' = .ok (.accepted r'))
    (hlength : .eanCheck ∈ t.fields →
      ∀ u ∈ [c, c'], u.length = 8 ∨ u.length = 13 ∨ u.length = 14)
    (ha : r.Agrees r') : c = c' := by
  obtain ⟨hs, -⟩ := read_eq_accepted_iff.mp hr
  obtain ⟨hs', -⟩ := read_eq_accepted_iff.mp hr'
  have hfields : r.entries.map Prod.fst = r'.entries.map Prod.fst := by
    rw [fields_of_split? hs, fields_of_split? hs']
  rw [← code_of_split? hs, ← code_of_split? hs', Reading.code, Reading.code]
  by_cases hc : .eanCheck ∈ t.fields
  · have hl := lawful_of_compile h
    obtain ⟨before, d, hentries, hb, -, -⟩ := entries_of_eanCheck hl hc hs
    obtain ⟨before', d', hentries', -, -, -⟩ := entries_of_eanCheck hl hc hs'
    rw [hentries, hentries', List.map_append, List.map_append] at hfields
    have hsame : before = before' := by
      refine Reading.entries_eq_of_slices (List.append_cancel_right hfields) fun f s s' he he' => ?_
      exact slice_eq h hk hr hr' ha (by rw [hentries]; exact List.mem_append_left _ he)
        (by rw [hentries']; exact List.mem_append_left _ he') (hb _ he)
    -- what stands before the check digit is the same, so the check digit is
    have hcomplete := complete_of_length h hc (hlength hc c (by simp)) hr
    have hcomplete' := complete_of_length h hc (hlength hc c' (by simp)) hr'
    rw [← code_of_split? hs, Reading.code, hentries, List.flatMap_append] at hcomplete
    rw [← code_of_split? hs', Reading.code, hentries', List.flatMap_append, ← hsame] at hcomplete'
    have hdigit : d' = d := by
      by_contra hne
      exact hcomplete.not_of_replaced hne hcomplete'
    rw [hentries, hentries', hsame, hdigit]
  · rw [Reading.entries_eq_of_slices hfields fun f s s' he he' => ?_]
    refine slice_eq h hk hr hr' ha he he' fun hf => hc ?_
    rw [← hf, ← fields_of_split? hs]
    exact List.mem_map_of_mem he

/-- A lookup code of any length, a price, and hundreds with their check digit. -/
theorem code_eq_of_agrees_elastic :
    ∃ t r, compile [] (Text.withBraces "[code:*][price:2][embed100:5][i][ec]") =
        .ok t ∧
      t.Retains ∧ t.read "1234050007439".toList = .ok (.accepted r) ∧
      ∀ c r', t.read c = .ok (.accepted r') → c.length = 13 → r.Agrees r' →
        "1234050007439".toList = c := by
  let t : Template :=
    ⟨[], Text.withBraces "[code:*][price:2][embed100:5][i][ec]",
      [.code { kind := .any }, .price 2, .embedHundreds 5, .payloadCheck, .eanCheck]⟩
  let r : Reading := ⟨t, [(.code { kind := .any }, "1234".toList), (.price 2, "05".toList),
    (.embedHundreds 5, "00074".toList), (.payloadCheck, "3".toList), (.eanCheck, "9".toList)]⟩
  have hcompile : compile [] t.text = .ok t := by cbv
  have hread : t.read "1234050007439".toList = .ok (.accepted r) := by cbv
  have hretains : t.Retains := by
    refine ⟨fun size => by simp [t], by decide, fun f hf n hn => ?_⟩
    simp only [t, List.mem_cons, List.not_mem_nil, or_false] at hf
    rcases hf with rfl | rfl | rfl | rfl | rfl <;> cases hn <;> decide
  refine ⟨t, r, hcompile, hretains, hread, fun c r' hr' hl ha => ?_⟩
  refine code_eq_of_agrees hcompile hretains hread hr' (fun _ u hu => ?_) ha
  rcases List.mem_pair.mp hu with rfl | rfl
  · exact Or.inr (Or.inl rfl)
  · exact Or.inr (Or.inl hl)

end Template

end Barcode

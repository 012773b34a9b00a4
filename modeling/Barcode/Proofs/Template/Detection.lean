import Barcode.Proofs.Ean.Parsing
import Barcode.Proofs.Template.Feasible

/-!
# Errors that a template detects

A template whose fields all have a given width takes every slice from fixed places of the code.
An article number with one wrong character is none, so two that are read differ in two places. A
payload with one wrong digit has another check digit, and the check digit of the EAN stands in a
place of its own, so no value of it makes up for the error.
-/

namespace Barcode

open Grammar (Lawful)
open Text (isDigits isDigits_iff isNumeric_iff)

namespace Text

/-- The number of places at which two texts of one length differ. -/
def distance (s t : Text) : Nat := (s.zip t).countP fun place => place.1 ≠ place.2

variable {s t : Text}

theorem distance_cons (a b : Char) (s t : Text) :
    distance (a :: s) (b :: t) = distance s t + if a ≠ b then 1 else 0 := by
  rw [distance, List.zip_cons_cons, List.countP_cons, distance]
  simp only [decide_eq_true_eq]

theorem distance_self (s : Text) : distance s s = 0 := by
  induction s with
  | nil => rfl
  | cons a s ih => rw [distance_cons, ih, if_neg (not_not.mpr rfl)]

theorem eq_of_distance_eq_zero (hl : s.length = t.length) (h : distance s t = 0) : s = t := by
  induction s generalizing t with
  | nil => exact (List.length_eq_zero_iff.mp hl.symm).symm
  | cons a s ih =>
    obtain ⟨b, t, rfl⟩ := List.exists_cons_of_length_eq_add_one hl.symm
    rw [distance_cons] at h
    by_cases hab : a = b
    · rw [hab, ih (Nat.succ.inj hl) (Nat.eq_zero_of_add_eq_zero_right h)]
    · rw [if_pos hab] at h
      cases h

/-- Texts that differ in one place are one text with one character replaced. -/
theorem exists_replaced (hl : s.length = t.length) (h : distance s t = 1) :
    ∃ before a b after, s = before ++ a :: after ∧ t = before ++ b :: after ∧ b ≠ a := by
  induction s generalizing t with
  | nil => cases h
  | cons a s ih =>
    obtain ⟨b, t, rfl⟩ := List.exists_cons_of_length_eq_add_one hl.symm
    rw [distance_cons] at h
    by_cases hab : a = b
    · rw [if_neg (not_not.mpr hab)] at h
      obtain ⟨before, x, y, after, rfl, rfl, hne⟩ := ih (Nat.succ.inj hl) h
      exact ⟨a :: before, x, y, after, rfl, by rw [hab]; rfl, hne⟩
    · rw [if_pos hab] at h
      obtain rfl := eq_of_distance_eq_zero (Nat.succ.inj hl) (Nat.succ.inj h)
      exact ⟨[], a, b, s, rfl, rfl, fun heq => hab heq.symm⟩

theorem distance_eq_one {i : Nat} (hl : s.length = t.length) (hi : t[i]? ≠ s[i]?)
    (hagree : ∀ j ≠ i, t[j]? = s[j]?) : distance s t = 1 := by
  induction s generalizing t i with
  | nil =>
    obtain rfl := List.length_eq_zero_iff.mp hl.symm
    exact absurd rfl hi
  | cons a s ih =>
    obtain ⟨b, t, rfl⟩ := List.exists_cons_of_length_eq_add_one hl.symm
    rw [distance_cons]
    cases i with
    | zero =>
      have hrest : t = s := List.ext_getElem? fun j => hagree (j + 1) (Nat.succ_ne_zero j)
      have hab : a ≠ b := fun heq => hi (congrArg some heq.symm)
      rw [hrest, distance_self, if_pos hab]
    | succ i =>
      have hab : b = a := Option.some.inj (hagree 0 (Nat.succ_ne_zero i).symm)
      have hrest : distance s t = 1 :=
        ih (Nat.succ.inj hl) hi fun j hj => hagree (j + 1) fun heq => hj (Nat.succ.inj heq)
      rw [hrest, if_neg (not_not.mpr hab.symm)]

end Text

/-! ## Article numbers -/

namespace Ean

variable {c before after : Text} {a b : Char}

/-- An article number with one character replaced is none. -/
theorem Complete.not_of_replaced (h : Complete (before ++ a :: after)) (hne : b ≠ a) :
    ¬ Complete (before ++ b :: after) := by
  intro h'
  have ha : a.isDigit = true := (isNumeric_iff.mp h.numeric).2 a (by simp)
  have hb : b.isDigit = true := (isNumeric_iff.mp h'.numeric).2 b (by simp)
  obtain ⟨w, rest, hw, hplace⟩ :=
    balance_place (before.map Text.digitValue) (after.map Text.digitValue)
  obtain ⟨-, -, hsum⟩ := complete_iff_balance.mp h
  obtain ⟨-, -, hsum'⟩ := complete_iff_balance.mp h'
  rw [List.map_append, List.map_cons, hplace] at hsum hsum'
  have hvalue := (digitValue_inj hb ha).not.mpr hne
  have hlta := Text.digitValue_lt ha
  have hltb := Text.digitValue_lt hb
  rcases hw with rfl | rfl <;> omega

end Ean

/-! ## The places of a field -/

namespace Field

def isIntegerPayload (f : Field) : Bool := f.integerPayload?.isSome

def isPayloadCheck (f : Field) : Bool := f = .payloadCheck

end Field

/-- The slice of the first field with the property. -/
def Reading.slice? (r : Reading) (p : Field → Bool) : Option Text :=
  (r.entries.find? fun e => p e.1).map Prod.snd

namespace Split

/-- The place `k` of a code belongs to the first field with the property. -/
def Covers (fields : List Field) (p : Field → Bool) (k : Nat) : Prop :=
  ∃ before f after, fields = before ++ f :: after ∧ (∀ g ∈ before, p g = false) ∧ p f = true ∧
    width before ≤ k ∧ k < width before + f.width

variable {fields : List Field} {p q : Field → Bool} {k : Nat}

/-- Of two different fields one ends before the other begins. -/
theorem width_add_le_of_ne {before after before' after' : List Field} {f f' : Field}
    (h : before ++ f :: after = before' ++ f' :: after') (hne : f ≠ f') :
    width before + f.width ≤ width before' ∨ width before' + f'.width ≤ width before := by
  induction before generalizing before' with
  | nil =>
    cases before' with
    | nil => exact absurd (List.cons.inj h).1 hne
    | cons g before' =>
      obtain ⟨rfl, -⟩ := List.cons.inj h
      left
      rw [width_cons, show width [] = 0 from rfl]
      omega
  | cons g before ih =>
    cases before' with
    | nil =>
      obtain ⟨rfl, -⟩ := List.cons.inj h
      right
      rw [width_cons, show width [] = 0 from rfl]
      omega
    | cons g' before' =>
      obtain ⟨rfl, hrest⟩ := List.cons.inj h
      have hwidth := ih hrest
      rw [width_cons, width_cons]
      omega

/-- No place belongs to two fields. -/
theorem Covers.disjoint (hpq : ∀ f, p f = true → q f = false) (hk : Covers fields p k) :
    ¬ Covers fields q k := by
  intro hk'
  obtain ⟨before, f, after, hf, -, hp, hl, hu⟩ := hk
  obtain ⟨before', f', after', hf', -, hq, hl', hu'⟩ := hk'
  have hne : f ≠ f' := by
    intro heq
    rw [← heq, hpq f hp] at hq
    cases hq
  have hwidth := width_add_le_of_ne (hf.symm.trans hf') hne
  omega

/-- Behind the places of a field stands the last field. -/
theorem Covers.add_width_lt {g : Field} (hk : Covers fields p k)
    (hlast : fields.getLast? = some g) (hg : p g = false) : k + g.width < width fields := by
  obtain ⟨before, f, after, rfl, -, hp, -, hu⟩ := hk
  have hne : after ≠ [] := by
    rintro rfl
    rw [List.getLast?_concat] at hlast
    rw [Option.some.inj hlast, hg] at hp
    cases hp
  have hmem : g ∈ after := by
    rw [List.getLast?_append_of_ne_nil _ (List.cons_ne_nil f after),
      List.getLast?_cons_of_ne_nil hne] at hlast
    exact List.mem_of_getLast? hlast
  have hle := width_le_width hmem
  rw [width_append, width_cons]
  omega

end Split

namespace Template

variable {id text : Text} {t : Template} {u u' : Text} {r r' : Reading} {p : Field → Bool}

section Places

variable (hb : ∀ f ∈ t.fields, f.isUnbounded = false) (hs : t.split? u = some r)
include hb hs

theorem slice?_of_split? {before after : List Field} {f : Field}
    (hf : t.fields = before ++ f :: after) (hbefore : ∀ g ∈ before, p g = false)
    (hp : p f = true) : r.slice? p = some ((u.drop (Split.width before)).take f.width) := by
  obtain ⟨v, rfl, hv, rfl⟩ := admitted_of_split? hs
  rw [hf] at hb hv
  obtain ⟨w, d, rfl, hw, hd⟩ := Split.admitted_append hv
  obtain ⟨s, d, hadmit, -, rfl⟩ := List.forall₂_cons_left_iff.mp hd
  have hfront := Split.length_flatten_admitted (fun g hg => hb g (by simp [hg])) hw
  have hwidth := Field.length_of_admits (hb f (by simp)) hadmit
  have hnone : (before.zip w).find? (fun e => p e.1) = none := by
    rw [List.find?_eq_none]
    intro e he
    rw [hbefore e.1 (List.of_mem_zip (show (e.1, e.2) ∈ _ from he)).1]
    decide
  rw [List.flatten_append, List.flatten_cons, ← hfront, List.drop_left, ← hwidth, List.take_left]
  show ((t.fields.zip (w ++ s :: d)).find? fun e => p e.1).map Prod.snd = _
  rw [hf, List.zip_append hw.length_eq, List.find?_append, hnone, Option.none_or,
    List.zip_cons_cons, List.find?_cons, hp]
  rfl

theorem length_of_split? : u.length = Split.width t.fields := by
  obtain ⟨v, -, hv, rfl⟩ := admitted_of_split? hs
  exact Split.length_flatten_admitted hb hv

variable (hs' : t.split? u' = some r')
include hs'

/-- Codes that agree on the places of a field have the same slice there. -/
theorem slice?_eq_of_agree {f : Field} (hf : f ∈ t.fields) (hp : p f = true)
    (hagree : ∀ k, Split.Covers t.fields p k → u'[k]? = u[k]?) : r'.slice? p = r.slice? p := by
  obtain ⟨g, hg⟩ := Option.isSome_iff_exists.mp (List.find?_isSome.mpr ⟨f, hf, hp⟩)
  obtain ⟨hpg, before, after, hfields, hbefore⟩ := List.find?_eq_some_iff_append.mp hg
  have hbefore : ∀ x ∈ before, p x = false := by simpa using hbefore
  rw [slice?_of_split? hb hs hfields hbefore hpg, slice?_of_split? hb hs' hfields hbefore hpg]
  refine congrArg some (List.ext_getElem? fun j => ?_)
  rw [List.getElem?_take, List.getElem?_take]
  split
  · next hj =>
    rw [List.getElem?_drop, List.getElem?_drop]
    exact hagree _ ⟨before, g, after, hfields, hbefore, hpg, by omega, by omega⟩
  · rfl

/-- Codes that differ in one place of a field have slices there that differ in one place. -/
theorem distance_slice? {k : Nat} (hk : Split.Covers t.fields p k) (hne : u'[k]? ≠ u[k]?)
    (hagree : ∀ j ≠ k, Split.Covers t.fields p j → u'[j]? = u[j]?) :
    ∃ s s', r.slice? p = some s ∧ r'.slice? p = some s' ∧ Text.distance s s' = 1 := by
  obtain ⟨before, f, after, hfields, hbefore, hp, hl, hu⟩ := hk
  refine ⟨_, _, slice?_of_split? hb hs hfields hbefore hp,
    slice?_of_split? hb hs' hfields hbefore hp, ?_⟩
  have hlength : u.length = u'.length := by rw [length_of_split? hb hs, length_of_split? hb hs']
  refine Text.distance_eq_one (i := k - Split.width before) ?_ ?_ ?_
  · rw [List.length_take, List.length_take, List.length_drop, List.length_drop, hlength]
  · rw [List.getElem?_take_of_lt (by omega), List.getElem?_take_of_lt (by omega),
      List.getElem?_drop, List.getElem?_drop, Nat.add_sub_cancel' hl]
    exact hne
  · intro j hj
    rw [List.getElem?_take, List.getElem?_take]
    split
    · rw [List.getElem?_drop, List.getElem?_drop]
      exact hagree _ (by omega) ⟨before, f, after, hfields, hbefore, hp, by omega, by omega⟩
    · rfl

/-- Codes that differ in one place of a field, and perhaps in the check digit of the EAN, differ
in that slice only. -/
theorem slices_of_changed (hl : Lawful t.fields) {q : Field → Bool}
    (hpq : ∀ f, p f = true → q f = false) (hp : p .eanCheck = false) (hq : q .eanCheck = false)
    {f : Field} (hf : f ∈ t.fields) (hqf : q f = true) {k : Nat}
    (hk : Split.Covers t.fields p k) (hne : u'[k]? ≠ u[k]?)
    (hagree : ∀ j ≠ k, u'[j]? = u[j]? ∨ .eanCheck ∈ t.fields ∧ j + 1 = u.length) :
    (∃ s s', r.slice? p = some s ∧ r'.slice? p = some s' ∧ Text.distance s s' = 1) ∧
      r'.slice? q = r.slice? q := by
  -- the place of the EAN check digit belongs to neither field
  have hplace : ∀ p : Field → Bool, p .eanCheck = false → ∀ j ≠ k,
      Split.Covers t.fields p j → u'[j]? = u[j]? := by
    intro p hp j hjk hj
    refine (hagree j hjk).resolve_right fun h => ?_
    obtain ⟨he, hlast⟩ := h
    have hlt : j + 1 < Split.width t.fields := hj.add_width_lt (hl.last he) hp
    rw [length_of_split? hb hs] at hlast
    omega
  refine ⟨distance_slice? hb hs hs' hk hne (hplace p hp), slice?_eq_of_agree hb hs hs' hf hqf ?_⟩
  intro j hj
  exact hplace q hq j (fun heq => hk.disjoint hpq (heq ▸ hj)) hj

end Places

/-! ## Codes that are read -/

theorem exists_slice? {f : Field} (hs : t.split? u = some r) (hf : f ∈ t.fields)
    (hp : p f = true) : ∃ e ∈ r.entries, p e.1 = true ∧ r.slice? p = some e.2 := by
  rw [← fields_of_split? hs] at hf
  obtain ⟨x, hx, rfl⟩ := List.mem_map.mp hf
  obtain ⟨e, he⟩ := Option.isSome_iff_exists.mp
    (List.find?_isSome (p := fun e : Field × Text => p e.1).mpr ⟨x, hx, hp⟩)
  have hpe := List.find?_some he
  exact ⟨e, List.mem_of_find?_eq_some he, hpe, by rw [Reading.slice?, he]; rfl⟩

section Read

variable (h : compile id text = .ok t)
include h

/-- Of the lengths of article numbers, a code with an EAN check digit that is read is one. -/
theorem complete_of_length (he : .eanCheck ∈ t.fields)
    (hl : u.length = 8 ∨ u.length = 13 ∨ u.length = 14)
    (hr : t.read u = .ok (.accepted r)) : Ean.Complete u := by
  obtain ⟨hs, hsound⟩ := read_eq_accepted_iff.mp hr
  obtain ⟨before, d, hentries, -, hd, hlast⟩ := entries_of_eanCheck (lawful_of_compile h) he hs
  have hflaw := hsound (.eanCheck, [d]) (by rw [hentries]; simp)
  rcases (flaw?_eanCheck_iff hd (code_of_split? hs) hlast).mp hflaw with hc | hrepeating
  · exact hc
  · have hshort := hrepeating.length
    omega

theorem complete_of_accepted (he : .eanCheck ∈ t.fields)
    (hl : t.expectedLength = 8 ∨ t.expectedLength = 13 ∨ t.expectedLength = 14)
    (hr : t.read u = .ok (.accepted r)) : Ean.Complete u := by
  obtain ⟨v, hv, -⟩ := split?_eq_some_iff.mp (read_eq_accepted_iff.mp hr).1
  rw [← length_eq_expectedLength hv (by omega)] at hl
  exact complete_of_length h he hl hr

/-- The payload that is checked is the first integer payload, since that has five digits. -/
theorem slice?_isIntegerPayload (hc : .payloadCheck ∈ t.fields) (hs : t.split? u = some r) :
    r.slice? Field.isIntegerPayload = r.checkedPayload? := by
  obtain ⟨before, f, after, hsplit, hfive, hbefore⟩ :=
    List.findSome?_eq_some_iff.mp ((lawful_of_compile h).payload hc)
  rw [← fields_of_split? hs, List.map_eq_append_iff] at hsplit
  obtain ⟨front, back, hentries, rfl, hback⟩ := hsplit
  obtain ⟨⟨g, s⟩, back, rfl, rfl, rfl⟩ := List.map_eq_cons_iff.mp hback
  have hnone : ∀ e ∈ front, e.1.integerPayload? = none :=
    fun e he => hbefore e.1 (List.mem_map_of_mem he)
  rw [Reading.checkedPayload_of_entries hentries hnone hfive]
  exact congrArg (Option.map Prod.snd) (Reading.find?_integerPayload hentries hnone hfive)

/-- A code that is read carries a payload of five digits and its check digit. -/
theorem exists_payload (hc : .payloadCheck ∈ t.fields) (hr : t.read u = .ok (.accepted r)) :
    ∃ s d, r.slice? Field.isIntegerPayload = some s ∧
      r.slice? Field.isPayloadCheck = some (Text.ofNat d) ∧
      isDigits 5 s = true ∧ Ean.payloadCheck s = .ok d := by
  obtain ⟨hs, hsound⟩ := read_eq_accepted_iff.mp hr
  obtain ⟨s, hchecked, hdigits⟩ := exists_checkedPayload (lawful_of_compile h) hs hc
  obtain ⟨⟨f, y⟩, he, hf, hy⟩ := exists_slice? (p := Field.isPayloadCheck) hs hc (by decide)
  obtain rfl : f = .payloadCheck := of_decide_eq_true hf
  obtain ⟨s', d, hchecked', hd, rfl⟩ := Reading.flaw?_payloadCheck.mp (hsound _ he)
  rw [hchecked] at hchecked'
  obtain rfl := Option.some.inj hchecked'
  exact ⟨s, d, (slice?_isIntegerPayload h hc hs).trans hchecked, hy, hdigits, hd⟩

/-- Payloads that differ in one digit have different check digits. -/
theorem exists_payloads (hc : .payloadCheck ∈ t.fields) (hr : t.read u = .ok (.accepted r))
    (hr' : t.read u' = .ok (.accepted r')) :
    ∃ s s' d d', r.slice? Field.isIntegerPayload = some s ∧
      r'.slice? Field.isIntegerPayload = some s' ∧
      r.slice? Field.isPayloadCheck = some d ∧ r'.slice? Field.isPayloadCheck = some d' ∧
      s.length = s'.length ∧ (Text.distance s s' = 1 → d ≠ d') ∧ (s = s' → d = d') := by
  obtain ⟨s, d, hs, hd, hdigits, hcheck⟩ := exists_payload h hc hr
  obtain ⟨s', d', hs', hd', hdigits', hcheck'⟩ := exists_payload h hc hr'
  have hl : s.length = s'.length := by
    rw [(isDigits_iff.mp hdigits).1, (isDigits_iff.mp hdigits').1]
  refine ⟨s, s', _, _, hs, hs', hd, hd', hl, ?_, ?_⟩
  · intro hdistance heq
    obtain ⟨before, a, b, after, rfl, rfl, hne⟩ := Text.exists_replaced hl hdistance
    have hb : b.isDigit = true := (isDigits_iff.mp hdigits').2 b (by simp)
    have hsame : d = d' := by rw [← Text.toNat_ofNat d, heq, Text.toNat_ofNat]
    exact Ean.payloadCheck_ne_of_replaced hdigits hb hne hcheck (hsame ▸ hcheck')
  · rintro rfl
    rw [hcheck, Except.ok.injEq] at hcheck'
    rw [hcheck']

/-- A wrong character in the payload or in its check digit is not made up for by the check digit
of the EAN. -/
theorem read_ne_accepted (hb : ∀ f ∈ t.fields, f.isUnbounded = false)
    (hc : .payloadCheck ∈ t.fields) (hr : t.read u = .ok (.accepted r)) {k : Nat}
    (hk : Split.Covers t.fields Field.isIntegerPayload k ∨
      Split.Covers t.fields Field.isPayloadCheck k)
    (hne : u'[k]? ≠ u[k]?)
    (hagree : ∀ j ≠ k, u'[j]? = u[j]? ∨ .eanCheck ∈ t.fields ∧ j + 1 = u.length) :
    t.read u' ≠ .ok (.accepted r') := by
  intro hr'
  have hlawful := lawful_of_compile h
  obtain ⟨hs, -⟩ := read_eq_accepted_iff.mp hr
  obtain ⟨hs', -⟩ := read_eq_accepted_iff.mp hr'
  obtain ⟨x, x', d, d', hx, hx', hd, hd', -, hdiffer, hsame⟩ := exists_payloads h hc hr hr'
  rcases hk with hk | hk
  · obtain ⟨⟨y, y', hy, hy', hdistance⟩, hother⟩ :=
      slices_of_changed hb hs hs' hlawful (q := Field.isPayloadCheck)
        (by intro f hf; cases f <;> first | rfl | cases hf) rfl rfl hc (by decide) hk hne hagree
    rw [hx] at hy
    rw [hx'] at hy'
    rw [hd, hd'] at hother
    obtain rfl := Option.some.inj hy
    obtain rfl := Option.some.inj hy'
    exact hdiffer hdistance (Option.some.inj hother).symm
  · obtain ⟨f, hf, hfive⟩ := List.exists_of_findSome?_eq_some (hlawful.payload hc)
    obtain ⟨⟨y, y', hy, hy', hdistance⟩, hother⟩ :=
      slices_of_changed hb hs hs' hlawful (q := Field.isIntegerPayload)
        (by intro f hf; cases f <;> first | rfl | cases hf) rfl rfl hf
        (by rw [Field.isIntegerPayload, hfive]; rfl) hk hne hagree
    rw [hd] at hy
    rw [hd'] at hy'
    rw [hx, hx'] at hother
    obtain rfl := Option.some.inj hy
    obtain rfl := Option.some.inj hy'
    rw [hsame (Option.some.inj hother).symm, Text.distance_self] at hdistance
    cases hdistance

end Read

/-- **Templates detect single errors.** Where the fields have given widths and the code ends in an
EAN check digit, two codes of 8, 13 or 14 characters that are read differ in two places at least.
Where a field takes the check digit of the payload, payloads that differ in one digit have
different check digits; so when one character of the payload or of its check digit is changed, the
code is not read, whatever takes the place of the EAN check digit. -/
theorem detects_single_errors (h : compile id text = .ok t)
    (hb : ∀ f ∈ t.fields, f.isUnbounded = false) :
    (.eanCheck ∈ t.fields →
      t.expectedLength = 8 ∨ t.expectedLength = 13 ∨ t.expectedLength = 14 →
      ∀ u u' r r', t.read u = .ok (.accepted r) → t.read u' = .ok (.accepted r') → u ≠ u' →
        u.length = u'.length ∧ 2 ≤ Text.distance u u') ∧
    (.payloadCheck ∈ t.fields →
      (∀ u u' r r', t.read u = .ok (.accepted r) → t.read u' = .ok (.accepted r') →
        ∃ s s' d d', r.slice? Field.isIntegerPayload = some s ∧
          r'.slice? Field.isIntegerPayload = some s' ∧
          r.slice? Field.isPayloadCheck = some d ∧ r'.slice? Field.isPayloadCheck = some d' ∧
          s.length = s'.length ∧ (Text.distance s s' = 1 → d ≠ d')) ∧
      ∀ u r, t.read u = .ok (.accepted r) →
        ∀ k, Split.Covers t.fields Field.isIntegerPayload k ∨
            Split.Covers t.fields Field.isPayloadCheck k →
          ∀ u' : Text, u'[k]? ≠ u[k]? →
            (∀ j ≠ k, u'[j]? = u[j]? ∨ .eanCheck ∈ t.fields ∧ j + 1 = u.length) →
            ∀ r', t.read u' ≠ .ok (.accepted r')) := by
  refine ⟨?_, fun hc => ⟨?_, ?_⟩⟩
  · intro he hl u u' r r' hr hr' hne
    obtain ⟨hs, -⟩ := read_eq_accepted_iff.mp hr
    obtain ⟨hs', -⟩ := read_eq_accepted_iff.mp hr'
    have hlength : u.length = u'.length := by
      rw [length_of_split? hb hs, length_of_split? hb hs']
    refine ⟨hlength, Nat.le_of_not_lt fun hlt => ?_⟩
    rcases Nat.le_one_iff_eq_zero_or_eq_one.mp (Nat.le_of_lt_succ hlt) with hzero | hone
    · exact hne (Text.eq_of_distance_eq_zero hlength hzero)
    · obtain ⟨before, a, b, after, rfl, rfl, hab⟩ := Text.exists_replaced hlength hone
      exact (complete_of_accepted h he hl hr).not_of_replaced hab
        (complete_of_accepted h he hl hr')
  · intro u u' r r' hr hr'
    obtain ⟨s, s', d, d', hs, hs', hd, hd', hl, hdiffer, -⟩ := exists_payloads h hc hr hr'
    exact ⟨s, s', d, d', hs, hs', hd, hd', hl, hdiffer⟩
  · intro u r hr k hk u' hne hagree r'
    exact read_ne_accepted h hb hc hr hk hne hagree

/-- An in-store code with another digit in its payload is not read with any check digit. -/
theorem detects_single_errors_instore :
    ∃ t r, compile [] (Text.withBraces "2[code:5][i][embed:5][ec]") = .ok t ∧
      t.read "2957783000742".toList = .ok (.accepted r) ∧
      (∀ d r', t.read ("295778300075".toList ++ [d]) ≠ .ok (.accepted r')) ∧
      ∀ u r', t.read u = .ok (.accepted r') → "2957783000742".toList ≠ u →
        2 ≤ Text.distance "2957783000742".toList u := by
  let t : Template := ⟨[], Text.withBraces "2[code:5][i][embed:5][ec]",
    [.literal "2".toList, .code { kind := .fixed, size := 5 }, .payloadCheck, .embed 5,
      .eanCheck]⟩
  let r : Reading := ⟨t, [(.literal "2".toList, "2".toList),
    (.code { kind := .fixed, size := 5 }, "95778".toList), (.payloadCheck, "3".toList),
    (.embed 5, "00074".toList), (.eanCheck, "2".toList)]⟩
  have hcompile : compile [] t.text = .ok t := by cbv
  have hread : t.read "2957783000742".toList = .ok (.accepted r) := by cbv
  have hbounded : ∀ f ∈ t.fields, f.isUnbounded = false := by decide
  obtain ⟨hnumber, hpayload⟩ := detects_single_errors hcompile hbounded
  obtain ⟨-, hwatched⟩ := hpayload (by decide)
  refine ⟨t, r, hcompile, hread, fun d r' => ?_, fun u r' hr' hne => ?_⟩
  · have hchanged : some '5' ≠ some '4' := by decide
    refine hwatched _ r hread 11 (Or.inl ?_) _ hchanged (fun j hj => ?_) r'
    · exact ⟨[.literal "2".toList, .code { kind := .fixed, size := 5 }, .payloadCheck], .embed 5,
        [.eanCheck], rfl, by decide, rfl, by decide, by decide⟩
    · by_cases hlt : j < 13
      · interval_cases j <;>
          first | exact Or.inl rfl | exact Or.inr ⟨by decide, rfl⟩ | exact absurd rfl hj
      · left
        rw [List.getElem?_eq_none (by simpa using hlt), List.getElem?_eq_none (by simpa using hlt)]
  · exact (hnumber (by decide) (Or.inr (Or.inl rfl)) _ u r r' hread hr' hne).2

end Template

end Barcode

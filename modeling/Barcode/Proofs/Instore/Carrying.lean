import Barcode.Proofs.Instore.Layout
import Barcode.Proofs.Registry.Outcome

/-!
# What an in-store code carries

A code that is built along a template is read by that template with the short code and the
payload that it was built from, whenever the template carries them. The built-in layout for
printed matter carries four digits of payload only, and other layouts lose the payload or the
short code in other ways; each condition of `Carries` is shown to be needed.
-/

namespace Barcode

open Ean (payloadDigit)
open Grammar (Lawful)
open Split (Admitted slices?_append_left slices?_append_right)
open Text (isDigits isDigits_iff padZeros isDigits_padZeros)

namespace Template.Carries

variable {t : Template} {s : Text} {m n : Nat} {lead tail : List Field}

/-- The slices that the fields before the payload take. -/
abbrev blanks (lead : List Field) (s : Text) (m : Nat) : List Text :=
  lead.map (Field.blank s (fiveDigits m))

/-- The reading of a built code: what the fields before the payload ask for, the payload, and
the slices of the fields behind it. -/
def reading (t : Template) (s : Text) (m : Nat) (lead : List Field) (n : Nat) (tail : List Field)
    (v : List Text) : Reading :=
  ⟨t, lead.map (fun f => (f, f.blank s (fiveDigits m))) ++
    (.embed n, padZeros n (Text.ofNat m)) :: tail.zip v⟩

theorem zip_blanks (lead : List Field) (s : Text) (m : Nat) :
    lead.zip (blanks lead s m) = lead.map fun f => (f, f.blank s (fiveDigits m)) := by
  induction lead with
  | nil => rfl
  | cons f lead ih =>
    show (f, f.blank s (fiveDigits m)) :: lead.zip (blanks lead s m) = _
    rw [ih, List.map_cons]

/-- What is kept and the payload are what the template asks for. -/
theorem body_eq (h : t.Carries s m lead n tail) (hpos : 0 < n) (hm : m < 10 ^ 5) :
    (t.assembly s (fiveDigits m)).take leadingLength ++ fiveDigits m =
      (blanks lead s m).flatten ++ padZeros n (Text.ofNat m) := by
  have h5 : (Text.ofNat m).length ≤ 5 := (Text.length_ofNat_le_iff (by decide)).mpr hm
  have hn : (Text.ofNat m).length ≤ n := (Text.length_ofNat_le_iff hpos).mpr h.fits
  rw [append_padZeros h.kept h5 hn, List.flatMap_def]

theorem size_le (h : t.Carries s m lead n tail) : n ≤ Text.Numeral.digitLimit := by
  have hlen := congrArg List.length h.kept
  have hseven := List.length_take_le leadingLength (t.assembly s (fiveDigits m))
  have hlead : leadingLength = 7 := rfl
  have hlimit : 12 ≤ Text.Numeral.digitLimit := by decide
  rw [List.length_append, List.length_append, List.length_replicate, List.length_replicate] at hlen
  omega

theorem exists_split (h : t.Carries s m lead n tail) (hpos : 0 < n) (hm : m < 10 ^ 5)
    (hw : ∀ shape, .code shape ∈ t.fields → s.length = shape.width) {d : Text}
    (hd : isDigits 1 d = true) :
    ∃ v, Admitted tail v ∧ v.flatten = d ∧
      t.split? ((t.assembly s (fiveDigits m)).take leadingLength ++ fiveDigits m ++ d) =
        some (reading t s m lead n tail v) := by
  have hwl : ∀ shape, .code shape ∈ lead → s.length = shape.width := by
    intro shape hs
    exact hw shape (by rw [h.fields]; simp [hs])
  have hlead : Admitted lead (blanks lead s m) := admitted_blank h.accepts hwl
  have hpay : Field.admits (.embed n) (padZeros n (Text.ofNat m)) = true :=
    isDigits_padZeros hpos h.fits
  have hzip : ∀ v, Reading.mk t (t.fields.zip (blanks lead s m ++
      padZeros n (Text.ofNat m) :: v)) = reading t s m lead n tail v := by
    intro v
    rw [h.fields, List.zip_append hlead.length_eq, List.zip_cons_cons, zip_blanks, reading]
  obtain ⟨v, hv, hflat⟩ := exists_spare h.spare h.rest.1 h.rest.2 hd
  rw [body_eq h hpos hm, List.append_assoc]
  rcases h.settled with hb | hb
  · -- the lead takes its slices off the front, and whatever the tail takes is the digit
    obtain ⟨v', hv'⟩ := Split.exists_slices?_of_admitted hv
    obtain ⟨ha, hf⟩ := Split.admitted_of_slices? hv'
    refine ⟨v', ha, hf.trans hflat, ?_⟩
    rw [Template.split?_eq_some_iff, ← hzip]
    refine ⟨_, ?_, rfl⟩
    rw [h.fields, slices?_append_left hb hlead, Split.slices?_cons_bounded rfl hpay, ← hflat, hv']
    rfl
  · -- the tail takes its slices off the end, and the lead is as long as it must be
    refine ⟨v, hv, hflat, ?_⟩
    rw [Template.split?_eq_some_iff, ← hzip]
    refine ⟨_, ?_, rfl⟩
    have hback : ∀ f ∈ Field.embed n :: tail, f.isUnbounded = false := by
      intro f hf
      rcases List.mem_cons.mp hf with rfl | hf
      · rfl
      · exact hb f hf
    have hall := slices?_append_right hback (List.Forall₂.cons hpay hv) lead
      (blanks lead s m).flatten
    rw [List.flatten_cons, hflat, Split.slices?_of_width hlead (length_lead hwl)] at hall
    rw [h.fields, hall]
    rfl

theorem eanCheck_not_mem_lead (h : t.Carries s m lead n tail) (hl : Lawful t.fields) :
    .eanCheck ∉ lead := by
  intro hm
  have hlast := hl.last (by rw [h.fields]; simp [hm])
  rw [h.fields, ← List.singleton_append, ← List.append_assoc,
    List.getLast?_append_of_ne_nil _ h.rest.1] at hlast
  have htail : .eanCheck ∈ Field.embed n :: tail :=
    List.mem_cons_of_mem _ (List.mem_of_getLast? hlast)
  rw [h.fields] at hl
  exact hl.purpose_ne hm htail rfl rfl

/-- The entries before the payload are no integer payloads. -/
theorem first_entries (h : t.Carries s m lead n tail) :
    ∀ e ∈ lead.map (fun f => (f, f.blank s (fiveDigits m))), e.1.integerPayload? = none := by
  intro e he
  obtain ⟨f, hf, rfl⟩ := List.mem_map.mp he
  exact h.first f hf

/-- Nothing is wrong with what the fields before the payload ask for. -/
theorem flaw?_lead (h : t.Carries s m lead n tail) (hl : Lawful t.fields) (hm : m < 10 ^ 5)
    {v : List Text} {f : Field} (hf : f ∈ lead) :
    (reading t s m lead n tail v).flaw? (f, f.blank s (fiveDigits m)) = .ok none := by
  cases f with
  | code shape => exact Reading.flaw?_code.mpr (h.accepts shape hf)
  | payloadCheck =>
    have h5 : n = 5 := by
      have hfive := hl.payload (by rw [h.fields]; simp [hf])
      rw [h.fields, List.findSome?_append, List.findSome?_eq_none_iff.mpr h.first,
        Option.none_or, List.findSome?_cons] at hfive
      exact Option.some.inj hfive
    subst h5
    obtain ⟨d, hd⟩ := Ean.exists_payloadCheck (isDigits_padZeros (by decide : 0 < 5) hm)
    have hpay : (reading t s m lead 5 tail v).checkedPayload? = some (fiveDigits m) :=
      Reading.checkedPayload_of_entries rfl h.first_entries rfl
    exact Reading.flaw?_payloadCheck.mpr ⟨_, d, hpay, hd, Ean.payloadDigit_eq hd⟩
  | eanCheck => exact absurd hf (eanCheck_not_mem_lead h hl)
  | _ => rfl

/-- Of the fields behind the payload only the check digit of the EAN is checked. -/
theorem flaw?_tail (h : t.Carries s m lead n tail) {v : List Text} {body : Text}
    (hb : isDigits 12 body = true) (hv : Admitted tail v)
    (hflat : v.flatten = Text.ofNat (Ean.check body))
    (hcode : (reading t s m lead n tail v).code = Ean.completed body) {f : Field} {x : Text}
    (hx : (f, x) ∈ tail.zip v) : (reading t s m lead n tail v).flaw? (f, x) = .ok none := by
  have hf := h.spare f (List.of_mem_zip hx).1
  have hadm : f.admits x = true := List.forall₂_zip hv hx
  cases f with
  | eanCheck =>
    have hdig := Text.isDigits_ofNat_digit (Ean.check_lt body)
    obtain rfl : x = Text.ofNat (Ean.check body) :=
      eq_of_mem_flatten (List.of_mem_zip hx).2 hflat (isDigits_iff.mp hadm).1
        (isDigits_iff.mp hdig).1
    exact Reading.flaw?_of_completed hb hcode
  | code shape => cases hf
  | payloadCheck => cases hf
  | _ => rfl

theorem lookupCode_eq (h : t.Carries s m lead n tail) {v : List Text} (hv : Admitted tail v)
    {shape : CodeShape} (hs : .code shape ∈ t.fields) :
    (reading t s m lead n tail v).lookupCode = s := by
  have hfields : (reading t s m lead n tail v).entries.map Prod.fst = t.fields := by
    rw [reading, h.fields, List.map_append, List.map_map, List.map_cons,
      List.map_fst_zip hv.length_eq.le]
    congr 1
    exact List.map_id lead
  rw [← hfields] at hs
  refine Reading.lookupCode_of_entries ?_ hs
  intro e he shape hc
  rcases List.mem_append.mp he with he | he
  · obtain ⟨f, hf, rfl⟩ := List.mem_map.mp he
    simp only at hc
    rw [hc]
    rfl
  · rcases List.mem_cons.mp he with rfl | he
    · cases hc
    · have hspare := h.spare e.1 (List.of_mem_zip (show (e.1, e.2) ∈ _ from he)).1
      rw [hc] at hspare
      cases hspare

/-- A code that a template carries is read with the payload and the short code. -/
theorem exists_read (h : t.Carries s m lead n tail) (hl : Lawful t.fields) (hpos : 0 < n)
    (hm : m < 10 ^ 5) (hw : ∀ shape, .code shape ∈ t.fields → s.length = shape.width)
    (hd : isDigits 12 ((t.assembly s (fiveDigits m)).take leadingLength ++ fiveDigits m) = true) :
    ∃ r, t.read (Ean.completed ((t.assembly s (fiveDigits m)).take leadingLength ++ fiveDigits m)) =
        .ok (.accepted r) ∧ r.embeddedData = .ok (some (m : Int)) ∧
      ((∃ shape, .code shape ∈ t.fields) → r.lookupCode = s) := by
  obtain ⟨v, hv, hflat, hsplit⟩ :=
    h.exists_split hpos hm hw (Text.isDigits_ofNat_digit (Ean.check_lt
      ((t.assembly s (fiveDigits m)).take leadingLength ++ fiveDigits m)))
  have hsound : (reading t s m lead n tail v).Sound := by
    intro e he
    rcases List.mem_append.mp he with he | he
    · obtain ⟨f, hf, rfl⟩ := List.mem_map.mp he
      exact h.flaw?_lead hl hm hf
    · rcases List.mem_cons.mp he with rfl | he
      · rfl
      · exact h.flaw?_tail hd hv hflat (Template.code_of_split? hsplit) he
  refine ⟨_, Template.read_eq_accepted_iff.mpr ⟨hsplit, hsound⟩, ?_, ?_⟩
  · rw [Reading.embeddedData_of_entries rfl h.first_entries hpos h.size_le
      (isDigits_padZeros hpos h.fits), Text.toNat_padZeros, Text.toNat_ofNat]
  · intro hs
    obtain ⟨shape, hs⟩ := hs
    exact lookupCode_eq h hv hs

end Template.Carries

namespace Registry

open Template (fiveDigits Carries leadingLength)

variable {registry : Registry} {project id s c : Text} {data : Int} {t : Template}

theorem outcome_synthesize (ht : registry.template? project id = some t) (s : Text) (data : Int) :
    (registry.synthesize (.text id) (.text s) data (some project)).outcome =
      (t.synthesize s data).map fun built => built.map Ean.Code.text := by
  have hfind : registry.find? id (some project) = some t := ht
  rw [outcome_synthesize_text, hfind]

/-- **A built code carries what it was asked to carry, when the template carries it.** In every
registry with a history the template that the code was built along reads it with the payload
and, if it has a code field, with the short code. -/
theorem read_of_synthesize (history : List Operation)
    (ht : (run history).template? project id = some t)
    (hb : ((run history).synthesize (.text id) (.text s) data (some project)).outcome =
      .ok (some c))
    {lead tail : List Field} {n : Nat} (hcarry : t.Carries s data.toNat lead n tail) :
    ∃ r, t.read c = .ok (.accepted r) ∧ r.embeddedData = .ok (some data) ∧
      ((∃ shape, .code shape ∈ t.fields) → r.lookupCode = s) := by
  have hcomp := compiled_run history project id t ht
  have hpos : 0 < n :=
    Template.sizes_pos_of_compile hcomp (.embed n) (by rw [hcarry.fields]; simp) n
      (by simp [Field.sizes])
  rw [outcome_synthesize ht, Sequence.map_eq_ok] at hb
  obtain ⟨built, hb, hc⟩ := hb
  obtain ⟨code, rfl, rfl⟩ := Option.map_eq_some_iff.mp hc
  obtain ⟨m, rfl, hm, hw, hd, htext⟩ := Template.synthesize_eq_some hb
  rw [Int.toNat_natCast] at hcarry
  rw [htext]
  exact hcarry.exists_read (Template.lawful_of_compile hcomp) hpos hm hw hd

/-- The built-in layout for printed matter carries a payload of four digits. -/
theorem read_of_synthesize_print :
    ∃ history t r, (run history).template? ['p'] "german_print".toList = some t ∧
      ((run history).synthesize (.text "german_print".toList) (.text "12".toList) 1234
        (some ['p'])).outcome = .ok (some "4120000012349".toList) ∧
      t.read "4120000012349".toList = .ok (.accepted r) ∧ r.embeddedData = .ok (some 1234) := by
  let history : List Operation := [.load (Project.builtin ['p'])]
  let shape : CodeShape := { kind := .fixed, size := 2 }
  let lead : List Field := [.literal ['4'], .code shape, .skip (some 5)]
  let t : Template := ⟨"german_print".toList,
    Text.withBraces "4[code:2][_:5][embed:4][ec]", lead ++ [.embed 4, .eanCheck]⟩
  have ht : (run history).template? ['p'] "german_print".toList = some t := by cbv
  have hb : ((run history).synthesize (.text "german_print".toList) (.text "12".toList) 1234
      (some ['p'])).outcome = .ok (some "4120000012349".toList) := by cbv
  have hcarry : t.Carries "12".toList 1234 lead 4 [.eanCheck] := by
    refine ⟨rfl, by decide, ?_, by decide, by decide, by decide, by decide, Or.inl (by decide)⟩
    intro shape' hs
    simp only [lead, List.mem_cons, List.not_mem_nil, or_false, reduceCtorEq, false_or,
      Field.code.injEq] at hs
    rw [hs]
    decide
  obtain ⟨r, hread, hdata, -⟩ := read_of_synthesize history ht hb hcarry
  exact ⟨history, t, r, ht, hb, hread, hdata⟩

/-- A code is built, but it is not read with the payload. -/
def Lost (text s : Text) (data : Int) : Prop :=
  ∃ t c, (run [.register ['p'] ⟨['t'], text⟩]).template? ['p'] ['t'] = some t ∧
    ((run [.register ['p'] ⟨['t'], text⟩]).synthesize (.text ['t']) (.text s) data
      (some ['p'])).outcome = .ok (some c) ∧
    ∀ r, t.read c = .ok (.accepted r) → r.embeddedData ≠ .ok (some data)

theorem lost_of_compile {text : Text} (code : Ean.Code) (fields : List Field)
    (hc : Template.compile ['t'] text = .ok ⟨['t'], text, fields⟩)
    (hb : Template.synthesize ⟨['t'], text, fields⟩ s data = .ok (some code))
    (hr : ∀ r, Template.read ⟨['t'], text, fields⟩ code.text = .ok (.accepted r) →
      r.embeddedData ≠ .ok (some data)) : Lost text s data := by
  have hfound : (run [.register ['p'] ⟨['t'], text⟩]).template? ['p'] ['t'] =
      some ⟨['t'], text, fields⟩ := template?_run_register hc
  refine ⟨_, code.text, hfound, ?_, hr⟩
  rw [outcome_synthesize hfound, hb]
  rfl

/-- Each condition on the template is needed: what is built is lost when the payload has no room
in its field, when a constant is not the short code, when the payload field stands elsewhere,
when hundreds come first, when two characters are left, and when the payload has no fixed place. -/
theorem lost_layouts :
    Lost (Text.withBraces "4[code:2][_:5][embed:4][ec]") "12".toList 12345 ∧
    Lost (Text.withBraces "2[code=12345][_][embed:5][ec]") "99999".toList 12345 ∧
    Lost (Text.withBraces "2[code:5][embed:5][_][ec]") "12345".toList 12345 ∧
    Lost (Text.withBraces "[embed100:1][_:6][embed:5][ec]") [] 12345 ∧
    Lost (Text.withBraces "2[code:5][_][embed:5][_][ec]") "12345".toList 12345 ∧
    Lost (Text.withBraces "[_:*]2[code:6][embed:5][_:*]") "212345".toList 12345 := by
  refine ⟨?_, ?_, ?_, ?_, ?_, ?_⟩
  · refine lost_of_compile ⟨"4120000123458".toList, .ean13⟩ [.literal ['4'],
      .code { kind := .fixed, size := 2 }, .skip (some 5), .embed 4, .eanCheck] (by cbv) (by cbv) ?_
    intro r h hd
    cases h
    cases hd
  · refine lost_of_compile ⟨"2999990123456".toList, .ean13⟩ [.literal ['2'],
      .code { kind := .constant, constant := "12345".toList }, .skip (some 1), .embed 5, .eanCheck]
      (by cbv) (by cbv) ?_
    intro r h
    cases h
  · refine lost_of_compile ⟨"2123450123452".toList, .ean13⟩ [.literal ['2'],
      .code { kind := .fixed, size := 5 }, .embed 5, .skip (some 1), .eanCheck]
      (by cbv) (by cbv) ?_
    intro r h hd
    cases h
    cases hd
  · refine lost_of_compile ⟨"0000000123457".toList, .ean13⟩ [.embedHundreds 1, .skip (some 6),
      .embed 5, .eanCheck] (by cbv) (by cbv) ?_
    intro r h hd
    cases h
    cases hd
  · refine lost_of_compile ⟨"2123450123452".toList, .ean13⟩ [.literal ['2'],
      .code { kind := .fixed, size := 5 }, .skip (some 1), .embed 5, .skip (some 1), .eanCheck]
      (by cbv) (by cbv) ?_
    intro r h
    cases h
  · refine lost_of_compile ⟨"2212345123452".toList, .ean13⟩ [.skip none, .literal ['2'],
      .code { kind := .fixed, size := 6 }, .embed 5, .skip none] (by cbv) (by cbv) ?_
    intro r h hd
    cases h
    cases hd

end Registry

end Barcode

import Barcode.Proofs.Instore.Layout
import Barcode.Proofs.Registry.Answers

/-!
# When an in-store code is built

A code is built exactly when the payload has at most five digits, the short code fits its field,
some field takes a plain payload, and the characters before the payload are seven digits. It is a
valid EAN-13 with those seven characters and the five digits of the payload. The same holds of a
code that a price override sends onward, whatever scaling its payload has gone through.
-/

namespace Barcode

open Document (Value)
open Ean (payloadDigit)
open Sequence
open Text (isDigits isDigits_iff isDigits_append_iff padZeros isDigits_padZeros)
open Text.Numeral (Writable)

namespace Ean

/-- A valid EAN-13 with given characters at the places 0 to 6 and 7 to 11. -/
structure IsInstore (leading payload code : Text) : Prop where
  digits : isDigits 13 code = true
  valid : (validate code (some .ean13)).valid = true
  leading : code.take 7 = leading
  payload : (code.drop 7).take 5 = payload

theorem isInstore_completed {a p : Text} (ha : isDigits 7 a = true) (hp : isDigits 5 p = true) :
    IsInstore a p (completed (a ++ p)) := by
  have hla : a.length = 7 := (isDigits_iff.mp ha).1
  have hlp : p.length = 5 := (isDigits_iff.mp hp).1
  have hbody : isDigits (7 + 5) (a ++ p) = true := (isDigits_append_iff hp).mpr ha
  have hdigits := isDigit_completed (isDigits_iff.mp hbody).2
  refine ⟨isDigits_iff.mpr ⟨?_, hdigits⟩, valid_completed (e := .ean13) hbody, ?_, ?_⟩
  · rw [length_completed, (isDigits_iff.mp hbody).1]
  · rw [completed, List.append_assoc, List.take_left' hla]
  · rw [completed, List.append_assoc, List.drop_left' hla, List.take_left' hlp]

end Ean

/-- What a field contributes to an in-store code: a literal its text, the code field the short
code, the check digit of the payload that digit, payload and skipped characters zeros. -/
def Field.contribution (s p : Text) : Field → Text
  | .literal text => text
  | .code _ => s
  | .payloadCheck => payloadDigit p
  | .embed size => List.replicate size '0'
  | .skip (some size) => List.replicate size '0'
  | _ => []

namespace Template

variable {t : Template} {s p : Text} {data : Int} {c : Ean.Code}

/-- The first seven characters of what the fields contribute, from left to right. -/
def leading (t : Template) (s : Text) (data : Int) : Text :=
  (t.fields.flatMap (Field.contribution s (fiveDigits data.toNat))).take leadingLength

/-- What an in-store code is built from. -/
structure Buildable (t : Template) (s : Text) (data : Int) : Prop where
  range : 0 ≤ data ∧ data ≤ 99999
  fits : ∀ shape, .code shape ∈ t.fields → shape.width = s.length
  carries : ∃ n, .embed n ∈ t.fields
  digits : isDigits 7 (t.leading s data) = true

/-! ## The first seven characters -/

/-- The beginning of a text is settled by what it begins with, as far as that goes. -/
theorem take_append_congr {a b x y : Text} {k : Nat}
    (h : a = b ∨ a.take k = b.take k ∧ k ≤ a.length ∧ k ≤ b.length) (hxy : x.take k = y.take k) :
    (a ++ x).take k = (b ++ y).take k := by
  rcases h with rfl | ⟨hab, ha, hb⟩
  · have hrest : x.take (k - a.length) = y.take (k - a.length) := by
      have h := congrArg (List.take (k - a.length)) hxy
      rwa [List.take_take, List.take_take, Nat.min_eq_left (Nat.sub_le k a.length)] at h
    rw [List.take_append, List.take_append, hrest]
  · rw [List.take_append_of_le_length ha, List.take_append_of_le_length hb, hab]

/-- Zeros beyond the leading characters are not missed. -/
theorem zeros_eq_or (n : Nat) : zeros n = List.replicate n '0' ∨
    (zeros n).take leadingLength = (List.replicate n '0').take leadingLength ∧
      leadingLength ≤ (zeros n).length ∧ leadingLength ≤ (List.replicate n '0').length := by
  rw [zeros]
  rcases Nat.le_total n leadingLength with h | h
  · rw [Nat.min_eq_left h]
    exact Or.inl rfl
  · rw [Nat.min_eq_right h, List.take_replicate, List.take_replicate, Nat.min_self,
      Nat.min_eq_left h, List.length_replicate, List.length_replicate]
    exact Or.inr ⟨rfl, Nat.le_refl _, h⟩

theorem layoutPart_eq_or (hp : isDigits 5 p = true) (f : Field) :
    (layoutPart s p f).toOption.getD [] = f.contribution s p ∨
      ((layoutPart s p f).toOption.getD []).take leadingLength =
          (f.contribution s p).take leadingLength ∧
        leadingLength ≤ ((layoutPart s p f).toOption.getD []).length ∧
        leadingLength ≤ (f.contribution s p).length := by
  cases f with
  | embed n => exact zeros_eq_or n
  | skip size =>
    cases size with
    | none => exact Or.inl rfl
    | some n => exact zeros_eq_or n
  | payloadCheck =>
    obtain ⟨d, hd⟩ := Ean.exists_payloadCheck hp
    refine Or.inl ?_
    rw [layoutPart, hd, Field.contribution, Ean.payloadDigit_eq hd]
    rfl
  | _ => exact Or.inl rfl

theorem take_assembly (hp : isDigits 5 p = true) (t : Template) (s : Text) :
    (t.assembly s p).take leadingLength =
      (t.fields.flatMap (Field.contribution s p)).take leadingLength := by
  rw [assembly]
  induction t.fields with
  | nil => rfl
  | cons f fields ih =>
    rw [List.flatMap_cons, List.flatMap_cons]
    exact take_append_congr (layoutPart_eq_or hp f) ih

/-! ## When there is a code -/

theorem exists_nat_of_range (h : 0 ≤ data ∧ data ≤ 99999) : ∃ m : Nat, data = m ∧ m < 10 ^ 5 := by
  obtain ⟨m, rfl⟩ := Int.eq_ofNat_of_zero_le h.1
  exact ⟨m, rfl, by omega⟩

/-- What is buildable is built. -/
theorem Buildable.synthesize (h : t.Buildable s data) :
    ∃ c, t.synthesize s data = .ok (some c) ∧
      Ean.IsInstore (t.leading s data) (fiveDigits data.toNat) c.text := by
  obtain ⟨m, rfl, hm⟩ := exists_nat_of_range h.range
  obtain ⟨n, hn⟩ := h.carries
  have hp : isDigits 5 (fiveDigits m) = true := isDigits_padZeros (by decide) hm
  have hlead : t.leading s m = (t.assembly s (fiveDigits m)).take leadingLength :=
    (take_assembly hp t s).symm
  have hdigits := h.digits
  rw [hlead] at hdigits ⊢
  have hcode := Ean.isInstore_completed hdigits hp
  have htwelve := (isDigits_append_iff hp).mpr hdigits
  exact ⟨_, synthesize_of_isDigits hm (fun shape hs => (h.fits shape hs).symm) hn htwelve, hcode⟩

theorem exists_embed_of_synthesize (h : t.synthesize s data = .ok (some c)) :
    ∃ n, .embed n ∈ t.fields := by
  obtain ⟨payload?, -, h⟩ := bind_eq_ok.mp h
  cases payload? with
  | none => cases h
  | some payload =>
    simp only at h
    split at h
    · cases h
    · obtain ⟨parts, -, h⟩ := bind_eq_ok.mp h
      split at h
      · next hany =>
        obtain ⟨f, hf, hpay⟩ := List.any_eq_true.mp hany
        cases f with
        | embed n => exact ⟨n, hf⟩
        | _ => cases hpay
      · cases h

/-- What is built was buildable. -/
theorem buildable_of_synthesize (h : t.synthesize s data = .ok (some c)) : t.Buildable s data := by
  obtain ⟨m, rfl, hm, hfits, hdigits, -⟩ := synthesize_eq_some h
  have hp : isDigits 5 (fiveDigits m) = true := isDigits_padZeros (by decide) hm
  refine ⟨by omega, fun shape hs => (hfits shape hs).symm, exists_embed_of_synthesize h, ?_⟩
  show isDigits 7 ((t.fields.flatMap (Field.contribution s (fiveDigits m))).take leadingLength) = _
  rw [← take_assembly hp]
  exact (isDigits_append_iff hp).mp hdigits

theorem synthesize_eq_none_iff (hw : Writable data) :
    t.synthesize s data = .ok none ↔ ¬ t.Buildable s data := by
  constructor
  · intro hnone hb
    obtain ⟨c, hc, -⟩ := hb.synthesize
    rw [hnone] at hc
    cases hc
  · intro hnot
    obtain ⟨built, hbuilt⟩ := exists_synthesize_iff.mpr hw
    cases built with
    | none => exact hbuilt
    | some c => exact absurd (buildable_of_synthesize hbuilt) hnot

/-- A code that is built with a value of another kind is built without a short code. -/
theorem synthesize_of_synthesizeWith {code : Value}
    (h : t.synthesizeWith code data = .ok (some c)) :
    ∃ s, (∀ s', code = .text s' → s' = s) ∧ t.synthesize s data = .ok (some c) := by
  cases code with
  | text s' => exact ⟨s', fun _ he => (Value.text.inj he).symm, h⟩
  | list _ | object _ =>
    refine ⟨[], fun _ he => (nomatch he), ?_⟩
    obtain ⟨payload?, -, h⟩ := bind_eq_ok.mp h
    split at h
    · cases h
    · split at h
      · cases h
      · split at h
        · cases h
        · exact h
  | null | bool _ | integer _ | real _ =>
    refine ⟨[], fun _ he => (nomatch he), ?_⟩
    obtain ⟨payload?, -, h⟩ := bind_eq_ok.mp h
    split at h
    · cases h
    · exact h

end Template

namespace Registry

open Template (fiveDigits)

variable {registry : Registry} {project id code text : Text} {data : Int}
  {project? : Option Text} {o : Override} {r : Reading} {overrides : List Override}

/-- What is found without a project is found in the first project that has it, in the order of the
first registrations. -/
theorem find?_run_none (history : List Operation) (id : Text) :
    (run history).find? id none = ((successes history).map (·.project)).eraseDups.findSome?
      fun project => (run history).template? project id := by
  rw [(ordered_run history).find?_none, run_eq_record,
    projectIds_record fun _ => exists_compiled_of_mem]

theorem outcome_synthesize_eq_none_iff {s : Text} (hw : Writable data) :
    (registry.synthesize (.text id) (.text s) data project?).outcome = .ok none ↔
      ∀ t, registry.find? id project? = some t → ¬ t.Buildable s data := by
  rw [outcome_synthesize_text]
  cases registry.find? id project? with
  | none => simp
  | some t =>
    simp only [Option.some.injEq, forall_eq']
    rw [← Template.synthesize_eq_none_iff hw]
    cases t.synthesize s data with
    | error fault => simp [Except.map]
    | ok built => cases built <;> simp [Except.map]

/-- A template is found under a text only. -/
theorem findByValue_eq_some {id : Value} {t : Template}
    (h : registry.findByValue id project? = .ok (some t)) :
    ∃ name, id = .text name ∧ registry.find? name project? = some t := by
  cases id with
  | text name => exact ⟨name, rfl, Except.ok.inj h⟩
  | list _ | object _ =>
    rw [findByValue] at h
    split at h <;> cases h
  | _ => cases h

/-- A code that is sent onward has been built from a template that is found. -/
theorem synthesize_eq_some {id code : Value}
    (h : (registry.synthesize id code data project?).outcome = .ok (some text)) :
    ∃ name t s, id = .text name ∧ registry.find? name project? = some t ∧
      (∀ s', code = .text s' → s' = s) ∧ t.Buildable s data ∧
      Ean.IsInstore (t.leading s data) (fiveDigits data.toNat) text := by
  rw [synthesize, Traced.outcome_bind, Traced.outcome_ofExcept] at h
  obtain ⟨found?, hfound, h⟩ := bind_eq_ok.mp h
  cases found? with
  | none => cases h
  | some t =>
    obtain ⟨name, hname, hfind⟩ := findByValue_eq_some hfound
    rw [Traced.outcome_bind, Traced.outcome_ofExcept] at h
    obtain ⟨built?, hbuilt, h⟩ := bind_eq_ok.mp h
    obtain ⟨c, rfl, rfl⟩ := Option.map_eq_some_iff.mp (Except.ok.inj h)
    obtain ⟨s, hs, hsynth⟩ := Template.synthesize_of_synthesizeWith hbuilt
    have hb := Template.buildable_of_synthesize hsynth
    obtain ⟨c', hc', hcode⟩ := hb.synthesize
    rw [hsynth, Except.ok.injEq, Option.some.injEq] at hc'
    exact ⟨name, t, s, hname, hfind, hs, hb, hc' ▸ hcode⟩

theorem transmission_eq_ok {sent : Value} (ht : o.transmissionTemplate.isNull = false)
    (hc : o.transmissionCode.isNull = false)
    (h : registry.transmission o project (some data) = .ok sent) :
    sent = .null ∨ ∃ id t s c, o.transmissionTemplate = .text id ∧
      registry.template? project id = some t ∧ (∀ s', o.transmissionCode = .text s' → s' = s) ∧
      t.Buildable s data ∧ sent = .text c ∧
      Ean.IsInstore (t.leading s data) (fiveDigits data.toNat) c := by
  rw [transmission, ht, hc] at h
  obtain ⟨built?, hbuilt, rfl⟩ := map_eq_ok.mp h
  cases built? with
  | none => exact Or.inl rfl
  | some c =>
    obtain ⟨id, t, s, hid, hfind, hs, hb, hcode⟩ := synthesize_eq_some hbuilt
    exact Or.inr ⟨id, t, s, c, hid, hfind, hs, hb, rfl, hcode⟩

/-- **A code is built exactly when it can be.** An identifier is looked up in its project, or
without one in the projects in the order of their first registrations. There is no code when there
is no template, when the payload is not from 0 to 99999, when the short code does not fit, when no
field takes the payload, or when the payload does not come after seven digits. Otherwise there is a
valid EAN-13 with those digits and the payload. The code that a price override builds is one of
these, from the payload that the override has read. -/
theorem synthesize_exact (history : List Operation) :
    (∀ id project, (run history).find? id (some project) = (run history).template? project id) ∧
    (∀ id, (run history).find? id none =
      ((successes history).map (·.project)).eraseDups.findSome?
        fun project => (run history).template? project id) ∧
    (∀ id s data project?, Writable data →
      (((run history).synthesize (.text id) (.text s) data project?).outcome = .ok none ↔
        ∀ t, (run history).find? id project? = some t → ¬ t.Buildable s data) ∧
      (∀ t, (run history).find? id project? = some t → t.Buildable s data →
        ∃ c, ((run history).synthesize (.text id) (.text s) data project?).outcome = .ok (some c) ∧
          Ean.IsInstore (t.leading s data) (fiveDigits data.toNat) c)) ∧
    (∀ code project overrides? l,
      ((run history).lookupOverride code project overrides?).outcome = .ok (some l) →
      ∃ o r, (run history).winner? project code (overrides?.getD []) = some (o, r) ∧
        r.embeddedData = .ok l.embeddedData ∧
        ∀ data, l.embeddedData = some data → o.transmissionTemplate.isNull = false →
          o.transmissionCode.isNull = false → l.transmissionCode = .null ∨
          ∃ id t s c, o.transmissionTemplate = .text id ∧
            (run history).template? project id = some t ∧
            (∀ s', o.transmissionCode = .text s' → s' = s) ∧ t.Buildable s data ∧
            l.transmissionCode = .text c ∧
            Ean.IsInstore (t.leading s data) (fiveDigits data.toNat) c) := by
  refine ⟨fun _ _ => rfl, find?_run_none history, ?_, ?_⟩
  · intro id s data project? hw
    refine ⟨outcome_synthesize_eq_none_iff hw, ?_⟩
    intro t ht hb
    obtain ⟨c, hc, hcode⟩ := hb.synthesize
    refine ⟨c.text, ?_, hcode⟩
    rw [outcome_synthesize_text, ht]
    show (t.synthesize s data).map _ = _
    rw [hc]
    rfl
  · intro code project overrides? l h
    rw [outcome_lookupOverride (compiled_run history)] at h
    cases hw : (run history).winner? project code (overrides?.getD []) with
    | none =>
      rw [hw] at h
      cases h
    | some found =>
      obtain ⟨o, r⟩ := found
      rw [hw] at h
      obtain ⟨l', hl, heq⟩ := map_eq_ok.mp h
      obtain rfl := Option.some.inj heq
      obtain ⟨hdata, hsent, -, -⟩ := applyOverride_eq_ok.mp hl
      refine ⟨o, r, rfl, hdata, ?_⟩
      intro data hd ht hc
      rw [hd] at hsent
      exact transmission_eq_ok ht hc hsent

/-- A template with a check digit of the payload, found without its project: a payload that is
built, one that is too large, and one that an override has read in hundreds. -/
theorem synthesize_exact_hundreds :
    ∃ history t o l,
      (run history).find? ['t'] none = some t ∧
      (∃ c, ((run history).synthesize (.text ['t']) (.text "5778".toList) 742 none).outcome =
          .ok (some c) ∧ Ean.IsInstore "2057787".toList "00742".toList c) ∧
      ((run history).synthesize (.text ['t']) (.text "5778".toList) 100000 none).outcome =
        .ok none ∧
      ((run history).lookupOverride "97012".toList ['p'] (some [o])).outcome = .ok (some l) ∧
      l.embeddedData = some 1200 ∧
      ∃ c, l.transmissionCode = .text c ∧ Ean.IsInstore "2057782".toList "01200".toList c := by
  let ds : List Definition :=
    [⟨['t'], Text.withBraces "2[_:1][code:4][i][embed:5][ec]"⟩,
      ⟨['o'], Text.withBraces "97[embed100:3]"⟩]
  let history : List Operation := ds.map (.register ['p'])
  let t : Template := ⟨['t'],
    Text.withBraces "2[_:1][code:4][i][embed:5][ec]",
    [.literal ['2'], .skip (some 1), .code { kind := .fixed, size := 4 }, .payloadCheck, .embed 5,
      .eanCheck]⟩
  let o : Override :=
    { id := ['o'], template := Text.withBraces "97[embed100:3]"
      transmissionTemplate := .text ['t'], transmissionCode := .text "5778".toList }
  let l : OverrideLookup := ⟨[], .null, .text "2057782012002".toList, some 1200⟩
  have hfind : (run history).find? ['t'] none = some t := by cbv
  have hstored : (run history).template? ['p'] ['t'] = some t := by cbv
  have hlookup : ((run history).lookupOverride "97012".toList ['p'] (some [o])).outcome =
      .ok (some l) := by cbv
  obtain ⟨-, -, hbuilds, hoverrides⟩ := synthesize_exact history
  have hlead : t.leading "5778".toList 742 = "2057787".toList := by cbv
  have hsmall : Writable 742 := by cbv
  have hlong : Writable 100000 := by cbv
  have hbuildable : t.Buildable "5778".toList 742 := by
    refine ⟨by decide, ?_, ⟨5, by simp [t]⟩, ?_⟩
    · simp [t, CodeShape.width]
    · rw [hlead]
      decide
  obtain ⟨c, hc, hcode⟩ := (hbuilds ['t'] "5778".toList 742 none hsmall).2 t hfind hbuildable
  rw [hlead] at hcode
  have hlarge : ((run history).synthesize (.text ['t']) (.text "5778".toList) 100000 none).outcome =
      .ok none := by
    refine (hbuilds ['t'] "5778".toList 100000 none hlong).1.mpr ?_
    intro t' _ hb
    exact absurd hb.range (by decide)
  obtain ⟨o', r, hwinner, -, hsent⟩ := hoverrides "97012".toList ['p'] (some [o]) l hlookup
  obtain ⟨before, after, hsplit, -, -⟩ := winner?_eq_some_iff.mp hwinner
  have hone : o' = o := by
    have hmem : o' ∈ (some [o]).getD [] := by rw [hsplit]; simp
    exact List.mem_singleton.mp hmem
  subst hone
  refine ⟨history, t, o, l, hfind, ⟨c, hc, hcode⟩, hlarge, hlookup, rfl, ?_⟩
  rcases hsent 1200 rfl rfl rfl with hnull | ⟨id, t', s, c', hid, ht', hs, -, hc', hcode'⟩
  · cases hnull
  · obtain rfl := Value.text.inj hid
    have hsame : t = t' := by
      rw [hstored] at ht'
      exact Option.some.inj ht'
    have hshort : "5778".toList = s := hs _ rfl
    subst hsame hshort
    have hlead' : t.leading "5778".toList 1200 = "2057782".toList := by cbv
    rw [hlead'] at hcode'
    exact ⟨c', hc', hcode'⟩

end Registry

end Barcode

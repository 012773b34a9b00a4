import Barcode.Proofs.Registry.Answers
import Barcode.Proofs.Registry.Precedence

/-!
# The override that is chosen

Two searches read a code along the templates of a project. One tries all of them; the other goes
through a list of overrides in order and tries the template under the identifier of each. They
agree: an override applies when the code has a reading under its identifier, and what it looks up
is taken from that reading. So the answer depends on the first such override and on no other.
-/

namespace Barcode

open Sequence
open Text (isDigits isDigits_iff)
open Text.Numeral (Writable digitLimit)

namespace Reading

variable {id text c : Text} {t : Template} {r : Reading} {data : Int}

/-- A payload that leaves two of the digits that can be written is written, hundredfold or not. -/
theorem writable_embeddedData (h : Template.compile id text = .ok t)
    (hm : t.read c = .ok (.accepted r))
    (hsizes : ∀ f ∈ t.fields, ∀ n, f.integerPayload? = some n → n + 2 ≤ digitLimit)
    (hd : r.embeddedData = .ok (some data)) : Writable data := by
  obtain ⟨hsplit, -⟩ := Template.read_eq_accepted_iff.mp hm
  unfold embeddedData at hd
  cases hfind : r.entries.find? (fun e => e.1.integerPayload?.isSome) with
  | none =>
    rw [hfind] at hd
    cases hd
  | some e =>
    obtain ⟨f, s⟩ := e
    have hsome := List.find?_some hfind
    obtain ⟨n, hn⟩ := Option.isSome_iff_exists.mp hsome
    have hmem := List.mem_of_find?_eq_some hfind
    have hf : f ∈ t.fields := Template.fields_of_split? hsplit ▸ List.mem_map_of_mem hmem
    have hdigits := Template.admits_of_split? hsplit hmem
    rw [Field.admits_of_integerPayload? hn] at hdigits
    have hpos := Template.sizes_pos_of_compile h f hf n (Field.mem_sizes_of_integerPayload? hn)
    have hle := hsizes f hf n hn
    have hread := Text.Numeral.read_isDigits hpos (by omega) hdigits
    obtain ⟨hl, hall⟩ := isDigits_iff.mp hdigits
    have hlt : Text.toNat s < 10 ^ n := hl ▸ Text.toNat_lt hall
    have hfits : Text.toNat s * 100 < 10 ^ digitLimit := by
      calc Text.toNat s * 100 < 10 ^ n * 100 := Nat.mul_lt_mul_of_pos_right hlt (by decide)
        _ = 10 ^ (n + 2) := by rw [Nat.pow_add]
        _ ≤ 10 ^ digitLimit := Nat.pow_le_pow_right (by decide) hle
    rw [hfind] at hd
    cases f with
    | embed size =>
      simp only [hread, Except.map, Except.ok.injEq, Option.some.injEq] at hd
      rw [← hd, Text.Numeral.writable_iff]
      exact lt_of_le_of_lt (Nat.le_mul_of_pos_right _ (by decide)) hfits
    | embedHundreds size =>
      simp only [hread, Except.map, Except.ok.injEq, Option.some.injEq] at hd
      rw [← hd]
      exact Text.Numeral.writable_iff.mpr hfits
    | _ => cases hn

end Reading

/-- The identifiers of the templates that read a code. -/
def templateIds (results : List Reading) : List Text := results.map fun r => r.template.id

namespace Registry

variable {s : Registry} {project code : Text} {r : Reading} {o : Override}
  {overrides before after : List Override} {overrides? : Option (List Override)}
  {l : OverrideLookup} {l? : Option OverrideLookup}

section Chosen

variable (hc : s.Compiled) (hs : s.Ordered)
include hc hs

/-- An override reads a code as the registry does under its identifier. -/
theorem reading?_eq_some_iff_mem : s.reading? project code o = some r ↔
    r ∈ s.accepted code project ∧ r.template.id = o.id := by
  rw [reading?_eq_some_iff, mem_accepted_iff hc hs]
  constructor
  · intro h
    obtain ⟨t, ht, hr⟩ := h
    have hid : r.template.id = o.id := by
      rw [template_of_reading? (Template.reading?_eq_some_iff.mpr hr), hc.id_eq ht]
    exact ⟨⟨t, by rwa [hid], hr⟩, hid⟩
  · intro h
    obtain ⟨⟨t, ht, hr⟩, hid⟩ := h
    exact ⟨t, by rwa [← hid], hr⟩

theorem reading?_eq_none_iff : s.reading? project code o = none ↔
    o.id ∉ templateIds (s.accepted code project) := by
  rw [templateIds, List.mem_map, Option.eq_none_iff_forall_ne_some]
  simp only [ne_eq, reading?_eq_some_iff_mem hc hs, not_exists]

theorem winner?_eq_none_iff : s.winner? project code overrides = none ↔
    ∀ o ∈ overrides, o.id ∉ templateIds (s.accepted code project) := by
  rw [winner?, List.findSome?_eq_none_iff]
  simp only [Option.map_eq_none_iff, reading?_eq_none_iff hc hs]

/-- The override that wins is the first one under the identifier of a reading. -/
theorem find?_of_winner? (hw : s.winner? project code overrides = some (o, r)) :
    overrides.find? (fun o => o.id ∈ templateIds (s.accepted code project)) = some o ∧
      r ∈ s.accepted code project ∧ r.template.id = o.id := by
  obtain ⟨before, after, hsplit, hr, hb⟩ := winner?_eq_some_iff.mp hw
  obtain ⟨hmem, hid⟩ := (reading?_eq_some_iff_mem hc hs).mp hr
  refine ⟨List.find?_eq_some_iff_append.mpr ⟨?_, before, after, hsplit, ?_⟩, hmem, hid⟩
  · exact decide_eq_true (List.mem_map.mpr ⟨r, hmem, hid⟩)
  · intro b hbefore
    simpa using (reading?_eq_none_iff hc hs).mp (hb b hbefore)

theorem nodup_templateIds (code project : Text) :
    (templateIds (s.accepted code project)).Nodup :=
  List.pairwise_map.mpr (pairwise_accepted hc hs code project)

theorem lookup_eq_none_iff
    (hl : (s.lookupOverride code project overrides?).outcome = .ok l?) :
    l? = none ↔ ∀ o ∈ overrides?.getD [], o.id ∉ templateIds (s.accepted code project) := by
  have hsome : l?.isSome = (s.winner? project code (overrides?.getD [])).isSome :=
    isSome_of_firstAnswer (firstAnswer_of_outcome hc hl)
  rw [← winner?_eq_none_iff hc hs, ← Option.isNone_iff_eq_none, ← Option.isNone_iff_eq_none,
    ← Option.not_isSome, ← Option.not_isSome, hsome]

theorem exists_chosen (hl : (s.lookupOverride code project overrides?).outcome = .ok (some l)) :
    ∃ o r,
      (overrides?.getD []).find? (fun o => o.id ∈ templateIds (s.accepted code project)) = some o ∧
      r ∈ s.accepted code project ∧ r.template.id = o.id ∧
      l.lookupTemplate = o.lookupTemplate ∧ l.lookupCode = r.lookupCode ∧
      r.embeddedData = .ok l.embeddedData := by
  have hanswer := firstAnswer_of_outcome hc hl
  cases hw : s.winner? project code (overrides?.getD []) with
  | none => cases (firstAnswer_of_none hw).mp hanswer
  | some found =>
    obtain ⟨o, r⟩ := found
    obtain ⟨l', hsome, hcode, hdata, htemplate⟩ := (firstAnswer_of_some hw).mp hanswer
    obtain rfl := Option.some.inj hsome
    obtain ⟨hfind, hmem, hid⟩ := find?_of_winner? hc hs hw
    exact ⟨o, r, hfind, hmem, hid, htemplate, hcode, hdata⟩

/-- What stands behind the override that is chosen, and what has no reading before it, is not
looked at. -/
theorem outcome_lookupOverride_append (ho : o.id ∈ templateIds (s.accepted code project))
    (hb : ∀ b ∈ before, b.id ∉ templateIds (s.accepted code project)) :
    (s.lookupOverride code project (some (before ++ o :: after))).outcome =
      (s.lookupOverride code project (some [o])).outcome := by
  obtain ⟨r, hmem, hid⟩ := List.mem_map.mp ho
  have hr := (reading?_eq_some_iff_mem hc hs).mpr ⟨hmem, hid⟩
  have hwinner : ∀ before after : List Override,
      (∀ b ∈ before, b.id ∉ templateIds (s.accepted code project)) →
      s.winner? project code (before ++ o :: after) = some (o, r) := by
    intro before after hb
    exact winner?_eq_some_iff.mpr
      ⟨before, after, rfl, hr, fun b hm => (reading?_eq_none_iff hc hs).mpr (hb b hm)⟩
  rw [outcome_lookupOverride hc, outcome_lookupOverride hc, Option.getD_some, Option.getD_some,
    hwinner before after hb, show s.winner? project code [o] = some (o, r) from
      hwinner [] [] (by simp)]

end Chosen

/-- Looking an override up never fails on payloads of moderate size. -/
theorem exists_outcome_lookupOverride (hc : s.Compiled)
    (hsizes : ∀ id t, s.template? project id = some t →
      ∀ f ∈ t.fields, ∀ n, f.integerPayload? = some n → n + 2 ≤ digitLimit)
    (htextual : ∀ o ∈ overrides?.getD [], o.Textual) :
    ∃ l?, (s.lookupOverride code project overrides?).outcome = .ok l? := by
  refine (exists_lookupOverride_iff hc fun o r hw => ?_).mpr fun o r hw => ?_
  · obtain ⟨before, after, hsplit, -⟩ := winner?_eq_some_iff.mp hw
    exact htextual o (by rw [hsplit]; simp)
  · obtain ⟨-, -, -, hr, -⟩ := winner?_eq_some_iff.mp hw
    obtain ⟨t, ht, hread⟩ := reading?_eq_some_iff.mp hr
    have hfits := hsizes o.id t ht
    refine ⟨fun n hn => ?_, fun _ data hd =>
      Reading.writable_embeddedData (hc project o.id t ht) hread hfits hd⟩
    rw [template_of_reading? (Template.reading?_eq_some_iff.mpr hread)] at hn
    obtain ⟨f, hf, hn⟩ := List.exists_of_findSome?_eq_some hn
    exact le_trans (Nat.le_add_right n 2) (hfits f hf n hn)

/-- **Looking an override up agrees with reading the code.** Without faults, when the integer
payloads of the project have at most 4298 digits and the overrides send on texts, if anything. No
override is found exactly when none has the identifier of a reading; otherwise the first that has
one is chosen, and its answer is taken from that reading. Overrides behind it, and overrides
without a reading before it, change nothing. -/
theorem lookupOverride_agrees (history : List Operation) (project code : Text)
    (hsizes : ∀ id t, (run history).template? project id = some t →
      ∀ f ∈ t.fields, ∀ n, f.integerPayload? = some n → n ≤ 4298) :
    ∃ results, ((run history).readings code project).outcome = .ok results ∧
      (templateIds results).Nodup ∧
      ∀ overrides?, (∀ o ∈ overrides?.getD [], o.Textual) →
        ∃ l?, ((run history).lookupOverride code project overrides?).outcome = .ok l? ∧
          (l? = none ↔ ∀ o ∈ overrides?.getD [], o.id ∉ templateIds results) ∧
          (∀ l, l? = some l → ∃ o r,
            (overrides?.getD []).find? (fun o => o.id ∈ templateIds results) = some o ∧
            r ∈ results ∧ r.template.id = o.id ∧ l.lookupTemplate = o.lookupTemplate ∧
            l.lookupCode = r.lookupCode ∧ r.embeddedData = .ok l.embeddedData) ∧
          ∀ before o after, overrides?.getD [] = before ++ o :: after →
            o.id ∈ templateIds results → (∀ b ∈ before, b.id ∉ templateIds results) →
            ∀ before' after', (∀ b ∈ before', b.id ∉ templateIds results) →
              ((run history).lookupOverride code project (some (before' ++ o :: after'))).outcome =
                .ok l? := by
  have hc := compiled_run history
  have hs := ordered_run history
  refine ⟨_, outcome_readings hc hs code project, nodup_templateIds hc hs code project, ?_⟩
  intro overrides? htextual
  have hfits : ∀ id t, (run history).template? project id = some t →
      ∀ f ∈ t.fields, ∀ n, f.integerPayload? = some n → n + 2 ≤ digitLimit :=
    fun id t ht f hf n hn => Nat.add_le_add_right (hsizes id t ht f hf n hn) 2
  obtain ⟨l?, hl⟩ := exists_outcome_lookupOverride hc hfits htextual
  refine ⟨l?, hl, lookup_eq_none_iff hc hs hl, ?_, ?_⟩
  · rintro l rfl
    exact exists_chosen hc hs hl
  · intro before o after hsplit ho hb before' after' hb'
    have hsame : (run history).lookupOverride code project overrides? =
        (run history).lookupOverride code project (some (before ++ o :: after)) := by
      rw [lookupOverride_eq_firstOverride, lookupOverride_eq_firstOverride, hsplit,
        Option.getD_some]
    rw [← hl, hsame, outcome_lookupOverride_append hc hs ho hb,
      outcome_lookupOverride_append hc hs ho hb']

/-- The second override is chosen: no template is registered for the first, and the template of
the third reads the code as well. -/
theorem lookupOverride_agrees_second :
    ∃ (history : List Operation) (missing o other : Override) (l : OverrideLookup),
      ((run history).readings "912345".toList ['p']).outcome.map templateIds =
        .ok [['a'], ['b']] ∧
      ((run history).lookupOverride "912345".toList ['p'] (some [missing, o, other])).outcome =
        .ok (some l) ∧
      ((run history).lookupOverride "912345".toList ['p'] (some [o])).outcome = .ok (some l) ∧
      l.lookupTemplate = .text ['y'] := by
  let history : List Operation :=
    [.register ['p'] ⟨['a'], Text.withBraces "9[code:2][embed:3]"⟩,
      .register ['p'] ⟨['b'], Text.withBraces "[code:*]"⟩]
  let missing : Override := { id := ['c'], template := Text.withBraces "[code:*]" }
  let o : Override :=
    { id := ['b'], template := Text.withBraces "[code:*]", lookupTemplate := .text ['y'] }
  let other : Override := { id := ['a'], template := [] }
  have htemplates : (run history).templates ['p'] =
      [(['a'], ⟨['a'], Text.withBraces "9[code:2][embed:3]",
        [.literal ['9'], .code { kind := .fixed, size := 2 }, .embed 3]⟩),
       (['b'], ⟨['b'], Text.withBraces "[code:*]", [.code { kind := .any }]⟩)] := by cbv
  have hids : ((run history).readings "912345".toList ['p']).outcome.map templateIds =
      .ok [['a'], ['b']] := by cbv
  obtain ⟨results, hresults, -, hagree⟩ := lookupOverride_agrees history ['p'] "912345".toList (by
    intro id t ht f hf n hn
    have hmem := Table.mem_of_get? ht
    rw [htemplates] at hmem
    simp only [List.mem_cons, List.not_mem_nil, or_false, Prod.mk.injEq] at hmem
    rcases hmem with ⟨-, rfl⟩ | ⟨-, rfl⟩ <;>
      simp only [List.mem_cons, List.not_mem_nil, or_false] at hf
    · rcases hf with rfl | rfl | rfl <;> cases hn
      decide
    · obtain rfl := hf
      cases hn)
  have hresultIds : templateIds results = [['a'], ['b']] := by
    rw [hresults] at hids
    exact Except.ok.inj hids
  rw [hresultIds] at hagree
  obtain ⟨l?, hl, hnone, hchosen, hstable⟩ := hagree (some [missing, o, other]) (by
    intro x hx
    simp only [Option.getD_some, List.mem_cons, List.not_mem_nil, or_false] at hx
    rcases hx with rfl | rfl | rfl <;> exact ⟨Or.inl rfl, Or.inl rfl⟩)
  obtain ⟨l, rfl⟩ := Option.ne_none_iff_exists'.mp fun h =>
    hnone.mp h o (by simp) (by decide)
  obtain ⟨o', r, hfind, -, -, htemplate, -⟩ := hchosen l rfl
  obtain rfl : o = o' := Option.some.inj hfind
  exact ⟨history, missing, o, other, l, hids, hl,
    hstable [missing] o [other] rfl (by decide) (by decide) [] [] (by simp), htemplate⟩

end Registry

end Barcode

import Barcode.Proofs.Registry.Failure
import Barcode.Proofs.Registry.Loading

/-!
# Which template an override applies through

Overrides and templates are joined by their identifiers. A load leaves under every identifier
the last definition that compiles, and the definitions of the overrides come last, in their
order. An override applies through the template left under its identifier, which is its own text
unless another definition has taken the place.
-/

namespace Barcode

open Document (Value)
open Sequence
open Text.Numeral (Writable digitLimit)

/-- The reading of a code along the override's own text. -/
def Override.ownReading? (code : Text) (o : Override) : Option Reading :=
  (Template.compile o.id o.template).toOption.bind fun t => t.reading? code

/-- The reading of a code along the template that a load leaves under the override's identifier. -/
def Project.storedReading? (p : Project) (code : Text) (o : Override) : Option Reading :=
  (Registry.lastCompiled p.definitions o.id).bind fun t => t.reading? code

/-- The answer is that of the first override with a reading, and there is none without one. -/
def FirstAnswer (reading? : Override → Option Reading) (overrides : List Override)
    (l? : Option OverrideLookup) : Prop :=
  match overrides.findSome? fun o => (reading? o).map (o, ·) with
  | none => l? = none
  | some (o, r) => ∃ l, l? = some l ∧ l.lookupCode = r.lookupCode ∧
      r.embeddedData = .ok l.embeddedData ∧ l.lookupTemplate = o.lookupTemplate

theorem firstAnswer_of_none {reading? : Override → Option Reading} {overrides : List Override}
    {l? : Option OverrideLookup}
    (hw : overrides.findSome? (fun o => (reading? o).map (o, ·)) = none) :
    FirstAnswer reading? overrides l? ↔ l? = none := by
  rw [FirstAnswer, hw]

theorem firstAnswer_of_some {reading? : Override → Option Reading} {overrides : List Override}
    {l? : Option OverrideLookup} {o : Override} {r : Reading}
    (hw : overrides.findSome? (fun o => (reading? o).map (o, ·)) = some (o, r)) :
    FirstAnswer reading? overrides l? ↔ ∃ l, l? = some l ∧ l.lookupCode = r.lookupCode ∧
      r.embeddedData = .ok l.embeddedData ∧ l.lookupTemplate = o.lookupTemplate := by
  rw [FirstAnswer, hw]

namespace Registry

variable {registry : Registry} {project code id : Text} {p : Project} {o : Override}
  {before after : List Definition} {d : Definition} {l? : Option OverrideLookup}
  {overrides : List Override} {overrides? : Option (List Override)}

/-! ## What a load leaves under an identifier -/

theorem lastCompiled_append :
    lastCompiled (before ++ after) id = (lastCompiled after id).or (lastCompiled before id) := by
  rw [lastCompiled, List.reverse_append, List.findSome?_append]
  rfl

/-- A definition is left under its identifier unless another one takes the place: a later one
that compiles, or any that compiles if it does not compile itself. -/
theorem lastCompiled_eq_own
    (ha : ∀ x ∈ after, x.id = d.id → (Template.compile x.id x.template).toOption = none)
    (hb : (∀ x ∈ before, x.id = d.id → (Template.compile x.id x.template).toOption = none) ∨
      (Template.compile d.id d.template).toOption ≠ none) :
    lastCompiled (before ++ d :: after) d.id = (Template.compile d.id d.template).toOption := by
  rw [lastCompiled_append, lastCompiled_cons, lastCompiled_eq_none_iff.mpr ha, if_pos rfl,
    Option.none_or]
  rcases hb with hb | hb
  · rw [lastCompiled_eq_none_iff.mpr hb, Option.or_none]
  · obtain ⟨t, ht⟩ := Option.ne_none_iff_exists'.mp hb
    rw [ht, Option.some_or]

theorem template?_load (h : (empty.load p).fault? = none) (id : Text) :
    (empty.load p).registry.template? p.id id = lastCompiled p.definitions id := by
  rw [registry_load, template?_registerAll, template?_empty, Option.or_none]
  exact fault?_registerAll.mp ((fault?_load empty p).mp h)

theorem compiled_load (p : Project) : (empty.load p).registry.Compiled :=
  compiled_apply compiled_empty (.load p)

theorem reading?_load (h : (empty.load p).fault? = none) (code : Text) (o : Override) :
    (empty.load p).registry.reading? p.id code o = p.storedReading? code o := by
  rw [reading?, template?_load h, Project.storedReading?]

/-! ## What the lookup answers -/

theorem firstAnswer_of_outcome (hs : registry.Compiled)
    (h : (registry.lookupOverride code project overrides?).outcome = .ok l?) :
    FirstAnswer (registry.reading? project code) (overrides?.getD []) l? := by
  rw [outcome_lookupOverride hs] at h
  cases hw : registry.winner? project code (overrides?.getD []) with
  | none =>
    rw [hw] at h
    exact (firstAnswer_of_none hw).mpr (Except.ok.inj h).symm
  | some found =>
    obtain ⟨o, r⟩ := found
    rw [hw] at h
    obtain ⟨l, hl, rfl⟩ := map_eq_ok.mp h
    obtain ⟨hdata, -, hcode, htemplate⟩ := applyOverride_eq_ok.mp hl
    exact (firstAnswer_of_some hw).mpr ⟨l, rfl, hcode, hdata, htemplate⟩

/-- An override applies through its own text unless another definition has taken the place. -/
theorem storedReading?_eq_own {before after : List Override}
    (hsplit : p.overrides = before ++ o :: after)
    (ha : ∀ x ∈ after, x.id = o.id → (Template.compile x.id x.template).toOption = none)
    (hb : (Template.compile o.id o.template).toOption ≠ none ∨
      (∀ d ∈ p.templates, d.id = o.id → (Template.compile d.id d.template).toOption = none) ∧
      ∀ x ∈ before, x.id = o.id → (Template.compile x.id x.template).toOption = none)
    (code : Text) : p.storedReading? code o = o.ownReading? code := by
  let definition (x : Override) : Definition := ⟨x.id, x.template⟩
  have hdefs : p.definitions =
      (p.templates ++ before.map definition) ++ definition o :: after.map definition := by
    rw [Project.definitions, hsplit, List.map_append, List.map_cons, List.append_assoc]
  have hafter : ∀ d ∈ after.map definition, d.id = o.id →
      (Template.compile d.id d.template).toOption = none := by
    intro d hd
    obtain ⟨x, hx, rfl⟩ := List.mem_map.mp hd
    exact ha x hx
  have hown : lastCompiled p.definitions o.id = (Template.compile o.id o.template).toOption := by
    rw [hdefs]
    refine lastCompiled_eq_own (d := definition o) hafter ?_
    rcases hb with hb | ⟨htemplates, hbefore⟩
    · exact Or.inr hb
    · refine Or.inl ?_
      intro d hd
      rcases List.mem_append.mp hd with hd | hd
      · exact htemplates d hd
      · obtain ⟨x, hx, rfl⟩ := List.mem_map.mp hd
        exact hbefore x hx
  rw [Project.storedReading?, hown, Override.ownReading?]

/-- **An override applies through the template that the load leaves under its identifier.** What
is answered is taken from the first override whose stored template accepts the code. There is an
answer when that override sends on texts, its payload is not too wide to be read and not too long
to be written. The stored template is the override's own text, unless a later override under the
identifier compiles, or the own text does not and another definition under the identifier does. -/
theorem lookupOverride_load (hload : (empty.load p).fault? = none) (code : Text) :
    (∀ l?, ((empty.load p).registry.lookupOverride code p.id (some p.overrides)).outcome = .ok l? →
      FirstAnswer (p.storedReading? code) p.overrides l?) ∧
    ((∀ o r, p.overrides.findSome? (fun o => (p.storedReading? code o).map (o, ·)) = some (o, r) →
      o.Textual ∧
      (∀ n, r.template.fields.findSome? Field.integerPayload? = some n → n ≤ digitLimit) ∧
      ((empty.load p).registry.Builds p.id o → ∀ data, r.embeddedData = .ok (some data) →
        Writable data)) →
      ∃ l?,
        ((empty.load p).registry.lookupOverride code p.id (some p.overrides)).outcome = .ok l?) ∧
    (∀ before o after, p.overrides = before ++ o :: after →
      (∀ x ∈ after, x.id = o.id → (Template.compile x.id x.template).toOption = none) →
      ((Template.compile o.id o.template).toOption ≠ none ∨
        (∀ d ∈ p.templates, d.id = o.id → (Template.compile d.id d.template).toOption = none) ∧
        ∀ x ∈ before, x.id = o.id → (Template.compile x.id x.template).toOption = none) →
      p.storedReading? code o = o.ownReading? code) := by
  have hs := compiled_load p
  have hreading : (empty.load p).registry.reading? p.id code = p.storedReading? code :=
    funext fun o => reading?_load hload code o
  have hwinner : (empty.load p).registry.winner? p.id code p.overrides =
      p.overrides.findSome? fun o => (p.storedReading? code o).map (o, ·) := by
    rw [winner?, hreading]
  refine ⟨?_, ?_, ?_⟩
  · intro l? h
    rw [← hreading]
    exact firstAnswer_of_outcome hs h
  · intro h
    rw [← hwinner] at h
    exact (exists_lookupOverride_iff hs fun o r hw => (h o r hw).1).mpr
      fun o r hw => (h o r hw).2
  · intro before o after hsplit ha hb
    exact storedReading?_eq_own hsplit ha hb code

/-- The first override has no text that compiles, so the second one answers. -/
theorem lookupOverride_load_second :
    ∃ p l, (empty.load p).fault? = none ∧
      ((empty.load p).registry.lookupOverride "912345".toList p.id (some p.overrides)).outcome =
        .ok (some l) ∧
      l.lookupCode = "12".toList ∧ l.embeddedData = some 345 ∧ l.lookupTemplate = .text ['x'] := by
  let o : Override :=
    { id := ['b'], template := Text.withBraces "9[code:2][embed:3]",
      lookupTemplate := .text ['x'] }
  let p : Project := ⟨['p'], [], [{ id := ['a'], template := Text.withBraces "[bogus]" }, o]⟩
  let r : Reading := ⟨⟨['b'], Text.withBraces "9[code:2][embed:3]",
      [.literal ['9'], .code { kind := .fixed, size := 2 }, .embed 3]⟩,
    [(.literal ['9'], ['9']), (.code { kind := .fixed, size := 2 }, "12".toList),
      (.embed 3, "345".toList)]⟩
  have hload : (empty.load p).fault? = none := by cbv
  have hfound : p.overrides.findSome? (fun o => (p.storedReading? "912345".toList o).map (o, ·)) =
      some (o, r) := by cbv
  obtain ⟨hanswer, hreturns, -⟩ := lookupOverride_load hload "912345".toList
  have hreturn : ∀ o' r',
      p.overrides.findSome? (fun o => (p.storedReading? "912345".toList o).map (o, ·)) =
        some (o', r') →
      o'.Textual ∧
      (∀ n, r'.template.fields.findSome? Field.integerPayload? = some n → n ≤ digitLimit) ∧
      ((empty.load p).registry.Builds p.id o' → ∀ data, r'.embeddedData = .ok (some data) →
        Writable data) := by
    intro o' r' h
    rw [hfound, Option.some.injEq, Prod.mk.injEq] at h
    obtain ⟨rfl, rfl⟩ := h
    refine ⟨⟨Or.inl rfl, Or.inl rfl⟩, ?_, fun hb => absurd hb (not_builds_of_null (Or.inl rfl))⟩
    intro n hn
    obtain rfl : 3 = n := Option.some.inj hn
    decide
  obtain ⟨l?, hl⟩ := hreturns hreturn
  obtain ⟨l, rfl, hcode, hdata, htemplate⟩ := (firstAnswer_of_some hfound).mp (hanswer l? hl)
  refine ⟨p, l, hload, hl, hcode, ?_, htemplate⟩
  exact (Except.ok.inj hdata).symm

/-! ## Overrides that do not apply through their own texts -/

theorem isSome_of_firstAnswer {reading? : Override → Option Reading}
    (h : FirstAnswer reading? overrides l?) :
    l?.isSome = (overrides.findSome? fun o => (reading? o).map (o, ·)).isSome := by
  cases hw : overrides.findSome? fun o => (reading? o).map (o, ·) with
  | none =>
    rw [(firstAnswer_of_none hw).mp h]
    rfl
  | some found =>
    obtain ⟨o, r⟩ := found
    obtain ⟨l, rfl, -⟩ := (firstAnswer_of_some hw).mp h
    rfl

/-- A document that loads, and a code that is not looked up through the overrides' own texts. -/
def Misapplied (document : Value) (code : Text) : Prop :=
  ∃ p, Project.ofDocument document = .ok p ∧ (empty.load p).fault? = none ∧
    ¬ ∃ l?, ((empty.load p).registry.lookupOverride code p.id (some p.overrides)).outcome = .ok l? ∧
      FirstAnswer (Override.ownReading? code) p.overrides l?

/-- There is an answer although no own text has a reading, or none although one has. -/
theorem misapplied_of_outcome {document : Value} (hdoc : Project.ofDocument document = .ok p)
    (hload : (empty.load p).fault? = none)
    (ho : ((empty.load p).registry.lookupOverride code p.id (some p.overrides)).outcome = .ok l?)
    (hl : (p.overrides.findSome? fun o => (o.ownReading? code).map (o, ·)).isSome = !l?.isSome) :
    Misapplied document code := by
  refine ⟨p, hdoc, hload, ?_⟩
  intro h
  obtain ⟨l?', ho', hf⟩ := h
  rw [ho] at ho'
  obtain rfl := Except.ok.inj ho'
  have hsome := isSome_of_firstAnswer hf
  rw [hl] at hsome
  cases l? <;> cases hsome

theorem misapplied_of_fault {document : Value} (hdoc : Project.ofDocument document = .ok p)
    (hload : (empty.load p).fault? = none)
    (ho : ¬ ∃ l?,
      ((empty.load p).registry.lookupOverride code p.id (some p.overrides)).outcome = .ok l?) :
    Misapplied document code := by
  refine ⟨p, hdoc, hload, ?_⟩
  intro h
  obtain ⟨l?, hl, -⟩ := h
  exact ho ⟨l?, hl⟩

/-- A template of one payload field takes a code of as many digits. -/
theorem reading?_of_payload {t : Template} {f : Field} {n : Nat} (hf : t.fields = [f])
    (hn : f.integerPayload? = some n) (hd : Text.isDigits n code = true) :
    t.reading? code = some ⟨t, [(f, code)]⟩ := by
  have hadm : f.admits code = true := by rw [Field.admits_of_integerPayload? hn, hd]
  have hb : f.isUnbounded = false := by cases f <;> first | rfl | cases hn
  have hslices := Split.slices?_cons_bounded hb hadm [] []
  rw [List.append_nil] at hslices
  rw [Template.reading?_eq_some_iff, Template.read_eq_accepted_iff]
  constructor
  · rw [Template.split?_eq_some_iff]
    refine ⟨[code], ?_, ?_⟩
    · rw [hf, hslices]
      rfl
    · rw [hf]
      rfl
  · intro e he
    obtain rfl := List.mem_singleton.mp he
    cases f <;> first | rfl | cases hn

/-- A single override whose template has one payload field applies to every code of as many
digits, and the lookup fails when the payload cannot be read or written. -/
theorem not_exists_lookup {t : Template} {f : Field} {n : Nat} (hp : p.overrides = [o])
    (ht : (empty.load p).registry.template? p.id o.id = some t) (hf : t.fields = [f])
    (hn : f.integerPayload? = some n) (hd : Text.isDigits n code = true) (ho : o.Textual)
    (hfail : n ≤ digitLimit → (empty.load p).registry.Builds p.id o ∧
      ∃ data, (Reading.mk t [(f, code)]).embeddedData = .ok (some data) ∧ ¬ Writable data) :
    ¬ ∃ l?,
      ((empty.load p).registry.lookupOverride code p.id (some p.overrides)).outcome = .ok l? := by
  have hw : (empty.load p).registry.winner? p.id code p.overrides =
      some (o, ⟨t, [(f, code)]⟩) := by
    rw [hp, winner?, List.findSome?_cons, reading?, ht, Option.bind_some,
      reading?_of_payload hf hn hd]
    rfl
  have hone : ∀ o' r, (empty.load p).registry.winner? p.id code p.overrides = some (o', r) →
      o'.Textual := by
    intro o' r h
    rw [hw, Option.some.injEq, Prod.mk.injEq] at h
    rw [← h.1]
    exact ho
  rw [exists_lookupOverride_iff (compiled_load p) hone]
  intro h
  obtain ⟨hwide, hlong⟩ := h _ _ hw
  obtain ⟨hbuilds, data, hdata, hno⟩ := hfail (hwide n (by rw [hf, List.findSome?_cons, hn]))
  exact hno (hlong hbuilds data hdata)

/-- A payload of hundreds whose digits can be read, but not those of its hundredfold. -/
theorem not_exists_lookup_hundreds {t : Template} {k : Nat} (hp : p.overrides = [o])
    (ht : (empty.load p).registry.template? p.id o.id = some t)
    (hf : t.fields = [.embedHundreds (k + 1)]) (ho : o.Textual)
    (hbuilds : (empty.load p).registry.Builds p.id o) (hk : digitLimit ≤ k + 2) :
    ¬ ∃ l?, ((empty.load p).registry.lookupOverride ('1' :: List.replicate k '0') p.id
      (some p.overrides)).outcome = .ok l? := by
  have hd : Text.isDigits (k + 1) ('1' :: List.replicate k '0') = true := by
    obtain ⟨hlen, hzero⟩ := Text.isDigits_iff.mp (Text.isDigits_zeros k)
    rw [Text.isDigits_iff]
    exact ⟨congrArg (· + 1) hlen, List.forall_mem_cons.mpr ⟨by decide, hzero⟩⟩
  have hvalue : Text.toNat ('1' :: List.replicate k '0') = 10 ^ k := by
    rw [← List.singleton_append, Text.toNat_append, Text.toNat_zeros, List.length_replicate]
    exact Nat.mul_one _
  refine not_exists_lookup hp ht hf rfl hd ho ?_
  intro hle
  refine ⟨hbuilds, ((10 ^ k * 100 : Nat) : Int), ?_, ?_⟩
  · show (Text.Numeral.read ('1' :: List.replicate k '0')).map (fun i => some (i * 100)) = _
    rw [Text.Numeral.read_isDigits (Nat.succ_pos k) hle hd, hvalue]
    rfl
  · rw [Text.Numeral.writable_iff, Nat.not_lt]
    calc 10 ^ digitLimit ≤ 10 ^ (k + 2) := Nat.pow_le_pow_right (by decide) hk
      _ = 10 ^ k * 100 := by rw [Nat.pow_add]

/-- A document with the templates and the price overrides of one project. -/
def projectDocument (templates : List (Text × Value)) (overrides : List (List (String × Value))) :
    Value :=
  .object [("id".toList, .text ['p']), ("codeTemplates".toList, .object templates),
    ("priceOverrideCodes".toList,
      .list (overrides.map fun o => .object (o.map fun member => (member.1.toList, member.2))))]

/-- The texts of the overrides are not what is applied, and each condition for an answer is needed:
a text that does not compile applies through a code template, one with a later override of its
identifier does not apply, and there is no answer when a short code has no length, when a payload
is too wide to be read, and when its hundredfold is too long to be written. -/
theorem misapplied_documents :
    Misapplied (projectDocument [(['a'], .text (Text.withBraces "[code:*]"))]
      [[("id", .text ['a']), ("template", .text (Text.withBraces "[bogus]"))]]) "123".toList ∧
    Misapplied (projectDocument []
      [[("id", .text ['a']), ("template", .text (Text.withBraces "1[code:*]"))],
       [("id", .text ['a']), ("template", .text (Text.withBraces "2[code:*]"))]]) "17".toList ∧
    Misapplied (projectDocument []
      [[("id", .text ['a']), ("template", .text (Text.withBraces "9[code:1][embed:5]")),
        ("transmissionTemplate", .text ['a']), ("transmissionCode", .integer 7)]])
      "9112345".toList ∧
    Misapplied (projectDocument []
      [[("id", .text ['a']), ("template", .text (Text.withBraces "[embed:4301]"))]])
      (List.replicate 4301 '0') ∧
    Misapplied (projectDocument []
      [[("id", .text ['a']), ("template", .text (Text.withBraces "[embed100:4300]")),
        ("transmissionTemplate", .text ['a']), ("transmissionCode", .text ['7'])]])
      ('1' :: List.replicate 4299 '0') := by
  refine ⟨?_, ?_, ?_, ?_, ?_⟩
  · let p : Project := ⟨['p'], [⟨['a'], Text.withBraces "[code:*]"⟩],
      [{ id := ['a'], template := Text.withBraces "[bogus]" }]⟩
    have ho : ((empty.load p).registry.lookupOverride "123".toList p.id
        (some p.overrides)).outcome = .ok (some ⟨"123".toList, .null, .null, none⟩) := by cbv
    exact misapplied_of_outcome (p := p) (by cbv) (by cbv) ho (by cbv)
  · let p : Project := ⟨['p'], [], [{ id := ['a'], template := Text.withBraces "1[code:*]" },
      { id := ['a'], template := Text.withBraces "2[code:*]" }]⟩
    have ho : ((empty.load p).registry.lookupOverride "17".toList p.id (some p.overrides)).outcome =
        .ok none := by cbv
    exact misapplied_of_outcome (p := p) (by cbv) (by cbv) ho (by cbv)
  · let o : Override :=
      { id := ['a'], template := Text.withBraces "9[code:1][embed:5]",
        transmissionTemplate := .text ['a'], transmissionCode := .integer 7 }
    let p : Project := ⟨['p'], [], [o]⟩
    have ho : ((empty.load p).registry.lookupOverride "9112345".toList p.id
        (some p.overrides)).outcome = .error (.noLength .integer) := by cbv
    refine misapplied_of_fault (p := p) (by cbv) (by cbv) ?_
    rw [ho]
    intro h
    obtain ⟨l?, h⟩ := h
    cases h
  · let o : Override := { id := ['a'], template := Text.withBraces "[embed:4301]" }
    let p : Project := ⟨['p'], [], [o]⟩
    let t : Template := ⟨['a'], Text.withBraces "[embed:4301]", [.embed 4301]⟩
    have ht : (empty.load p).registry.template? p.id o.id = some t := by cbv
    refine misapplied_of_fault (p := p) (by cbv) (by cbv) ?_
    refine not_exists_lookup rfl ht rfl rfl (Text.isDigits_zeros 4301) ⟨Or.inl rfl, Or.inl rfl⟩ ?_
    intro hle
    exact absurd hle (by decide)
  · let o : Override :=
      { id := ['a'], template := Text.withBraces "[embed100:4300]",
        transmissionTemplate := .text ['a'], transmissionCode := .text ['7'] }
    let p : Project := ⟨['p'], [], [o]⟩
    let t : Template := ⟨['a'], Text.withBraces "[embed100:4300]", [.embedHundreds 4300]⟩
    have ht : (empty.load p).registry.template? p.id o.id = some t := by cbv
    refine misapplied_of_fault (p := p) (by cbv) (by cbv) ?_
    refine not_exists_lookup_hundreds rfl ht rfl ⟨Or.inr ⟨_, rfl⟩, Or.inr ⟨_, rfl⟩⟩ ?_ (by decide)
    refine ⟨_, _, rfl, rfl, ?_⟩
    show (empty.load p).registry.template? p.id o.id ≠ none
    rw [ht]
    simp

end Registry

end Barcode

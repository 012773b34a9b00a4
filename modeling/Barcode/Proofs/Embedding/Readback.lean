import Barcode.Proofs.Embedding.Lens

/-!
# Reading an embedded payload back

A code that embedding returns is accepted with the payload that was put, in every layout that
embedding is made for. With an EAN check digit the result has thirteen characters whatever the
code had: a code of another length is read back only if a field of any number of characters
before the check digit takes up the difference. The layouts left out are shown to be misread.
-/

namespace Barcode

open Split (Settled width slices?_append_left slices?_append_right admitted_append)
open Text (isDigits isDigits_padZeros padZeros)
open Text.Numeral (Writable digitLimit)

namespace Split

theorem longest_slices?_nil (t : Text) : longest (slices? []) t = some (t, []) := by
  induction t with
  | nil => rfl
  | cons c t ih => rw [longest_cons, ih]; rfl

theorem slices?_singleton {u : Field} (hu : u.isUnbounded = true) (t : Text) :
    slices? [u] t = some [t] := by
  rw [slices?, if_pos hu, longest_slices?_nil]
  rfl

end Split

namespace Reading

variable {id text : Text} {t : Template} {c : Text} {r : Reading} {n m : Nat} {p : Text}

/-- A field of any number of characters stands before the EAN check digit, and the fields before
it take at most the characters that are kept. -/
def Elastic (fields : List Field) : Prop :=
  ∃ front u, fields = front ++ [u, .eanCheck] ∧ (∀ f ∈ front, f.isUnbounded = false) ∧
    u.isUnbounded = true ∧ width front ≤ 12

theorem flaw?_of_isUnbounded {u : Field} (hu : u.isUnbounded = true) (s : Text) :
    r.flaw? (u, s) = .ok none := by
  cases u with
  | code shape =>
    obtain ⟨kind, size, constant⟩ := shape
    obtain rfl : kind = .any := of_decide_eq_true hu
    rfl
  | skip size => rfl
  | _ => cases hu

theorem offset_append {a b b' : List (Field × Text)} {f : Field} (hf : f ∈ a.map Prod.fst) :
    (Reading.mk t (a ++ b)).offset f = (Reading.mk t (a ++ b')).offset f := by
  have hstop : ∀ b, (a ++ b).takeWhile (fun e => e.1 ≠ f) = a.takeWhile fun e => e.1 ≠ f := by
    intro b
    rw [List.takeWhile_append, if_neg]
    intro hl
    obtain ⟨e, he, hef⟩ := List.mem_map.mp hf
    have hall := List.takeWhile_eq_self_iff.mp ((List.takeWhile_prefix _).eq_of_length hl) e he
    exact absurd hef (by simpa using hall)
  rw [offset, offset, hstop b, hstop b']

namespace Embeddable

/-- The check digit that completes the first twelve characters with a new payload. -/
def lastDigit (r : Reading) (n : Nat) (p : Text) : Text :=
  Text.ofNat (Ean.check ((r.checked n p).code.take 12))

/-- In an elastic template the code completed from its first twelve characters is split like the
code with the new payload, but for the last two slices. -/
theorem exists_split_completed (h : Embeddable t c r n) (ho : Elastic t.fields)
    (hp : isDigits n p = true) :
    ∃ l u s s' e, u.isUnbounded = true ∧
      (r.checked n p).entries = l ++ [(u, s), (.eanCheck, e)] ∧
      t.split? (Ean.completed ((r.checked n p).code.take 12)) =
        some ⟨t, l ++ [(u, s'), (.eanCheck, lastDigit r n p)]⟩ := by
  obtain ⟨front, u, hfields, hfront, hu, hw⟩ := ho
  obtain ⟨v, hchk, hv, hcode⟩ := Template.admitted_of_split? (h.sameLayout_checked hp).split
  rw [hfields] at hv
  obtain ⟨w, d, rfl, hwf, hdf⟩ := admitted_append hv
  obtain ⟨s, d, -, hde, rfl⟩ := List.forall₂_cons_left_iff.mp hdf
  obtain ⟨e, d, -, hnil, rfl⟩ := List.forall₂_cons_left_iff.mp hde
  cases hnil
  -- the front keeps its slices, and `u` takes what is left of the twelve characters
  let s' := (s ++ e).take (12 - w.flatten.length)
  have hbody : (r.checked n p).code.take 12 = w.flatten ++ s' := by
    have hle : w.flatten.length ≤ 12 := by
      rw [Split.length_flatten_admitted hfront hwf]
      exact hw
    rw [← hcode, List.flatten_append, List.take_append, List.take_of_length_le hle]
    simp [s']
  have hlast : Split.Admitted [.eanCheck] [lastDigit r n p] :=
    List.Forall₂.cons (Text.isDigits_ofNat_digit (Ean.check_lt _)) List.Forall₂.nil
  have hback : Split.slices? [u, .eanCheck] (s' ++ lastDigit r n p) =
      some [s', lastDigit r n p] := by
    have hr := slices?_append_right (by decide) hlast [u] s'
    rw [Split.slices?_singleton hu] at hr
    simpa using hr
  have hnew : Split.slices? t.fields (Ean.completed ((r.checked n p).code.take 12)) =
      some (w ++ [s', lastDigit r n p]) := by
    rw [Ean.completed, show Text.ofNat (Ean.check ((r.checked n p).code.take 12)) =
      lastDigit r n p from rfl, hbody, hfields, List.append_assoc,
      slices?_append_left hfront hwf, hback]
    rfl
  have hzip : ∀ x y : Text, t.fields.zip (w ++ [x, y]) =
      front.zip w ++ [(u, x), (.eanCheck, y)] := by
    intro x y
    rw [hfields, List.zip_append hwf.length_eq]
    rfl
  refine ⟨front.zip w, u, s, s', e, hu, ?_, ?_⟩
  · rw [hchk]
    exact hzip s e
  · rw [← hzip]
    exact Template.split?_eq_some_iff.mpr ⟨_, hnew, rfl⟩

/-- In an elastic template the first twelve characters are completed to a code that is read. -/
theorem exists_read_completed (h : Embeddable t c r n) (hs : r.Sound) (ho : Elastic t.fields)
    (h12 : 12 ≤ c.length) (hp : isDigits n p = true) :
    ∃ r', t.read (Ean.completed ((r.checked n p).code.take 12)) = .ok (.accepted r') ∧
      r'.embeddedData = .ok (some (Text.toNat p : Int)) := by
  obtain ⟨l, u, s, s', e, hu, hchk, hsplit⟩ := h.exists_split_completed ho hp
  have hec : .eanCheck ∈ t.fields := by
    obtain ⟨front, _, hfields, -⟩ := ho
    rw [hfields]
    simp
  have hd := h.isDigits_checked hs hec h12 hp
  have hsame := h.sameLayout_checked hp
  have hl : ∀ f ∈ t.fields, f.isUnbounded = false → f ≠ .eanCheck → f ∈ l.map Prod.fst := by
    intro f hf hfu hfe
    rw [← Template.fields_of_split? hsplit, List.map_append, List.mem_append] at hf
    rcases hf with hm | hm
    · exact hm
    · rcases List.mem_cons.mp hm with rfl | hm
      · exact absurd (hfu.symm.trans hu) (by decide)
      · exact absurd (List.mem_singleton.mp hm) hfe
  have hnew : Embeddable t (Ean.completed ((r.checked n p).code.take 12))
      ⟨t, l ++ [(u, s'), (.eanCheck, lastDigit r n p)]⟩ n := by
    refine ⟨h.lawful, hsplit, h.first, h.pos, h.readable, h.settled, ?_⟩
    intro hc
    have hoff := h.offset hc
    rw [← hsame.offset] at hoff
    rw [← hoff, offset_append (hl _ hc rfl (by decide))]
    show _ = Reading.offset (r.checked n p) .payloadCheck
    rw [Reading.offset, Reading.offset, hchk]
  have hpay : (.embed n, p) ∈ l ++ [(u, s'), (.eanCheck, lastDigit r n p)] := by
    have hm : (.embed n, p) ∈ (r.checked n p).entries := h.payload_mem_checked
    rw [hchk, List.mem_append] at hm
    rcases hm with hm | hm
    · exact List.mem_append_left _ hm
    · rcases List.mem_cons.mp hm with heq | hm
      · obtain rfl : Field.embed n = u := congrArg Prod.fst heq
        cases hu
      · cases List.mem_singleton.mp hm
  refine ⟨_, Template.read_eq_accepted_iff.mpr ⟨hsplit, ?_⟩, hnew.embeddedData hpay⟩
  intro x hx
  rcases List.mem_append.mp hx with hm | hm
  · have hne : x.1 ≠ .eanCheck := by
      intro heq
      have hl := hnew.lawful_entries
      rw [List.map_append] at hl
      exact hl.purpose_ne (List.mem_map_of_mem hm) (by simp : Field.eanCheck ∈ _) rfl (by rw [heq])
    have hxc : x ∈ (r.checked n p).entries := by
      rw [hchk]
      exact List.mem_append_left _ hm
    rcases mem_checked hxc with rfl | rfl | ⟨h0, -, hpc⟩
    · have hc : .payloadCheck ∈ t.fields := by
        rw [← hnew.fields]
        exact List.mem_map_of_mem hx
      exact hnew.flaw?_payloadDigit hc hpay
    · rfl
    · rw [flaw?_of_ne hpc hne]
      exact hs x h0
  · rcases List.mem_cons.mp hm with rfl | hm
    · exact flaw?_of_isUnbounded hu s'
    · rw [List.mem_singleton.mp hm]
      exact flaw?_of_completed hd (Template.code_of_split? hsplit)

theorem length_of_eanCheck (h : Embeddable t c r n) (hs : r.Sound) (he : .eanCheck ∈ t.fields) :
    c.length ∈ [7, 8, 12, 13, 14] := by
  obtain ⟨ean, hean⟩ := h.exists_ean hs he
  exact (Ean.parse?_eq_some hean).2

/-- A code of fewer than twelve characters is not completed. -/
theorem embed_eq_none_of_short (h : Embeddable t c r n) (he : .eanCheck ∈ t.fields)
    (hl : c.length < 12) (hm : m < 10 ^ n) : r.embed m = .ok none := by
  have hp : isDigits n (padZeros n (Text.ofNat m)) = true := isDigits_padZeros h.pos hm
  have hlen := h.length_checked hp
  rw [h.embed_eq_checked hm, if_pos he, Ean.ean13?_eq_none_of_length]
  · rfl
  · rw [List.length_take]; omega
  · rw [List.length_take]; omega

end Embeddable

/-- **No embedded code is misread in a settled layout.** The first integer payload is the plain
one, the check digit of the payload is at place 6, and a code with an EAN check digit has neither
twelve nor fourteen characters unless the template is elastic. -/
theorem exists_read_of_embed (hc : Template.compile id text = .ok t)
    (hfirst : t.fields.find? (fun f => f.integerPayload?.isSome) = some (.embed n))
    (hn : n ≤ digitLimit) (hset : Settled Field.isRenewed t.fields)
    (hm : t.read c = .ok (.accepted r))
    (hi : .payloadCheck ∈ t.fields → r.offset .payloadCheck = 6)
    (hlen : .eanCheck ∈ t.fields → (c.length ≠ 12 ∧ c.length ≠ 14) ∨ Elastic t.fields)
    {P : Int} (hP : 0 ≤ P ∧ P < 10 ^ n) {c' : Text} (hembed : r.embed P = .ok (some c')) :
    ∃ r', t.read c' = .ok (.accepted r') ∧ r'.embeddedData = .ok (some P) := by
  obtain ⟨hsplit, hs⟩ := Template.read_eq_accepted_iff.mp hm
  have h : Embeddable t c r n := embeddable_of_compile hc hfirst hn hset hsplit hi
  obtain ⟨m, rfl⟩ := Int.eq_ofNat_of_zero_le hP.1
  have hlt : m < 10 ^ n := by exact_mod_cast hP.2
  have hp : isDigits n (padZeros n (Text.ofNat m)) = true := isDigits_padZeros h.pos hlt
  by_cases h13 : .eanCheck ∈ t.fields → c.length = 13
  · obtain rfl := Option.some.inj
      (Except.ok.inj ((h.embed_eq_renewed hs h13 hlt).symm.trans hembed))
    exact ⟨_, h.read_put hs h13 hlt⟩
  · -- the code is shorter or longer than the one that embedding returns
    obtain ⟨he, hne⟩ := Classical.not_imp.mp h13
    have hmem := h.length_of_eanCheck hs he
    simp only [List.mem_cons, List.not_mem_nil, or_false] at hmem
    by_cases hshort : c.length < 12
    · rw [h.embed_eq_none_of_short he hshort hlt] at hembed
      cases hembed
    · have hel : Elastic t.fields := by
        rcases hlen he with hno | hel
        · omega
        · exact hel
      rw [h.embed_eq_checked hlt, if_pos he,
        Ean.ean13?_of_twelve (h.isDigits_checked hs he (by omega) hp)] at hembed
      obtain rfl := Option.some.inj (Except.ok.inj hembed)
      obtain ⟨r', hread, hdata⟩ := h.exists_read_completed hs hel (by omega) hp
      refine ⟨r', hread, ?_⟩
      rw [hdata, Text.toNat_padZeros, Text.toNat_ofNat]

/-- An in-store layout with any number of characters before the EAN check digit. -/
def elastic : Template :=
  ⟨[], Text.withBraces "2[_:5][i][embed:5][_:*][ec]",
    [.literal ['2'], .skip (some 5), .payloadCheck, .embed 5, .skip none, .eanCheck]⟩

/-- A code of fourteen characters, read back although embedding leaves thirteen of them. -/
theorem exists_read_of_embed_elastic :
    ∃ r r', Template.compile elastic.id elastic.text = .ok elastic ∧
      elastic.read "29577830007455".toList = .ok (.accepted r) ∧
      r.embed 12345 = .ok (some "2957788123453".toList) ∧
      elastic.read "2957788123453".toList = .ok (.accepted r') ∧
      r'.embeddedData = .ok (some 12345) := by
  let r : Reading := ⟨elastic, [(.literal ['2'], "2".toList), (.skip (some 5), "95778".toList),
    (.payloadCheck, "3".toList), (.embed 5, "00074".toList), (.skip none, "5".toList),
    (.eanCheck, "5".toList)]⟩
  have hc : Template.compile elastic.id elastic.text = .ok elastic := by cbv
  have hfirst : elastic.fields.find? (fun f => f.integerPayload?.isSome) = some (.embed 5) := rfl
  have hset : Settled Field.isRenewed elastic.fields := Split.settled_of_countP_le_one (by decide)
  have hm : elastic.read "29577830007455".toList = .ok (.accepted r) := by cbv
  have hel : Elastic elastic.fields :=
    ⟨[.literal ['2'], .skip (some 5), .payloadCheck, .embed 5], .skip none, rfl, by decide, rfl,
      by decide⟩
  have hembed : r.embed 12345 = .ok (some "2957788123453".toList) := by cbv
  obtain ⟨r', hread, hdata⟩ := exists_read_of_embed hc hfirst (by decide) hset hm (fun _ => rfl)
    (fun _ => Or.inr hel) ⟨by decide, by decide⟩ hembed
  exact ⟨r, r', hc, hm, hembed, hread, hdata⟩

/-- A code with the payload is returned, but it is not read with that payload. -/
def Misread (text c : Text) (P : Nat) : Prop :=
  ∃ t r c' n, Template.compile [] text = .ok t ∧ .embed n ∈ t.fields ∧ n ≤ digitLimit ∧
    P < 10 ^ n ∧ t.read c = .ok (.accepted r) ∧ r.embed P = .ok (some c') ∧
    ∀ r', t.read c' = .ok (.accepted r') → r'.embeddedData ≠ .ok (some (P : Int))

/-- Each condition on the layout is needed: payloads are misread after a payload in hundreds,
with their check digit in another place, next to a digit in an unsettled place, and with an EAN
check digit in codes of twelve and of fourteen characters. -/
theorem misread_layouts :
    Misread (Text.withBraces "[embed100:1][embed:1]") "12".toList 5 ∧
    Misread (Text.withBraces "[embed:5][i]") "000743".toList 12345 ∧
    Misread (Text.withBraces "[code:*]5[embed:1][_:*]") "512".toList 5 ∧
    Misread (Text.withBraces "[code:6][embed:5][ec]") "123456000740".toList 12345 ∧
    Misread (Text.withBraces "[code:8][embed:5][ec]") "12345678000743".toList 12345 := by
  refine ⟨?_, ?_, ?_, ?_, ?_⟩
  · refine ⟨⟨[], _, [.embedHundreds 1, .embed 1]⟩,
      ⟨_, [(.embedHundreds 1, ['1']), (.embed 1, ['2'])]⟩, "15".toList, 1, by cbv, by simp,
      by decide, by decide, rfl, rfl, ?_⟩
    intro r' h hd
    cases h
    cases hd
  · refine ⟨⟨[], _, [.embed 5, .payloadCheck]⟩,
      ⟨_, [(.embed 5, "00074".toList), (.payloadCheck, ['3'])]⟩, "1234538".toList, 5, by cbv,
      by simp, by decide, by decide, rfl, rfl, ?_⟩
    intro r' h
    cases h
  · refine ⟨⟨[], _, [.code { kind := .any }, .literal ['5'], .embed 1, .skip none]⟩,
      ⟨_, [(.code { kind := .any }, []), (.literal ['5'], ['5']), (.embed 1, ['1']),
        (.skip none, ['2'])]⟩, "552".toList, 1, by cbv, by simp, by decide, by decide, rfl, rfl, ?_⟩
    intro r' h hd
    cases h
    cases hd
  · refine ⟨⟨[], _, [.code { kind := .fixed, size := 6 }, .embed 5, .eanCheck]⟩,
      ⟨_, [(.code { kind := .fixed, size := 6 }, "123456".toList), (.embed 5, "00074".toList),
        (.eanCheck, ['0'])]⟩, "1234561234508".toList, 5, by cbv, by simp, by decide, by decide, rfl,
      rfl, ?_⟩
    intro r' h
    cases h
  · refine ⟨⟨[], _, [.code { kind := .fixed, size := 8 }, .embed 5, .eanCheck]⟩,
      ⟨_, [(.code { kind := .fixed, size := 8 }, "12345678".toList), (.embed 5, "00074".toList),
        (.eanCheck, ['3'])]⟩, "1234567812342".toList, 5, by cbv, by simp, by decide, by decide, rfl,
      rfl, ?_⟩
    intro r' h
    cases h

end Reading

end Barcode

import Barcode.Proofs.Embedding.Update

/-!
# The laws of embedding

Embedding and reading obey the laws of a lens between codes and payloads: what is put is what
is read, putting what was read changes nothing, and the last payload put counts. The laws are
those of renewal; the layout they need is the one in which the renewed code is accepted.
-/

namespace Barcode

open Split (Settled settled_of_countP_le_one)
open Text (isDigits isDigits_padZeros padZeros)
open Text.Numeral (Writable digitLimit)

namespace Reading

variable {id text : Text} {t : Template} {c : Text} {r : Reading} {n m : Nat} {p : Text}

theorem embeddable_of_compile (hc : Template.compile id text = .ok t)
    (hfirst : t.fields.find? (fun f => f.integerPayload?.isSome) = some (.embed n))
    (hn : n ≤ digitLimit) (hp : Settled Field.isRenewed t.fields) (hs : t.split? c = some r)
    (hi : .payloadCheck ∈ t.fields → r.offset .payloadCheck = 6) : Embeddable t c r n := by
  have hpos : 0 < n := by
    have hm := List.mem_of_find?_eq_some hfirst
    exact Template.sizes_pos_of_compile hc _ hm n (by simp [Field.sizes])
  exact ⟨Template.lawful_of_compile hc, hs, hfirst, hpos, hn, hp, hi⟩

namespace Embeddable

/-- The entries of a reading of digits are those of some number. -/
theorem exists_number (h : Embeddable t c r n) :
    ∃ m : Nat, m < 10 ^ n ∧ (.embed n, padZeros n (Text.ofNat m)) ∈ r.entries := by
  obtain ⟨before, p, after, he, -, -, -⟩ := h.exists_payload
  have hm : (.embed n, p) ∈ r.entries := by rw [he]; simp
  have hp := h.payload_slice hm
  obtain ⟨hl, hd⟩ := Text.isDigits_iff.mp hp
  refine ⟨Text.toNat p, ?_, ?_⟩
  · have hlt := Text.toNat_lt hd
    rwa [hl] at hlt
  · rw [Text.padZeros_ofNat_toNat h.pos hp]
    exact hm

theorem read_put (h : Embeddable t c r n) (hs : r.Sound)
    (h13 : .eanCheck ∈ t.fields → c.length = 13) (hm : m < 10 ^ n) :
    t.read (r.renewed n (padZeros n (Text.ofNat m))).code =
        .ok (.accepted (r.renewed n (padZeros n (Text.ofNat m)))) ∧
      (r.renewed n (padZeros n (Text.ofNat m))).embeddedData = .ok (some (m : Int)) := by
  have hp : isDigits n (padZeros n (Text.ofNat m)) = true := isDigits_padZeros h.pos hm
  refine ⟨h.read_renewed hs h13 hp, ?_⟩
  rw [h.embeddedData_renewed hp, Text.toNat_padZeros, Text.toNat_ofNat]

/-- A renewed reading takes a further payload as the old one does. -/
theorem embed_renewed (h : Embeddable t c r n) (hs : r.Sound)
    (h13 : .eanCheck ∈ t.fields → c.length = 13) (hp : isDigits n p = true) {Q : Int}
    (hw : Writable Q) : (r.renewed n p).embed Q = r.embed Q := by
  have hnew := h.embeddable_renewed hp
  have hlen : .eanCheck ∈ t.fields → (r.renewed n p).code.length = 13 := by
    intro he
    rw [(h.sameLayout_renewed hp).length, Template.code_of_split? h.split, h13 he]
  by_cases hQ : 0 ≤ Q ∧ Q < 10 ^ n
  · obtain ⟨m, rfl⟩ := Int.eq_ofNat_of_zero_le hQ.1
    have hm : m < 10 ^ n := by exact_mod_cast hQ.2
    rw [hnew.embed_eq_renewed (h.sound_renewed hs h13 hp) hlen hm, h.embed_eq_renewed hs h13 hm,
      h.renewed_renewed h13 (isDigits_padZeros h.pos hm)]
  · rw [hnew.embed_eq_none hw hQ, h.embed_eq_none hw hQ]

/-- Putting the payload that a reading has gives the code back. -/
theorem embed_self (h : Embeddable t c r n) (hs : r.Sound)
    (h13 : .eanCheck ∈ t.fields → c.length = 13) :
    ∃ m : Nat, r.embeddedData = .ok (some (m : Int)) ∧ r.embed m = .ok (some c) := by
  obtain ⟨m, hm, he⟩ := h.exists_number
  refine ⟨m, ?_, ?_⟩
  · rw [h.embeddedData he, Text.toNat_padZeros, Text.toNat_ofNat]
  · rw [h.embed_eq_renewed hs h13 hm, h.renewed_self hs h13 he, Template.code_of_split? h.split]

end Embeddable

/-- **Embedding is a lens.** A payload that can be written is embedded exactly when it fits;
the code it gives is accepted with that payload and with the same slices elsewhere, and takes
a further payload as the old code does; the payload of a code gives the code back. -/
theorem embed_lens (hc : Template.compile id text = .ok t)
    (hfirst : t.fields.find? (fun f => f.integerPayload?.isSome) = some (.embed n))
    (hn : n ≤ digitLimit) (hu : t.fields.countP Field.isUnbounded ≤ 1)
    (hm : t.read c = .ok (.accepted r))
    (hi : .payloadCheck ∈ t.fields → r.offset .payloadCheck = 6)
    (h13 : .eanCheck ∈ t.fields → c.length = 13) :
    (∀ P, Writable P →
      if 0 ≤ P ∧ P < 10 ^ n then ∃ c', r.embed P = .ok (some c') else r.embed P = .ok none) ∧
    (∀ P c', Writable P → r.embed P = .ok (some c') →
      ∃ r', t.read c' = .ok (.accepted r') ∧ r'.embeddedData = .ok (some P) ∧
        List.Forall₂ (fun e e' : Field × Text =>
          e'.1 = e.1 ∧ (e.1.isRenewed = false → e'.2 = e.2)) r.entries r'.entries ∧
        ∀ Q, Writable Q → r'.embed Q = r.embed Q) ∧
    ∃ P, r.embeddedData = .ok (some P) ∧ r.embed P = .ok (some c) := by
  obtain ⟨hsplit, hs⟩ := Template.read_eq_accepted_iff.mp hm
  have h : Embeddable t c r n :=
    embeddable_of_compile hc hfirst hn (settled_of_countP_le_one hu) hsplit hi
  refine ⟨?_, ?_, ?_⟩
  · intro P hw
    by_cases hP : 0 ≤ P ∧ P < 10 ^ n
    · rw [if_pos hP]
      obtain ⟨m, rfl⟩ := Int.eq_ofNat_of_zero_le hP.1
      exact ⟨_, h.embed_eq_renewed hs h13 (by exact_mod_cast hP.2)⟩
    · rw [if_neg hP]
      exact h.embed_eq_none hw hP
  · intro P c' hw hembed
    have hP : 0 ≤ P ∧ P < 10 ^ n := by
      by_contra hout
      rw [h.embed_eq_none hw hout] at hembed
      cases hembed
    obtain ⟨m, rfl⟩ := Int.eq_ofNat_of_zero_le hP.1
    have hlt : m < 10 ^ n := by exact_mod_cast hP.2
    have hp : isDigits n (padZeros n (Text.ofNat m)) = true := isDigits_padZeros h.pos hlt
    obtain rfl := Option.some.inj
      (Except.ok.inj ((h.embed_eq_renewed hs h13 hlt).symm.trans hembed))
    obtain ⟨hread, hdata⟩ := h.read_put hs h13 hlt
    exact ⟨_, hread, hdata, (h.sameLayout_renewed hp).elsewhere,
      fun Q hQ => h.embed_renewed hs h13 hp hQ⟩
  · obtain ⟨m, hdata, hself⟩ := h.embed_self hs h13
    exact ⟨m, hdata, hself⟩

/-- An in-store EAN-13 with both check digits. -/
def instore : Template :=
  ⟨"instore".toList, Text.withBraces "2[code:5][i][embed:5][ec]",
    [.literal ['2'], .code { kind := .fixed, size := 5 }, .payloadCheck, .embed 5, .eanCheck]⟩

theorem embed_lens_instore :
    ∃ r, Template.compile instore.id instore.text = .ok instore ∧
      instore.read "2957783000742".toList = .ok (.accepted r) ∧
      ∃ P, r.embeddedData = .ok (some P) ∧ r.embed P = .ok (some "2957783000742".toList) := by
  let r : Reading := ⟨instore, [(.literal ['2'], "2".toList),
    (.code { kind := .fixed, size := 5 }, "95778".toList), (.payloadCheck, "3".toList),
    (.embed 5, "00074".toList), (.eanCheck, "2".toList)]⟩
  have hc : Template.compile instore.id instore.text = .ok instore := by cbv
  have hm : instore.read "2957783000742".toList = .ok (.accepted r) := rfl
  have hfirst : instore.fields.find? (fun f => f.integerPayload?.isSome) = some (.embed 5) := rfl
  refine ⟨r, hc, hm, ?_⟩
  exact (embed_lens hc hfirst (by decide) (by decide) hm (fun _ => rfl) (fun _ => rfl)).2.2

end Reading

end Barcode

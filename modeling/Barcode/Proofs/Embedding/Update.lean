import Barcode.Proofs.Embedding.Renewal

/-!
# Embedding renews a reading

In the layout that embedding is made for, a payload that fits is embedded by renewing the
reading: the code returned is the renewed one, and it is accepted with the renewed reading,
which is in that layout again.
-/

namespace Barcode

open Sequence
open Ean (payloadDigit isDigits_payloadDigit)
open Text (isDigits isDigits_iff isDigits_padZeros padZeros)
open Text.Numeral (Writable digitLimit)

namespace Reading

variable {r : Reading} {n : Nat}

/-! ## Embedding into a single payload field -/

/-- A payload that is negative or too wide is refused before anything can fail. -/
theorem embed_of_not_fits (hs : r.payloadSizes = [n]) (hpos : 0 < n) {P : Int} (hw : Writable P)
    (hout : ¬ (0 ≤ P ∧ P < 10 ^ n)) : r.embed P = .ok none := by
  unfold Reading.embed
  rw [hs, List.getLast?_singleton]
  simp only
  rw [bind_eq_ok]
  by_cases hneg : P < 0
  · refine ⟨_, Text.Numeral.write_negative hw hneg, ?_⟩
    rw [if_pos (by simp [hneg])]
    rfl
  · obtain ⟨m, rfl⟩ := Int.eq_ofNat_of_zero_le (by omega : 0 ≤ P)
    refine ⟨_, Text.Numeral.write_natCast hw, ?_⟩
    have hwide : n < (Text.ofNat m).length := by
      by_contra hle
      have hlt := (Text.length_ofNat_le_iff hpos).mp (by omega : (Text.ofNat m).length ≤ n)
      exact hout ⟨by omega, by exact_mod_cast hlt⟩
    rw [if_pos (by simp [hwide])]
    rfl

/-- A payload that fits is put into its field, with its check digit at place 6. -/
theorem embed_of_fits (hs : r.payloadSizes = [n]) {m : Nat} (hw : Writable m)
    (hfits : (Text.ofNat m).length ≤ n) :
    r.embed m = (do
      let checked ←
        if r.has .payloadCheck then do
          let digit ← Ean.payloadCheck (padZeros n (Text.ofNat m))
          pure ((r.replacePayload (Text.ofNat m)).take 6 ++ Text.ofNat digit ++
            (r.replacePayload (Text.ofNat m)).drop 7)
        else pure (r.replacePayload (Text.ofNat m))
      if r.has .eanCheck then return (Ean.ean13? (checked.take 12)).map Ean.Code.text
      else return some checked) := by
  have hroom : (decide ((m : Int) < 0) || [n].any fun size => decide (size < (Text.ofNat m).length))
      = false := by
    have : ¬ n < (Text.ofNat m).length := by omega
    simp [this]
  unfold Reading.embed
  rw [hs, List.getLast?_singleton]
  simp only
  rw [Text.Numeral.write_natCast hw, ok_bind, hroom, if_neg Bool.false_ne_true]

end Reading

namespace Reading.Embeddable

variable {t : Template} {c : Text} {r : Reading} {n m : Nat} {p q : Text}

theorem exists_payloadDigit (h : Embeddable t c r n) (hc : .payloadCheck ∈ t.fields)
    (hp : isDigits n p = true) :
    ∃ d, Ean.payloadCheck p = .ok d ∧ payloadDigit p = Text.ofNat d := by
  rw [h.five hc] at hp
  obtain ⟨d, hd⟩ := Ean.exists_payloadCheck hp
  exact ⟨d, hd, Ean.payloadDigit_eq hd⟩

/-! ## The code with a payload and its check digit -/

theorem sameLayout_put_embed (h : Embeddable t c r n) (hp : isDigits n p = true) :
    SameLayout t r (r.put (.embed n) p) :=
  sameLayout_put h.split h.lawful h.settled rfl hp

theorem sameLayout_checked (h : Embeddable t c r n) (hp : isDigits n p = true) :
    SameLayout t r (r.checked n p) := by
  have h1 := h.sameLayout_put_embed hp
  exact h1.trans (sameLayout_put h1.split h.lawful h.settled rfl (isDigits_payloadDigit p))

theorem sameLayout_renewed (h : Embeddable t c r n) (hp : isDigits n p = true) :
    SameLayout t r (r.renewed n p) := by
  have h2 := h.sameLayout_checked hp
  exact h2.trans (sameLayout_put h2.split h.lawful h.settled rfl
    (Text.isDigits_ofNat_digit (Ean.check_lt _)))

theorem length_checked (h : Embeddable t c r n) (hp : isDigits n p = true) :
    (r.checked n p).code.length = c.length := by
  rw [(h.sameLayout_checked hp).length, Template.code_of_split? h.split]

theorem checked_of_not_mem (h : Embeddable t c r n) (hc : .payloadCheck ∉ t.fields) :
    r.checked n p = r.put (.embed n) p := by
  apply put_of_not_mem
  rw [fields_put, h.fields]
  exact hc

/-- The check digit of the payload takes the place that embedding puts it at. -/
theorem code_checked (h : Embeddable t c r n) (hc : .payloadCheck ∈ t.fields)
    (hp : isDigits n p = true) :
    (r.checked n p).code = (r.put (.embed n) p).code.take 6 ++ payloadDigit p ++
      (r.put (.embed n) p).code.drop 7 := by
  have h1 := h.sameLayout_put_embed hp
  obtain ⟨before, s, after, he, hb, ha, hlen⟩ := exists_slice h1.split h.lawful hc rfl
  have hw : Field.payloadCheck.width = 1 := rfl
  rw [checked, code_put he hb ha, h1.offset, h.offset hc, hlen, hw]

/-! ## What embedding returns -/

theorem length_digits (h : Embeddable t c r n) (hm : m < 10 ^ n) :
    (Text.ofNat m).length ≤ n :=
  (Text.length_ofNat_le_iff h.pos).mpr hm

/-- A payload that is negative or too wide is not embedded. -/
theorem embed_eq_none (h : Embeddable t c r n) {P : Int} (hw : Writable P)
    (hout : ¬ (0 ≤ P ∧ P < 10 ^ n)) : r.embed P = .ok none :=
  embed_of_not_fits h.payloadSizes h.pos hw hout

theorem embed_eq_checked (h : Embeddable t c r n) (hm : m < 10 ^ n) :
    r.embed m =
      if .eanCheck ∈ t.fields then
        .ok ((Ean.ean13? ((r.checked n (padZeros n (Text.ofNat m))).code.take 12)).map
          Ean.Code.text)
      else .ok (some (r.checked n (padZeros n (Text.ofNat m))).code) := by
  have hlen := h.length_digits hm
  have hw : Writable m := by
    rw [Writable, Int.natAbs_natCast]
    exact hlen.trans h.readable
  have hp : isDigits n (padZeros n (Text.ofNat m)) = true := isDigits_padZeros h.pos hm
  rw [embed_of_fits h.payloadSizes hw hlen, h.replacePayload]
  -- both checks are made on the code with the new payload
  by_cases hc : .payloadCheck ∈ t.fields
  · obtain ⟨d, hd, hdigit⟩ := h.exists_payloadDigit hc hp
    rw [if_pos ((h.has_iff _).mpr hc), h.code_checked hc hp, hdigit, hd, ok_bind]
    simp only [pure, Except.pure, ok_bind, h.has_iff]
  · rw [if_neg (fun hh => hc ((h.has_iff _).mp hh)), h.checked_of_not_mem hc]
    simp only [pure, Except.pure, ok_bind, h.has_iff]

/-! ## The renewed code -/

theorem renewed_of_not_mem (h : Embeddable t c r n) (he : .eanCheck ∉ t.fields) :
    r.renewed n p = r.checked n p := by
  apply put_of_not_mem
  rw [checked, fields_put, fields_put, h.fields]
  exact he

theorem code_renewed (h : Embeddable t c r n) (he : .eanCheck ∈ t.fields) (h13 : c.length = 13)
    (hp : isDigits n p = true) :
    (r.renewed n p).code = Ean.completed ((r.checked n p).code.take 12) := by
  have h2 := h.sameLayout_checked hp
  have hlen := h.length_checked hp
  have hoff := offset_eanCheck h2.split h.lawful he
  obtain ⟨before, s, after, hsplit, hb, ha, hs⟩ := exists_slice h2.split h.lawful he rfl
  have hw : Field.eanCheck.width = 1 := rfl
  have h12 : (r.checked n p).offset .eanCheck = 12 := by omega
  rw [renewed, code_put hsplit hb ha, h12, hs, hw, List.drop_eq_nil_of_le (by omega),
    List.append_nil]
  rfl

theorem mem_checked {e : Field × Text} (he : e ∈ (r.checked n p).entries) :
    e = (.payloadCheck, payloadDigit p) ∨ e = (.embed n, p) ∨
      (e ∈ r.entries ∧ e.1 ≠ .embed n ∧ e.1 ≠ .payloadCheck) := by
  rcases mem_put he with rfl | ⟨h1, hc⟩
  · exact Or.inl rfl
  · rcases mem_put h1 with rfl | ⟨h0, hne⟩
    · exact Or.inr (Or.inl rfl)
    · exact Or.inr (Or.inr ⟨h0, hne, hc⟩)

theorem payload_mem_checked (h : Embeddable t c r n) : (.embed n, p) ∈ (r.checked n p).entries := by
  apply mem_put_of_ne _ (by simp)
  apply mem_put_of_mem
  rw [h.fields]
  exact h.embed_mem

theorem payload_mem_renewed (h : Embeddable t c r n) : (.embed n, p) ∈ (r.renewed n p).entries :=
  mem_put_of_ne h.payload_mem_checked (by simp)

theorem embeddable_renewed (h : Embeddable t c r n) (hp : isDigits n p = true) :
    Embeddable t (r.renewed n p).code (r.renewed n p) n := by
  have h3 := h.sameLayout_renewed hp
  refine ⟨h.lawful, h3.split, h.first, h.pos, h.readable, h.settled, fun hc => ?_⟩
  rw [h3.offset, h.offset hc]

theorem embeddedData_renewed (h : Embeddable t c r n) (hp : isDigits n p = true) :
    (r.renewed n p).embeddedData = .ok (some (Text.toNat p : Int)) :=
  (h.embeddable_renewed hp).embeddedData h.payload_mem_renewed

/-- A sound reading with an EAN check digit is that of an EAN. -/
theorem exists_ean (h : Embeddable t c r n) (hs : r.Sound) (he : .eanCheck ∈ t.fields) :
    ∃ ean, Ean.parse? c = some ean := by
  obtain ⟨before, s, after, hsplit, -, -, -⟩ := exists_slice h.split h.lawful he rfl
  obtain ⟨ean, hean, -⟩ := flaw?_eanCheck.mp (hs (.eanCheck, s) (by rw [hsplit]; simp))
  rw [Template.code_of_split? h.split] at hean
  exact ⟨ean, hean⟩

theorem isDigits_checked (h : Embeddable t c r n) (hs : r.Sound) (he : .eanCheck ∈ t.fields)
    (h12 : 12 ≤ c.length) (hp : isDigits n p = true) :
    isDigits 12 ((r.checked n p).code.take 12) = true := by
  obtain ⟨ean, hean⟩ := h.exists_ean hs he
  have hc := (Text.isNumeric_iff.mp (Ean.parse?_eq_some hean).1).2
  have hall : ∀ x ∈ (r.checked n p).code, x.isDigit = true := by
    intro x hx
    obtain ⟨e, hm, hx⟩ := List.mem_flatMap.mp hx
    rcases mem_checked hm with rfl | rfl | ⟨h0, -, -⟩
    · exact (isDigits_iff.mp (isDigits_payloadDigit p)).2 x hx
    · exact (isDigits_iff.mp hp).2 x hx
    · rw [← Template.code_of_split? h.split] at hc
      exact hc x (List.mem_flatMap.mpr ⟨e, h0, hx⟩)
  rw [isDigits_iff, List.length_take, h.length_checked hp]
  exact ⟨by omega, fun x hx => hall x (List.mem_of_mem_take hx)⟩

/-- **A payload that fits is embedded by renewing the reading.** -/
theorem embed_eq_renewed (h : Embeddable t c r n) (hs : r.Sound)
    (h13 : .eanCheck ∈ t.fields → c.length = 13) (hm : m < 10 ^ n) :
    r.embed m = .ok (some (r.renewed n (padZeros n (Text.ofNat m))).code) := by
  have hp : isDigits n (padZeros n (Text.ofNat m)) = true := isDigits_padZeros h.pos hm
  rw [h.embed_eq_checked hm]
  by_cases he : .eanCheck ∈ t.fields
  · rw [if_pos he, Ean.ean13?_of_twelve (h.isDigits_checked hs he (by rw [h13 he]; decide) hp),
      h.code_renewed he (h13 he) hp]
    rfl
  · rw [if_neg he, h.renewed_of_not_mem he]

theorem flaw?_payloadDigit (h : Embeddable t c r n) (hc : .payloadCheck ∈ t.fields)
    (hp : (.embed n, p) ∈ r.entries) : r.flaw? (.payloadCheck, payloadDigit p) = .ok none := by
  obtain ⟨d, hd, hdigit⟩ := h.exists_payloadDigit hc (h.payload_slice hp)
  exact flaw?_payloadCheck.mpr ⟨p, d, h.checkedPayload hc hp, hd, hdigit⟩

/-- The check digits of the renewed reading are right. -/
theorem sound_renewed (h : Embeddable t c r n) (hs : r.Sound)
    (h13 : .eanCheck ∈ t.fields → c.length = 13) (hp : isDigits n p = true) :
    (r.renewed n p).Sound := by
  have hnew := h.embeddable_renewed hp
  have hfields := hnew.fields
  intro e he
  have hf : e.1 ∈ t.fields := by rw [← hfields]; exact List.mem_map_of_mem he
  rcases mem_put he with rfl | ⟨h2, hec⟩
  · have h12 := h.isDigits_checked hs hf (by rw [h13 hf]; decide) hp
    exact flaw?_of_completed h12 (h.code_renewed hf (h13 hf) hp)
  · rcases mem_checked h2 with rfl | rfl | ⟨h0, hne, hpc⟩
    · exact hnew.flaw?_payloadDigit hf h.payload_mem_renewed
    · rfl
    · rw [flaw?_of_ne hpc hec]
      exact hs e h0

theorem read_renewed (h : Embeddable t c r n) (hs : r.Sound)
    (h13 : .eanCheck ∈ t.fields → c.length = 13) (hp : isDigits n p = true) :
    t.read (r.renewed n p).code = .ok (.accepted (r.renewed n p)) :=
  Template.read_eq_accepted_iff.mpr ⟨(h.sameLayout_renewed hp).split, h.sound_renewed hs h13 hp⟩

/-! ## Laws of renewal -/

/-- Renewing twice is renewing with the last payload. -/
theorem renewed_renewed (h : Embeddable t c r n) (h13 : .eanCheck ∈ t.fields → c.length = 13)
    (hq : isDigits n q = true) :
    (r.renewed n p).renewed n q = r.renewed n q := by
  have hchecked : (r.renewed n p).checked n q = (r.checked n q).put .eanCheck
      (Text.ofNat (Ean.check ((r.checked n p).code.take 12))) := by
    have h1 : Field.eanCheck ≠ .embed n := by simp
    have h2 : Field.eanCheck ≠ .payloadCheck := by simp
    have h3 : Field.payloadCheck ≠ .embed n := by simp
    rw [checked, renewed, put_comm h1, put_comm h2, checked, put_comm h3, put_put, put_put,
      checked]
  rw [renewed, hchecked, put_put, renewed]
  by_cases he : .eanCheck ∈ t.fields
  · have h2 := h.sameLayout_checked hq
    have hlen := h.length_checked hq
    have hoff := offset_eanCheck h2.split h.lawful he
    obtain ⟨before, s, after, hsplit, hb, ha, -⟩ := exists_slice h2.split h.lawful he rfl
    have h12 : (r.checked n q).offset .eanCheck = 12 := by have := h13 he; omega
    have htake : ((r.checked n q).code.take 12).length = 12 := by
      rw [List.length_take, hlen, h13 he]
      rfl
    rw [code_put hsplit hb ha, h12, List.append_assoc, List.take_left' htake]
  · have hnot : .eanCheck ∉ (r.checked n q).entries.map Prod.fst := by
      rw [checked, fields_put, fields_put, h.fields]
      exact he
    rw [put_of_not_mem hnot, put_of_not_mem hnot]

/-- Renewing a sound reading with its own payload changes nothing. -/
theorem renewed_self (h : Embeddable t c r n) (hs : r.Sound)
    (h13 : .eanCheck ∈ t.fields → c.length = 13) (hp : (.embed n, p) ∈ r.entries) :
    r.renewed n p = r := by
  have h1 : r.put (.embed n) p = r := by
    apply put_eq_self
    intro e he hf
    exact h.payload_unique (by rw [← hf]; exact he) hp
  have h2 : r.checked n p = r := by
    rw [checked, h1]
    apply put_eq_self
    intro e he hf
    obtain ⟨f, s⟩ := e
    obtain rfl : f = .payloadCheck := hf
    have hm : .payloadCheck ∈ t.fields := by rw [← h.fields]; exact List.mem_map_of_mem he
    obtain ⟨payload, d, hpay, hd, hsd⟩ := flaw?_payloadCheck.mp (hs _ he)
    obtain rfl := Option.some.inj ((h.checkedPayload hm hp).symm.trans hpay)
    rw [Ean.payloadDigit_eq hd]
    exact hsd
  rw [renewed, h2]
  apply put_eq_self
  intro e he hf
  obtain ⟨f, s⟩ := e
  obtain rfl : f = .eanCheck := hf
  have hm : .eanCheck ∈ t.fields := by rw [← h.fields]; exact List.mem_map_of_mem he
  obtain ⟨ean, hean, hread⟩ := flaw?_eanCheck.mp (hs _ he)
  have hcode := Template.code_of_split? h.split
  rw [hcode] at hean ⊢
  have hlast := (Ean.parse?_thirteen (h13 hm) hean).2
  have hdigit : isDigits 1 s = true := Template.admits_of_split? h.split he
  rw [Text.Numeral.read_isDigits (by decide) (by decide) hdigit] at hread
  have hval : Text.toNat s = Ean.check (c.take 12) := by
    have := Except.ok.inj hread
    omega
  obtain ⟨hl, hd⟩ := isDigits_iff.mp hdigit
  obtain ⟨hl', hd'⟩ := isDigits_iff.mp (Text.isDigits_ofNat_digit (Ean.check_lt (c.take 12)))
  apply Text.toNat_injective hd hd' (hl.trans hl'.symm)
  rw [hval, Text.toNat_ofNat]

end Reading.Embeddable

end Barcode

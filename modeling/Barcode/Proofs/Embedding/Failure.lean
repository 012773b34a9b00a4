import Barcode.Proofs.Embedding.Update

/-!
# When embedding fails

Embedding a payload that can be written fails in one kind of template only: the check digit of the
payload belongs to the first integer payload, which counts hundreds, while embedding takes it of
the plain one, which has another width. The payload of a reading is lost in one kind of template
only as well: its field is so wide that its digits are not read.
-/

namespace Barcode

open Sequence
open Text (isDigits padZeros)
open Text.Numeral (Writable digitLimit)

theorem Field.admits_of_integerPayload? {f : Field} {n : Nat} (hf : f.integerPayload? = some n)
    (s : Text) : f.admits s = isDigits n s := by
  cases f <;> cases hf <;> rfl

theorem Field.mem_sizes_of_integerPayload? {f : Field} {n : Nat} (hf : f.integerPayload? = some n) :
    n ∈ f.sizes := by
  cases f <;> cases hf <;> exact List.mem_singleton_self n

namespace Reading

variable {id text : Text} {t : Template} {c : Text} {r : Reading} {n : Nat}

/-! ## What embedding fails on -/

/-- A payload that fits fails with its check digit. -/
theorem embed_eq_error_of_fits (hs : r.payloadSizes = [n]) {m : Nat} (hw : Writable m)
    (hfits : (Text.ofNat m).length ≤ n) {fault : Fault} :
    r.embed m = .error fault ↔
      r.has .payloadCheck = true ∧
        Ean.payloadCheck (padZeros n (Text.ofNat m)) = .error fault := by
  rw [embed_of_fits hs hw hfits]
  cases r.has .payloadCheck with
  | false =>
    rw [if_neg Bool.false_ne_true, pure_bind]
    simp only [Bool.false_eq_true, false_and, iff_false, pure, Except.pure]
    split <;> simp
  | true =>
    cases Ean.payloadCheck (padZeros n (Text.ofNat m)) with
    | error fault' => simp [bind, Except.bind]
    | ok d =>
      rw [if_pos rfl, ok_bind, pure_bind]
      simp only [reduceCtorEq, and_false, iff_false, pure, Except.pure]
      split <;> simp

/-- Embedding into a plain payload field fails on the payloads of that field, when their check
digit is asked for and there is none. -/
theorem embed_eq_error_iff_of_mem (h : Template.compile id text = .ok t)
    (hm : t.read c = .ok (.accepted r)) (hn : .embed n ∈ t.fields) {P : Int} (hw : Writable P)
    {fault : Fault} :
    r.embed P = .error fault ↔
      .payloadCheck ∈ t.fields ∧ n ≠ 5 ∧ 0 ≤ P ∧ P < 10 ^ n ∧ fault = .digitCount 5 n := by
  have hfields := Template.fields_of_split? (Template.read_eq_accepted_iff.mp hm).1
  have hs : r.payloadSizes = [n] :=
    payloadSizes_of_mem (hfields ▸ Template.lawful_of_compile h) (hfields ▸ hn)
  have hpos : 0 < n :=
    Template.sizes_pos_of_compile h (.embed n) hn n (by simp [Field.sizes])
  by_cases hP : 0 ≤ P ∧ P < 10 ^ n
  · obtain ⟨m, rfl⟩ := Int.eq_ofNat_of_zero_le hP.1
    have hlt : m < 10 ^ n := by exact_mod_cast hP.2
    have hp : isDigits n (padZeros n (Text.ofNat m)) = true := Text.isDigits_padZeros hpos hlt
    rw [embed_eq_error_of_fits hs hw ((Text.length_ofNat_le_iff hpos).mpr hlt), has_iff, hfields]
    by_cases hne : n = 5
    · -- five digits have a check digit
      subst hne
      obtain ⟨d, hd⟩ := Ean.exists_payloadCheck hp
      rw [hd]
      simp
    · rw [Ean.payloadCheck_eq_error hp hne]
      simp [hne, hP, eq_comm]
  · rw [embed_of_not_fits hs hpos hw hP]
    simp only [reduceCtorEq, false_iff, not_and]
    intro _ _ h0 hlt
    exact absurd ⟨h0, hlt⟩ hP

/-- **Embedding fails when the payload has no check digit although the template asks for one.** -/
theorem embed_eq_error_iff (h : Template.compile id text = .ok t)
    (hm : t.read c = .ok (.accepted r)) {P : Int} (hw : Writable P) {fault : Fault} :
    r.embed P = .error fault ↔ ∃ n, .embed n ∈ t.fields ∧ .payloadCheck ∈ t.fields ∧ n ≠ 5 ∧
      0 ≤ P ∧ P < 10 ^ n ∧ fault = .digitCount 5 n := by
  constructor
  · intro he
    by_cases hex : ∃ n, Field.embed n ∈ t.fields
    · obtain ⟨n, hn⟩ := hex
      exact ⟨n, hn, (embed_eq_error_iff_of_mem h hm hn hw).mp he⟩
    · have hfields := Template.fields_of_split? (Template.read_eq_accepted_iff.mp hm).1
      have hs : r.payloadSizes = [] :=
        payloadSizes_of_not_mem fun n hn => hex ⟨n, hfields ▸ hn⟩
      unfold Reading.embed at he
      rw [hs] at he
      cases he
  · intro hex
    obtain ⟨n, hn, hall⟩ := hex
    exact (embed_eq_error_iff_of_mem h hm hn hw).mpr hall

/-! ## The payload that a reading has -/

/-- The payload is there when the slice of its field can be read. -/
theorem exists_embeddedData_of_entries {before after : List (Field × Text)} {f : Field} {p : Text}
    (he : r.entries = before ++ (f, p) :: after) (hb : ∀ e ∈ before, e.1.integerPayload? = none)
    (hf : f.integerPayload? = some n) (hpos : 0 < n) (hp : isDigits n p = true) :
    (∃ data?, r.embeddedData = .ok data?) ↔ n ≤ digitLimit := by
  rw [← Text.Numeral.exists_read_iff hpos hp]
  unfold embeddedData
  rw [find?_integerPayload he hb hf]
  cases f <;> simp [map_eq_ok]

/-- **The payload of a reading is there unless its field is too wide to be read.** -/
theorem exists_embeddedData_iff (h : Template.compile id text = .ok t)
    (hm : t.read c = .ok (.accepted r)) :
    (∃ data?, r.embeddedData = .ok data?) ↔
      ∀ n, t.fields.findSome? Field.integerPayload? = some n → n ≤ digitLimit := by
  obtain ⟨hsplit, -⟩ := Template.read_eq_accepted_iff.mp hm
  have hfields := Template.fields_of_split? hsplit
  cases hn : t.fields.findSome? Field.integerPayload? with
  | none =>
    have hfind : r.entries.find? (fun e => e.1.integerPayload?.isSome) = none := by
      rw [List.find?_eq_none]
      intro e he
      have hf := List.findSome?_eq_none_iff.mp hn e.1 (hfields ▸ List.mem_map_of_mem he)
      rw [hf]
      decide
    have hdata : r.embeddedData = .ok none := by
      unfold embeddedData
      rw [hfind]
    exact iff_of_true ⟨none, hdata⟩ (fun n h => nomatch h)
  | some n =>
    rw [← hfields, List.findSome?_map, List.findSome?_eq_some_iff] at hn
    obtain ⟨before, e, after, he, hf, hb⟩ := hn
    have hmem : e ∈ r.entries := by rw [he]; simp
    have hp := Template.admits_of_split? hsplit hmem
    rw [Field.admits_of_integerPayload? hf] at hp
    have hpos := Template.sizes_pos_of_compile h e.1 (hfields ▸ List.mem_map_of_mem hmem) n
      (Field.mem_sizes_of_integerPayload? hf)
    rw [exists_embeddedData_of_entries he hb hf hpos hp]
    constructor
    · intro hle n' hn'
      obtain rfl := Option.some.inj hn'
      exact hle
    · intro hall
      exact hall n rfl

end Reading

end Barcode

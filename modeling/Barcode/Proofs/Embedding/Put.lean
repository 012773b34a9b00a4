import Barcode.Proofs.Template.Acceptance
import Barcode.Proofs.Template.Compiled
import Barcode.Proofs.Template.Exchange
import Barcode.Template.Embedding

/-!
# Putting a slice into a reading

One slice of a reading is exchanged for another. The exchange obeys the laws of a lens on the
entries, and on the code it replaces the characters at the place of the field. A code with an
exchanged slice is split as before when digits are exchanged for digits in a settled place.
-/

namespace Barcode

open Grammar (Lawful)

namespace Reading

/-- The reading with `x` for the slice of every entry of the field `f`. -/
def put (r : Reading) (f : Field) (x : Text) : Reading :=
  { r with entries := r.entries.map fun e => if e.1 = f then (f, x) else e }

/-- The number of characters before the field `f`. -/
def offset (r : Reading) (f : Field) : Nat :=
  ((r.entries.takeWhile fun e => e.1 ≠ f).flatMap Prod.snd).length

variable {r : Reading} {f g : Field} {x y : Text}

theorem put_put : (r.put f x).put f y = r.put f y := by
  simp only [put, List.map_map]
  congr 1
  apply List.map_congr_left
  intro e _
  by_cases he : e.1 = f <;> simp [he]

theorem put_comm (h : f ≠ g) : (r.put f x).put g y = (r.put g y).put f x := by
  simp only [put, List.map_map]
  congr 1
  apply List.map_congr_left
  intro e _
  by_cases he : e.1 = f
  · have hg : e.1 ≠ g := fun hg => h (he.symm.trans hg)
    simp [he, h]
  · by_cases hg : e.1 = g <;> simp [he, hg, h.symm]

theorem map_eq_self {l : List (Field × Text)} (h : ∀ e ∈ l, e.1 = f → e.2 = x) :
    l.map (fun e => if e.1 = f then (f, x) else e) = l := by
  have hid : ∀ e ∈ l, (if e.1 = f then (f, x) else e) = id e := by
    intro e he
    by_cases hf : e.1 = f
    · rw [if_pos hf, ← hf, ← h e he hf]
      rfl
    · rw [if_neg hf]
      rfl
  rw [List.map_congr_left hid, List.map_id]

theorem map_eq_self_of_ne {l : List (Field × Text)} (h : ∀ e ∈ l, e.1 ≠ f) :
    l.map (fun e => if e.1 = f then (f, x) else e) = l :=
  map_eq_self fun e he hf => absurd hf (h e he)

theorem put_eq_self (h : ∀ e ∈ r.entries, e.1 = f → e.2 = x) : r.put f x = r := by
  rw [put, map_eq_self h]

theorem put_of_not_mem (h : f ∉ r.entries.map Prod.fst) : r.put f x = r := by
  apply put_eq_self
  intro e he hf
  exact absurd (hf ▸ List.mem_map_of_mem he) h

theorem fields_put : (r.put f x).entries.map Prod.fst = r.entries.map Prod.fst := by
  rw [put, List.map_map]
  apply List.map_congr_left
  intro e _
  by_cases he : e.1 = f <;> simp [he]

theorem mem_put {e : Field × Text} (he : e ∈ (r.put f x).entries) :
    e = (f, x) ∨ (e ∈ r.entries ∧ e.1 ≠ f) := by
  obtain ⟨e', he', rfl⟩ := List.mem_map.mp he
  by_cases hf : e'.1 = f
  · rw [if_pos hf]
    exact Or.inl rfl
  · rw [if_neg hf]
    exact Or.inr ⟨he', hf⟩

theorem mem_put_of_mem (hf : f ∈ r.entries.map Prod.fst) : (f, x) ∈ (r.put f x).entries := by
  obtain ⟨e, he, hef⟩ := List.mem_map.mp hf
  exact List.mem_map.mpr ⟨e, he, if_pos hef⟩

theorem mem_put_of_ne {e : Field × Text} (he : e ∈ r.entries) (hf : e.1 ≠ f) :
    e ∈ (r.put f x).entries :=
  List.mem_map.mpr ⟨e, he, if_neg hf⟩

/-! ## The place of a field -/

/-- A field of a purpose that is served once stands in one entry. -/
theorem exists_entry (hl : Lawful (r.entries.map Prod.fst)) (hf : f ∈ r.entries.map Prod.fst)
    (hp : f.purpose.repeatable = false) :
    ∃ before s after, r.entries = before ++ (f, s) :: after ∧
      (∀ e ∈ before, e.1.purpose ≠ f.purpose) ∧ (∀ e ∈ after, e.1.purpose ≠ f.purpose) := by
  obtain ⟨⟨f', s⟩, he, rfl⟩ := List.mem_map.mp hf
  obtain ⟨before, after, hsplit⟩ := List.append_of_mem he
  rw [hsplit, List.map_append, List.map_cons] at hl
  refine ⟨before, s, after, hsplit, ?_, ?_⟩
  · intro e hm
    exact hl.purpose_ne (List.mem_map_of_mem hm) (by simp) hp
  · intro e hm heq
    rw [← List.singleton_append, ← List.append_assoc] at hl
    have hr : e.1.purpose.repeatable = false := by rw [heq]; exact hp
    exact hl.purpose_ne (by simp) (List.mem_map_of_mem hm) hr heq.symm

/-- Two entries of a purpose that is served once are one entry. -/
theorem eq_of_purpose_eq (hl : Lawful (r.entries.map Prod.fst)) {e e' : Field × Text}
    (he : e ∈ r.entries) (he' : e' ∈ r.entries) (hp : e'.1.purpose = e.1.purpose)
    (hr : e.1.purpose.repeatable = false) : e' = e := by
  obtain ⟨before, s, after, hsplit, hb, ha⟩ := exists_entry hl (List.mem_map_of_mem he) hr
  have hone : ∀ x ∈ r.entries, x.1.purpose = e.1.purpose → x = (e.1, s) := by
    intro x hx hxp
    rw [hsplit] at hx
    rcases List.mem_append.mp hx with hx | hx
    · exact absurd hxp (hb x hx)
    · rcases List.mem_cons.mp hx with heq | hx
      · exact heq
      · exact absurd hxp (ha x hx)
  rw [hone e' he' hp]
  exact (hone e he rfl).symm

theorem ne_of_purpose_ne {e : Field × Text} (h : e.1.purpose ≠ f.purpose) : e.1 ≠ f := by
  intro he
  exact h (by rw [he])

variable {before after : List (Field × Text)} {s : Text}

theorem offset_of_entries (he : r.entries = before ++ (f, s) :: after)
    (hb : ∀ e ∈ before, e.1 ≠ f) : r.offset f = (before.flatMap Prod.snd).length := by
  have ht : (before ++ (f, s) :: after).takeWhile (fun e => e.1 ≠ f) = before := by
    rw [List.takeWhile_append_of_pos (by simpa using hb), List.takeWhile_cons_of_neg (by simp),
      List.append_nil]
  rw [offset, he, ht]

theorem entries_put (he : r.entries = before ++ (f, s) :: after)
    (hb : ∀ e ∈ before, e.1 ≠ f) (ha : ∀ e ∈ after, e.1 ≠ f) :
    (r.put f x).entries = before ++ (f, x) :: after := by
  rw [put, he, List.map_append, List.map_cons, map_eq_self_of_ne hb, map_eq_self_of_ne ha,
    if_pos rfl]

/-- On the code, the slice at the place of the field is replaced. -/
theorem code_put (he : r.entries = before ++ (f, s) :: after)
    (hb : ∀ e ∈ before, e.1 ≠ f) (ha : ∀ e ∈ after, e.1 ≠ f) :
    (r.put f x).code =
      r.code.take (r.offset f) ++ x ++ r.code.drop (r.offset f + s.length) := by
  have hcode : r.code = before.flatMap Prod.snd ++ (s ++ after.flatMap Prod.snd) := by
    rw [code, he, List.flatMap_append, List.flatMap_cons]
  rw [offset_of_entries he hb, hcode, List.take_left, ← List.drop_drop, List.drop_left,
    List.drop_left, code, entries_put he hb ha, List.flatMap_append, List.flatMap_cons,
    List.append_assoc]

theorem length_code_put (he : r.entries = before ++ (f, s) :: after)
    (hb : ∀ e ∈ before, e.1 ≠ f) (ha : ∀ e ∈ after, e.1 ≠ f) (hx : x.length = s.length) :
    (r.put f x).code.length = r.code.length := by
  rw [code, code, entries_put he hb ha, he]
  simp [hx]

/-- A slice of the same length moves no other field. -/
theorem offset_put (he : r.entries = before ++ (f, s) :: after)
    (hb : ∀ e ∈ before, e.1 ≠ f) (ha : ∀ e ∈ after, e.1 ≠ f) (hx : x.length = s.length)
    (g : Field) : (r.put f x).offset g = r.offset g := by
  rw [offset, offset, entries_put he hb ha, he, List.takeWhile_append, List.takeWhile_append]
  by_cases hall : (before.takeWhile fun e => e.1 ≠ g).length = before.length
  · rw [if_pos hall, if_pos hall, List.takeWhile_cons, List.takeWhile_cons]
    by_cases hg : f = g
    · simp [hg]
    · simp [hg, hx]
  · rw [if_neg hall, if_neg hall]

end Reading

/-! ## Splits of an exchanged code -/

namespace Template

open Split (Settled slices?_exchange exchange)

variable {t : Template} {c : Text} {r : Reading} {f : Field} {x : Text}

theorem put_zip {fields : List Field} {v : List Text} :
    (Reading.mk t (fields.zip v)).put f x =
      ⟨t, fields.zip (exchange (fun h s => if h = f then x else s) fields v)⟩ := by
  rw [Reading.put]
  congr 1
  induction fields generalizing v with
  | nil => rfl
  | cons h fields ih =>
    cases v with
    | nil => rfl
    | cons s v =>
      have hv := ih (v := v)
      simp only at hv
      rw [exchange, List.zipWith_cons_cons, List.zip_cons_cons, List.zip_cons_cons, List.map_cons,
        hv]
      by_cases he : h = f <;> simp [he, exchange]

/-- A code with an exchanged slice has the exchanged split. -/
theorem split?_put (h : t.split? c = some r) (hb : f.isUnbounded = false)
    (hp : Settled (· = f) t.fields) (hx : f.admits x = true)
    (ha : ∀ s, f.admits s = true → Text.Alike s x) :
    t.split? (r.put f x).code = some (r.put f x) := by
  obtain ⟨v, hv, rfl⟩ := split?_eq_some_iff.mp h
  let g (h : Field) (s : Text) : Text := if h = f then x else s
  have hex : Split.slices? t.fields (exchange g t.fields v).flatten =
      some (exchange g t.fields v) := by
    refine slices?_exchange ?_ ?_ ?_ ?_ hp hv
    · intro h hh
      rw [of_decide_eq_true hh]
      exact hb
    · intro h _ s hs
      by_cases he : h = f
      · rw [show g h s = x from if_pos he, he]; exact hx
      · rw [show g h s = s from if_neg he]; exact hs
    · intro h hh s hs
      rw [show g h s = x from if_pos (of_decide_eq_true hh)]
      rw [of_decide_eq_true hh] at hs
      exact ha s hs
    · intro h hh s
      exact if_neg (of_decide_eq_false hh)
  have hl := (Split.admitted_of_slices? hex).1.length_eq
  rw [put_zip, Reading.code_zip hl]
  exact split?_eq_some_iff.mpr ⟨_, hex, rfl⟩

end Template

end Barcode

import Mathlib

/-!
# Outcomes in sequence

A step that fails ends the sequence it stands in, so an outcome says how far the sequence went:
to its end, or to the first step that failed. Both are stated as equivalences, with the steps
before the failing one named.
-/

namespace Barcode.Sequence

variable {ε α β : Type}

theorem ok_bind (a : α) (f : α → Except ε β) : Except.ok a >>= f = f a := rfl

theorem bind_eq_ok {x : Except ε α} {f : α → Except ε β} {b : β} :
    x >>= f = .ok b ↔ ∃ a, x = .ok a ∧ f a = .ok b := by
  cases x with
  | error e =>
    constructor
    · intro h
      cases h
    · rintro ⟨_, h, _⟩
      cases h
  | ok a =>
    constructor
    · exact fun h => ⟨a, rfl, h⟩
    · rintro ⟨_, ha, h⟩
      cases ha
      exact h

theorem bind_eq_error {x : Except ε α} {f : α → Except ε β} {e : ε} :
    x >>= f = .error e ↔ x = .error e ∨ ∃ a, x = .ok a ∧ f a = .error e := by
  cases x with
  | error e' =>
    constructor
    · exact fun h => Or.inl (by cases h; rfl)
    · rintro (h | ⟨_, h, _⟩) <;> cases h
      rfl
  | ok a =>
    constructor
    · exact fun h => Or.inr ⟨a, rfl, h⟩
    · rintro (h | ⟨_, ha, h⟩)
      · cases h
      · cases ha; exact h

theorem map_eq_ok {x : Except ε α} {f : α → β} {b : β} :
    x.map f = .ok b ↔ ∃ a, x = .ok a ∧ f a = b := by
  cases x with
  | error e =>
    constructor
    · intro h
      cases h
    · rintro ⟨_, h, _⟩
      cases h
  | ok a =>
    constructor
    · intro h
      exact ⟨a, rfl, Except.ok.inj h⟩
    · rintro ⟨_, ha, rfl⟩
      cases ha
      rfl

theorem map_eq_error {x : Except ε α} {f : α → β} {e : ε} :
    x.map f = .error e ↔ x = .error e := by
  cases x with
  | error e' => constructor <;> (intro h; cases h; rfl)
  | ok a => constructor <;> (intro h; cases h)

theorem bind_pure_eq_error {x : Except ε α} {f : α → β} {e : ε} :
    (x >>= fun a => pure (f a)) = .error e ↔ x = .error e := by
  rw [bind_eq_error]
  constructor
  · rintro (h | ⟨_, -, h⟩)
    · exact h
    · cases h
  · exact Or.inl

theorem mapM_eq_ok {f : α → Except ε β} {l : List α} {v : List β} :
    l.mapM f = .ok v ↔ List.Forall₂ (fun a b => f a = .ok b) l v := by
  induction l generalizing v with
  | nil =>
    rw [List.mapM_nil]
    constructor
    · intro h
      cases h
      exact List.Forall₂.nil
    · intro h
      cases h
      rfl
  | cons a l ih =>
    rw [List.mapM_cons, bind_eq_ok]
    constructor
    · rintro ⟨b, hb, h⟩
      obtain ⟨v, hv, h⟩ := bind_eq_ok.mp h
      cases h
      exact List.Forall₂.cons hb (ih.mp hv)
    · intro h
      obtain ⟨b, v, hb, hv, rfl⟩ := List.forall₂_cons_left_iff.mp h
      exact ⟨b, hb, bind_eq_ok.mpr ⟨v, ih.mpr hv, rfl⟩⟩

theorem exists_mapM_eq_ok {f : α → Except ε β} {l : List α}
    (h : ∀ a ∈ l, ∃ b, f a = .ok b) : ∃ v, l.mapM f = .ok v := by
  induction l with
  | nil => exact ⟨[], rfl⟩
  | cons a l ih =>
    obtain ⟨b, hb⟩ := h a (by simp)
    obtain ⟨v, hv⟩ := ih fun x hx => h x (List.mem_cons_of_mem _ hx)
    exact ⟨b :: v, mapM_eq_ok.mpr (List.Forall₂.cons hb (mapM_eq_ok.mp hv))⟩

theorem exists_of_mem_right {R : α → β → Prop} {l : List α} {v : List β}
    (h : List.Forall₂ R l v) {b : β} (hb : b ∈ v) : ∃ a ∈ l, R a b := by
  induction h with
  | nil => cases hb
  | @cons a b' l v hr _ ih =>
    rcases List.mem_cons.mp hb with rfl | hb
    · exact ⟨a, by simp, hr⟩
    · obtain ⟨a', ha, hr'⟩ := ih hb
      exact ⟨a', List.mem_cons_of_mem _ ha, hr'⟩

theorem exists_of_mem_left {R : α → β → Prop} {l : List α} {v : List β}
    (h : List.Forall₂ R l v) {a : α} (ha : a ∈ l) : ∃ b ∈ v, R a b :=
  exists_of_mem_right h.flip ha

/-- The first step that fails decides the error. -/
theorem mapM_eq_error {f : α → Except ε β} {l : List α} {e : ε} :
    l.mapM f = .error e ↔ ∃ before a after, l = before ++ a :: after ∧
      (∀ b ∈ before, ∃ c, f b = .ok c) ∧ f a = .error e := by
  induction l with
  | nil =>
    constructor
    · intro h
      cases h
    · rintro ⟨before, a, after, h, -⟩
      simp at h
  | cons x l ih =>
    rw [List.mapM_cons, bind_eq_error]
    constructor
    · rintro (h | ⟨b, hb, h⟩)
      · exact ⟨[], x, l, rfl, by simp, h⟩
      · rcases bind_eq_error.mp h with h | ⟨v, -, h⟩
        · obtain ⟨before, a, after, rfl, hok, ha⟩ := ih.mp h
          refine ⟨x :: before, a, after, rfl, ?_, ha⟩
          intro y hy
          rcases List.mem_cons.mp hy with rfl | hy
          · exact ⟨b, hb⟩
          · exact hok y hy
        · cases h
    · rintro ⟨before, a, after, he, hok, ha⟩
      cases before with
      | nil =>
        rw [List.nil_append, List.cons.injEq] at he
        obtain ⟨rfl, rfl⟩ := he
        exact Or.inl ha
      | cons y before =>
        rw [List.cons_append, List.cons.injEq] at he
        obtain ⟨rfl, rfl⟩ := he
        obtain ⟨b, hb⟩ := hok x (by simp)
        have hl := ih.mpr ⟨before, a, after, rfl, fun y hy => hok y (by simp [hy]), ha⟩
        exact Or.inr ⟨b, hb, bind_eq_error.mpr (Or.inl hl)⟩

end Barcode.Sequence

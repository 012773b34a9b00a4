import Barcode.Proofs.Registry.History
import Barcode.Proofs.Template.Overflow

/-!
# Loading a project

A template text that breaks the grammar leaves no trace but a warning, so the templates beside
it are loaded as if it were not there, and the last definition that compiles under an identifier
is the one that stays. A text that overflows is not refused so: it ends the load, and the
definitions behind it are lost.
-/

namespace Barcode.Registry

open Template (Overflows overflows_iff not_overflows_iff)

variable {s : Registry} {project id text : Text} {d : Definition} {ds : List Definition}

/-! ## One definition -/

theorem fault?_register : (s.register project d).fault? = none ↔ ¬ Overflows d.template := by
  rw [not_overflows_iff d.id, register]
  cases h : Template.compile d.id d.template with
  | ok t => simp
  | error fault => cases fault <;> simp

theorem template?_register (s : Registry) (project : Text) (d : Definition) (id : Text) :
    (s.register project d).registry.template? project id =
      (if d.id = id then (Template.compile d.id d.template).toOption else none).or
        (s.template? project id) := by
  cases h : Template.compile d.id d.template with
  | error fault =>
    rw [register_of_error h]
    split <;> rfl
  | ok t =>
    have hid := Template.id_of_compile h
    rw [(register_of_ok h).1, template?_insert, hid]
    by_cases hd : d.id = id
    · rw [if_pos ⟨rfl, hd.symm⟩, if_pos hd]
      rfl
    · rw [if_neg (fun hc => hd hc.2.symm), if_neg hd]
      rfl

/-! ## Many definitions -/

/-- The compiled form of the last definition under an identifier whose text compiles. -/
def lastCompiled (ds : List Definition) (id : Text) : Option Template :=
  ds.reverse.findSome? fun d =>
    if d.id = id then (Template.compile d.id d.template).toOption else none

theorem lastCompiled_cons (d : Definition) (ds : List Definition) (id : Text) :
    lastCompiled (d :: ds) id = (lastCompiled ds id).or
      (if d.id = id then (Template.compile d.id d.template).toOption else none) := by
  rw [lastCompiled, List.reverse_cons, List.findSome?_append]
  congr 1
  rw [List.findSome?_cons, List.findSome?_nil]
  split <;> simp_all

theorem lastCompiled_eq_none_iff : lastCompiled ds id = none ↔
    ∀ d ∈ ds, d.id = id → (Template.compile d.id d.template).toOption = none := by
  rw [lastCompiled, List.findSome?_eq_none_iff]
  simp only [List.mem_reverse, ite_eq_right_iff]

theorem fault?_registerAll :
    (s.registerAll project ds).fault? = none ↔ ∀ d ∈ ds, ¬ Overflows d.template := by
  induction ds generalizing s with
  | nil => exact iff_of_true rfl (by simp)
  | cons d ds ih =>
    rw [registerAll_cons, Change.fault?_andThen, fault?_register, ih, List.forall_mem_cons]

theorem template?_registerAll (h : ∀ d ∈ ds, ¬ Overflows d.template) (id : Text) :
    (s.registerAll project ds).registry.template? project id =
      (lastCompiled ds id).or (s.template? project id) := by
  induction ds generalizing s with
  | nil => rfl
  | cons d ds ih =>
    have hd : (s.register project d).fault? = none := fault?_register.mpr (h d (by simp))
    rw [registerAll_cons, Change.registry_andThen_of_none hd,
      ih (fun x hx => h x (List.mem_cons_of_mem _ hx)), template?_register, lastCompiled_cons,
      Option.or_assoc]

/-- The definitions behind one that overflows are not looked at. -/
theorem registry_registerAll_of_overflow {before after : List Definition}
    (hb : ∀ b ∈ before, ¬ Overflows b.template) (hd : Overflows d.template) :
    (s.registerAll project (before ++ d :: after)).registry =
      (s.registerAll project before).registry := by
  induction before generalizing s with
  | nil =>
    have hf : (s.register project d).fault? ≠ none := fun hn => fault?_register.mp hn hd
    obtain ⟨fault, -, he⟩ := (overflows_iff d.id d.template).mp hd
    rw [List.nil_append, registerAll_cons, Change.andThen_of_fault hf, register_of_error he]
    rfl
  | cons b before ih =>
    have hn : (s.register project b).fault? = none := fault?_register.mpr (hb b (by simp))
    rw [List.cons_append, registerAll_cons, registerAll_cons, Change.registry_andThen_of_none hn,
      Change.registry_andThen_of_none hn]
    exact ih fun x hx => hb x (List.mem_cons_of_mem _ hx)

/-! ## Single texts -/

theorem parse?_eq_ok_iff :
    (∃ t?, Template.parse? id text = .ok t?) ↔ ¬ Overflows text := by
  rw [not_overflows_iff id, Template.parse?]
  cases h : Template.compile id text with
  | ok t => simp
  | error fault => cases fault <;> simp

theorem parse?_of_not_overflows (h : ¬ Overflows text) :
    Template.parse? id text = .ok (Template.compile id text).toOption := by
  rw [Template.parse?]
  rcases (not_overflows_iff id text).mp h with ⟨t, ht⟩ | ⟨e, he⟩
  · rw [ht]
    rfl
  · rw [he]
    rfl

/-- **A bad template blocks its siblings exactly when it overflows.** A load without an
overflowing text ends without a fault and leaves under every identifier the last definition
that compiles; the first one that overflows ends it with what stood before. The same texts are
the ones on which parsing and registering a single template fail. -/
theorem load_unless_overflow (s : Registry) (p : Project) :
    ((s.load p).fault? = none ↔ ∀ d ∈ p.definitions, ¬ Overflows d.template) ∧
    ((∀ d ∈ p.definitions, ¬ Overflows d.template) → ∀ id,
      (s.load p).registry.template? p.id id =
        (lastCompiled p.definitions id).or (s.template? p.id id)) ∧
    (∀ before d after, p.definitions = before ++ d :: after →
      (∀ b ∈ before, ¬ Overflows b.template) → Overflows d.template →
      (s.load p).registry = (s.registerAll p.id before).registry) ∧
    ∀ id text,
      ((∃ t?, Template.parse? id text = .ok t?) ↔ ¬ Overflows text) ∧
      (¬ Overflows text →
        Template.parse? id text = .ok (Template.compile id text).toOption) ∧
      ((s.register p.id ⟨id, text⟩).fault? = none ↔ ¬ Overflows text) ∧
      ((Template.compile id text).toOption = none →
        (s.register p.id ⟨id, text⟩).registry = s) := by
  refine ⟨?_, ?_, ?_, ?_⟩
  · rw [fault?_load, fault?_registerAll]
  · intro h id
    rw [registry_load, template?_registerAll h]
  · intro before d after hsplit hb hd
    rw [registry_load, hsplit, registry_registerAll_of_overflow hb hd]
  · intro id text
    refine ⟨parse?_eq_ok_iff, parse?_of_not_overflows, fault?_register, ?_⟩
    intro hnone
    cases h : Template.compile id text with
    | ok t =>
      rw [h] at hnone
      cases hnone
    | error fault => exact register_of_error h

/-- A text with an unknown name does not block the text behind it. -/
theorem load_beside_unknown_name :
    ∃ p t, p.definitions =
        [⟨['a'], Text.withBraces "[bogus:3]"⟩, ⟨['b'], Text.withBraces "[code:5]"⟩] ∧
      (empty.load p).fault? = none ∧ (empty.load p).registry.template? p.id ['b'] = some t := by
  let p : Project := { id := ['p'], templates :=
    [⟨['a'], Text.withBraces "[bogus:3]"⟩, ⟨['b'], Text.withBraces "[code:5]"⟩] }
  let t : Template := ⟨['b'], Text.withBraces "[code:5]", [.code { kind := .fixed, size := 5 }]⟩
  have ha : Template.compile ['a'] (Text.withBraces "[bogus:3]") = .error
      (.grammar (.unknownName "bogus".toList (Text.withBraces "[bogus:3]"))) := by cbv
  have hb : Template.compile ['b'] (Text.withBraces "[code:5]") = .ok t := by cbv
  have hp : p.definitions =
      [⟨['a'], Text.withBraces "[bogus:3]"⟩, ⟨['b'], Text.withBraces "[code:5]"⟩] := rfl
  have hno : ∀ d ∈ p.definitions, ¬ Overflows d.template := by
    intro d hd
    rw [hp] at hd
    rcases List.mem_cons.mp hd with rfl | hd
    · exact (not_overflows_iff _ _).mpr (Or.inr ⟨_, ha⟩)
    · rw [List.mem_singleton.mp hd]
      exact (not_overflows_iff _ _).mpr (Or.inl ⟨_, hb⟩)
  obtain ⟨hfault, hall, -, -⟩ := load_unless_overflow empty p
  refine ⟨p, t, hp, hfault.mpr hno, ?_⟩
  rw [hall hno, hp, lastCompiled_cons, lastCompiled_cons, ha, hb]
  rfl

example : ((empty.load { id := ['p'], templates := [⟨['a'], Text.withBraces "[code:4294967295]"⟩,
    ⟨['b'], Text.withBraces "[code:5]"⟩] }).registry.template? ['p'] ['b']) = none := by cbv

end Barcode.Registry

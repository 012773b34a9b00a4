import Barcode.Proofs.Template.Compiled
import Barcode.Registry.Lookup

/-!
# Histories of a registry

A registry comes about by registering template texts, loading projects and clearing, in any
order and whatever faults ended the work. An operation does one thing to the registry: it puts
compiled templates under their identifiers, one after another. So every template that is found
is the compiled form of its text.
-/

namespace Barcode

namespace Change

theorem andThen_of_fault {c : Change} {f : Registry → Change} (h : c.fault? ≠ none) :
    c.andThen f = c := by
  unfold andThen
  cases hc : c.fault? with
  | none => exact absurd hc h
  | some fault => rfl

theorem registry_andThen_of_none {c : Change} {f : Registry → Change} (h : c.fault? = none) :
    (c.andThen f).registry = (f c.registry).registry := by
  rw [andThen, h]

theorem events_andThen_of_none {c : Change} {f : Registry → Change} (h : c.fault? = none) :
    (c.andThen f).events = c.events ++ (f c.registry).events := by
  rw [andThen, h]

theorem fault?_andThen {c : Change} {f : Registry → Change} :
    (c.andThen f).fault? = none ↔ c.fault? = none ∧ (f c.registry).fault? = none := by
  cases hc : c.fault? with
  | none => simp [andThen, hc]
  | some fault => simp [andThen, hc]

theorem andThen_assoc (c : Change) (f g : Registry → Change) :
    (c.andThen f).andThen g = c.andThen fun s => (f s).andThen g := by
  cases hc : c.fault? with
  | some fault =>
    have hne : c.fault? ≠ none := by rw [hc]; simp
    rw [andThen_of_fault hne, andThen_of_fault hne, andThen_of_fault hne]
  | none =>
    cases hf : (f c.registry).fault? with
    | some fault => simp [andThen, hc, hf]
    | none => simp [andThen, hc, hf]

/-- Work on a list is work on its first element and then on the rest. -/
theorem foldl_andThen {α : Type} (f : α → Registry → Change) (l : List α) (c : Change) :
    l.foldl (fun c a => c.andThen (f a)) c =
      c.andThen fun s => l.foldl (fun c a => c.andThen (f a)) { registry := s } := by
  induction l generalizing c with
  | nil =>
    obtain ⟨s, events, fault?⟩ := c
    cases fault? <;> simp [andThen]
  | cons a l ih =>
    rw [List.foldl_cons, ih, andThen_assoc]
    congr 1
    funext s
    rw [List.foldl_cons, ih ({ registry := s : Change }.andThen (f a))]
    congr 1

end Change

namespace Registry

variable {s : Registry} {project id : Text} {d : Definition} {t : Template}

theorem template?_empty (project id : Text) : empty.template? project id = none := rfl

/-- A template is put under its identifier and nowhere else. -/
theorem template?_insert (s : Registry) (project : Text) (t : Template) (project' id : Text) :
    (s.insert project t).template? project' id =
      if project' = project ∧ id = t.id then some t else s.template? project' id := by
  rw [template?, templates, insert, Table.get?_put]
  by_cases hp : project' = project
  · subst hp
    rw [if_pos (beq_self_eq_true _), Option.getD_some, Table.get?_put]
    by_cases hi : id = t.id
    · rw [if_pos (by simpa using hi), if_pos ⟨rfl, hi⟩]
    · rw [if_neg (by simpa using hi), if_neg (fun h => hi h.2)]
      rfl
  · rw [if_neg (by simpa using hp), if_neg (fun h => hp h.1)]
    rfl

/-! ## One definition -/

theorem register_of_ok (h : Template.compile d.id d.template = .ok t) :
    (s.register project d).registry = s.insert project t ∧
      (s.register project d).fault? = none := by
  rw [register, h]
  exact ⟨rfl, rfl⟩

theorem register_of_error {fault : Fault} (h : Template.compile d.id d.template = .error fault) :
    (s.register project d).registry = s := by
  rw [register, h]
  cases fault <;> rfl

/-! ## Many definitions -/

theorem registerAll_cons (s : Registry) (project : Text) (d : Definition) (ds : List Definition) :
    s.registerAll project (d :: ds) =
      (s.register project d).andThen (·.registerAll project ds) := by
  rw [registerAll, List.foldl_cons, Change.foldl_andThen]
  rfl

/-- What registering one definition preserves is preserved by registering many. -/
theorem registerAll_induction {P : Registry → Prop}
    (hstep : ∀ s d, P s → P (s.register project d).registry) (ds : List Definition) (h : P s) :
    P (s.registerAll project ds).registry := by
  induction ds generalizing s with
  | nil => exact h
  | cons d ds ih =>
    have hd := hstep s d h
    rw [registerAll_cons]
    by_cases hf : (s.register project d).fault? = none
    · rw [Change.registry_andThen_of_none hf]
      exact ih hd
    · rw [Change.andThen_of_fault hf]
      exact hd

theorem registry_load (s : Registry) (p : Project) :
    (s.load p).registry = (s.registerAll p.id p.definitions).registry := by
  rw [load]
  by_cases hf : (s.registerAll p.id p.definitions).fault? = none
  · rw [Change.registry_andThen_of_none hf]
  · rw [Change.andThen_of_fault hf]

theorem fault?_load (s : Registry) (p : Project) :
    (s.load p).fault? = none ↔ (s.registerAll p.id p.definitions).fault? = none := by
  rw [load, Change.fault?_andThen]
  exact and_iff_left rfl

/-! ## Histories -/

/-- What may be done to a registry. -/
inductive Operation where
  | register (project : Text) (definition : Definition)
  | load (project : Project)
  | clear

/-- The registry after an operation, whether or not a fault has ended it. -/
def Operation.apply (s : Registry) : Operation → Registry
  | .register project d => (s.register project d).registry
  | .load p => (s.load p).registry
  | .clear => s.clear.registry

/-- The registry after a history that begins without templates. -/
def run (history : List Operation) : Registry := history.foldl Operation.apply empty

theorem run_concat (history : List Operation) (op : Operation) :
    run (history ++ [op]) = op.apply (run history) := by
  rw [run, List.foldl_append]
  rfl

/-- Every template is found under its own identifier and is the compiled form of its text. -/
def Compiled (s : Registry) : Prop :=
  ∀ project id t, s.template? project id = some t → Template.compile id t.text = .ok t

theorem compiled_empty : empty.Compiled := by
  intro project id t h
  rw [template?_empty] at h
  cases h

theorem compiled_insert (hs : s.Compiled) (ht : Template.compile t.id t.text = .ok t) :
    (s.insert project t).Compiled := by
  intro project' id t' h
  rw [template?_insert] at h
  split at h
  · next hid =>
    obtain rfl := Option.some.inj h
    rw [hid.2]
    exact ht
  · exact hs project' id t' h

theorem compiled_register (hs : s.Compiled) (d : Definition) :
    (s.register project d).registry.Compiled := by
  cases h : Template.compile d.id d.template with
  | error fault =>
    rw [register_of_error h]
    exact hs
  | ok t =>
    rw [(register_of_ok h).1]
    apply compiled_insert hs
    obtain ⟨fields, -, -, rfl⟩ := Template.compile_eq_ok_iff.mp h
    exact h

theorem compiled_apply (hs : s.Compiled) (op : Operation) : (op.apply s).Compiled := by
  cases op with
  | register project d => exact compiled_register hs d
  | load p =>
    rw [Operation.apply, registry_load]
    exact registerAll_induction (P := Compiled) (fun _ d h => compiled_register h d) _ hs
  | clear => exact compiled_empty

/-- Every template of a registry with a history is the compiled form of its text. -/
theorem compiled_run (history : List Operation) : (run history).Compiled := by
  suffices h : ∀ s : Registry, s.Compiled → (history.foldl Operation.apply s).Compiled from
    h empty compiled_empty
  induction history with
  | nil => exact fun _ h => h
  | cons op history ih => exact fun s h => ih _ (compiled_apply h op)

theorem template?_run_register {text : Text} (h : Template.compile id text = .ok t) :
    (run [.register project ⟨id, text⟩]).template? project id = some t := by
  have hid : id = t.id := (Template.id_of_compile h).symm
  show (register empty project ⟨id, text⟩).registry.template? project id = some t
  rw [(register_of_ok h).1, template?_insert, if_pos ⟨rfl, hid⟩]

end Registry

end Barcode

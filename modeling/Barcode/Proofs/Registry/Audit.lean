import Barcode.Proofs.Registry.Loading
import Barcode.Proofs.Registry.Record
import Barcode.Registry.Log

/-!
# The log of a registry

Every registration that is not ended by a fault is reported by one event, which tells whether the
text compiles. A template that is registered is in store under its identifier and nothing else has
changed; a text that is refused has changed nothing. So the events alone, read from the first to the
last, give the projects and their identifiers in the order in which the registry has them.
-/

namespace Barcode

namespace Table

variable {α β γ : Type} [BEq α]

/-- The table with a function applied to every value. -/
def mapValues (f : β → γ) (table : Table α β) : Table α γ := table.map (Prod.map id f)

theorem get?_mapValues (f : β → γ) (table : Table α β) (key : α) :
    get? (mapValues f table) key = (get? table key).map f := by
  induction table with
  | nil => rfl
  | cons pair rest ih =>
    obtain ⟨k, v⟩ := pair
    simp only [get?, mapValues] at ih
    simp only [get?, mapValues, List.map_cons, Prod.map_apply, id_eq, List.lookup_cons, ih]
    split <;> rfl

theorem mapValues_put (f : β → γ) (table : Table α β) (key : α) (value : β) :
    mapValues f (put table key value) = put (mapValues f table) key (f value) := by
  induction table with
  | nil => rfl
  | cons pair rest ih =>
    obtain ⟨k, v⟩ := pair
    simp only [mapValues] at ih
    simp only [mapValues, put, List.map_cons, Prod.map_apply, id_eq]
    split
    · rfl
    · rw [List.map_cons, ih]
      rfl

end Table

/-- A registration ends without a fault, whether or not its text compiles. -/
def Registration.completes (r : Registration) : Bool := (Template.parse? r.id r.template).isOk

namespace Registry

open Registration (enter)

variable {s : Registry} {r : Registration} {project id : Text} {d : Definition} {t : Template}

/-! ## Outlines -/

/-- The projects with the identifiers of their templates, both in order. -/
abbrev Outline := Table Text (List Text)

def outline (s : Registry) : Outline := s.projects.mapValues Table.keys

/-- The outline with an identifier in a project, at the end if it is new there. -/
def Outline.add (outline : Outline) (project id : Text) : Outline :=
  let ids := (outline.get? project).getD []
  outline.put project (if ids.contains id then ids else ids ++ [id])

/-- What an event tells about the outline. -/
def Outline.follow (outline : Outline) : Event → Outline
  | .templateRegistered project id => outline.add project id
  | .templatesCleared => []
  | _ => outline

/-- The outline that events lead to, beginning without a project. -/
def replay (events : List Event) : Outline := events.foldl Outline.follow []

theorem outline_insert (s : Registry) (project : Text) (t : Template) :
    (s.insert project t).outline = s.outline.add project t.id := by
  have hids : (s.outline.get? project).getD [] = (s.templates project).keys := by
    rw [outline, Table.get?_mapValues, templates]
    cases s.projects.get? project <;> rfl
  rw [outline, insert, Table.mapValues_put, Table.keys_put, Outline.add, hids]
  simp only [List.contains_iff_mem]
  rfl

/-! ## One registration -/

/-- An event tells what has become of a registration: the template is in store and nothing else has
changed, or the text is refused and nothing has changed. -/
inductive Reports (s : Registry) (r : Registration) : Event → Prop
  | registered {t : Template} (compiles : Template.compile r.id r.template = .ok t)
    (stored : (enter s r).template? r.project r.id = some t)
    (others : ∀ project id, project ≠ r.project ∨ id ≠ r.id →
      (enter s r).template? project id = s.template? project id) :
    Reports s r (.templateRegistered r.project r.id)
  | ignored {error : GrammarError}
    (breaks : Template.compile r.id r.template = .error (.grammar error))
    (unchanged : enter s r = s) :
    Reports s r (.invalidTemplateIgnored r.project r.id r.template error)

theorem reports_registered (h : Template.compile r.id r.template = .ok t) :
    Reports s r (.templateRegistered r.project r.id) := by
  have hid := Template.id_of_compile h
  have henter : enter s r = s.insert r.project t :=
    Registration.enter_of_some (Registration.compiled?_eq_some_iff.mpr h)
  refine .registered h ?_ fun project id hne => ?_
  · rw [henter, template?_insert, if_pos ⟨rfl, hid.symm⟩]
  · rw [henter, template?_insert, if_neg]
    rintro ⟨hp, hi⟩
    exact hne.elim (absurd hp) (absurd (hi.trans hid))

/-- What registering a text can do: the text compiles and is put into store, it is refused, or
a fault ends the work. -/
theorem register_cases (s : Registry) (project : Text) (d : Definition) :
    (∃ t, Template.compile d.id d.template = .ok t ∧
      s.register project d = ⟨s.insert project t, [.templateRegistered project d.id], none⟩) ∨
    (∃ error, Template.compile d.id d.template = .error (.grammar error) ∧
      s.register project d =
        ⟨s, [.invalidTemplateIgnored project d.id d.template error], none⟩) ∨
    ∃ fault, s.register project d = ⟨s, [], some fault⟩ := by
  rw [register]
  cases h : Template.compile d.id d.template with
  | ok t => exact Or.inl ⟨t, rfl, rfl⟩
  | error fault =>
    cases fault with
    | grammar error => exact Or.inr (Or.inl ⟨error, rfl, rfl⟩)
    | _ => exact Or.inr (Or.inr ⟨_, rfl⟩)

theorem completes_iff : (Registration.mk d project).completes = true ↔
    (s.register project d).fault? = none := isOk_parse?_iff

/-- Without a fault, one event reports the registration. -/
theorem exists_reports (h : (s.register project d).fault? = none) :
    ∃ e, (s.register project d).events = [e] ∧ Reports s ⟨d, project⟩ e := by
  rcases register_cases s project d with ⟨t, ht, he⟩ | ⟨error, hbreaks, he⟩ | ⟨fault, he⟩
  · refine ⟨_, ?_, reports_registered ht⟩
    rw [he]
  · refine ⟨_, ?_, .ignored hbreaks (congrArg Change.registry he)⟩
    rw [he]
  · rw [he] at h
    cases h

/-- A fault is not reported. -/
theorem events_of_fault (h : (s.register project d).fault? ≠ none) :
    (s.register project d).events = [] := by
  rcases register_cases s project d with ⟨t, -, he⟩ | ⟨error, -, he⟩ | ⟨fault, he⟩
  · exact absurd (congrArg Change.fault? he) h
  · exact absurd (congrArg Change.fault? he) h
  · rw [he]

/-- The events of a registration lead from one outline to the other. -/
theorem follow_register (s : Registry) (project : Text) (d : Definition) :
    (s.register project d).events.foldl Outline.follow s.outline =
      (s.register project d).registry.outline := by
  rcases register_cases s project d with ⟨t, ht, he⟩ | ⟨error, -, he⟩ | ⟨fault, he⟩
  · rw [he, outline_insert, Template.id_of_compile ht]
    rfl
  · rw [he]
    rfl
  · rw [he]
    rfl

/-! ## Many registrations -/

/-- Registrations one after another are reported in order, each by one event. -/
inductive Trail : Registry → List Registration → List Event → Prop
  | nil (s : Registry) : Trail s [] []
  | cons {s : Registry} {r : Registration} {e : Event} {rs : List Registration} {es : List Event}
    (first : Reports s r e) (rest : Trail (enter s r) rs es) : Trail s (r :: rs) (e :: es)

/-- The registrations in front of the first that a fault ends. -/
def completed (rs : List Registration) : List Registration :=
  rs.takeWhile Registration.completes

theorem trail_registerAll (s : Registry) (project : Text) (ds : List Definition) :
    Trail s (completed (ds.map (Registration.mk · project))) (s.registerAll project ds).events := by
  induction ds generalizing s with
  | nil => exact .nil s
  | cons d ds ih =>
    rw [registerAll_cons, List.map_cons, completed, List.takeWhile_cons]
    by_cases hf : (s.register project d).fault? = none
    · obtain ⟨e, he, hreports⟩ := exists_reports hf
      rw [if_pos (completes_iff.mpr hf), Change.events_andThen_of_none hf, he]
      exact .cons hreports (ih (enter s ⟨d, project⟩))
    · rw [if_neg fun h => hf (completes_iff.mp h), Change.andThen_of_fault hf, events_of_fault hf]
      exact .nil s

/-- The registry behind registrations comes of those that a fault does not end. -/
theorem registry_registerAll_eq_foldl (s : Registry) (project : Text) (ds : List Definition) :
    (s.registerAll project ds).registry =
      (completed (ds.map (Registration.mk · project))).foldl enter s := by
  rw [registry_registerAll, completed, List.takeWhile_map]
  rfl

theorem follow_registerAll (s : Registry) (project : Text) (ds : List Definition) :
    (s.registerAll project ds).events.foldl Outline.follow s.outline =
      (s.registerAll project ds).registry.outline := by
  induction ds generalizing s with
  | nil => rfl
  | cons d ds ih =>
    rw [registerAll_cons]
    by_cases hf : (s.register project d).fault? = none
    · rw [Change.events_andThen_of_none hf, List.foldl_append, follow_register, ih,
        Change.registry_andThen_of_none hf]
    · rw [Change.andThen_of_fault hf, follow_register]

theorem fault?_registerAll_iff (s : Registry) (project : Text) (ds : List Definition) :
    (s.registerAll project ds).fault? = none ↔
      (ds.map (Registration.mk · project)).all Registration.completes = true := by
  rw [fault?_registerAll, List.all_map, List.all_eq_true]
  exact forall₂_congr fun d _ => ((completes_iff (s := s)).trans fault?_register).symm

/-! ## Operations -/

namespace Operation

/-- What an operation does, with its events. -/
def change (s : Registry) : Operation → Change
  | .register project d => s.register project d
  | .load p => s.load p
  | .clear => s.clear

/-- The registrations that an operation asks for. -/
def registrations : Operation → List Registration
  | .register project d => [⟨d, project⟩]
  | .load p => p.definitions.map (⟨·, p.id⟩)
  | .clear => []

/-- The registrations that an operation ends without a fault. -/
def completed (op : Operation) : List Registration := Registry.completed op.registrations

/-- What is reported behind the registrations of an operation. -/
def closing (op : Operation) : List Event :=
  match op with
  | .register _ _ => []
  | .load p =>
    if op.registrations.all Registration.completes then
      [.projectLoaded p.id p.templates.length p.overrides.length]
    else []
  | .clear => [.templatesCleared]

theorem registry_change (op : Operation) (s : Registry) : (op.change s).registry = op.apply s := by
  cases op <;> rfl

end Operation

/-- A load is reported at its end, if a fault has not ended it. -/
theorem events_load (s : Registry) (p : Project) :
    (s.load p).events =
      (s.registerAll p.id p.definitions).events ++ (Operation.load p).closing := by
  have hfault := fault?_registerAll_iff s p.id p.definitions
  rw [load, Operation.closing, Operation.registrations]
  by_cases hf : (s.registerAll p.id p.definitions).fault? = none
  · rw [if_pos (hfault.mp hf), Change.events_andThen_of_none hf]
  · rw [if_neg fun h => hf (hfault.mpr h), Change.andThen_of_fault hf, List.append_nil]

/-- An operation reports its registrations one after another, and its end. -/
theorem exists_trail (s : Registry) (op : Operation) :
    ∃ es, Trail s op.completed es ∧ (op.change s).events = es ++ op.closing ∧
      (op.change s).registry = if op.isClear then empty else op.completed.foldl enter s := by
  cases op with
  | register project d =>
    refine ⟨_, trail_registerAll s project [d], ?_, registry_registerAll_eq_foldl s project [d]⟩
    exact (List.append_nil _).symm
  | load p =>
    refine ⟨_, trail_registerAll s p.id p.definitions, events_load s p, ?_⟩
    rw [Operation.change, registry_load, registry_registerAll_eq_foldl]
    rfl
  | clear => exact ⟨[], .nil s, rfl, rfl⟩

/-- The events of an operation lead from one outline to the other. -/
theorem follow_change (s : Registry) (op : Operation) :
    (op.change s).events.foldl Outline.follow s.outline = (op.change s).registry.outline := by
  cases op with
  | register project d => exact follow_registerAll s project [d]
  | load p =>
    have hclosing : ∀ o : Outline, (Operation.load p).closing.foldl Outline.follow o = o := by
      intro o
      rw [Operation.closing]
      split <;> rfl
    rw [Operation.change, events_load, List.foldl_append, hclosing, follow_registerAll,
      registry_load]
  | clear => rfl

/-! ## Histories -/

/-- The events of operations that begin with a registry. -/
def logFrom (s : Registry) : List Operation → List Event
  | [] => []
  | op :: ops => (op.change s).events ++ logFrom (op.apply s) ops

/-- The events of a history that begins without templates. -/
def log (history : List Operation) : List Event := logFrom empty history

theorem logFrom_concat (s : Registry) (history : List Operation) (op : Operation) :
    logFrom s (history ++ [op]) =
      logFrom s history ++ (op.change (history.foldl Operation.apply s)).events := by
  induction history generalizing s with
  | nil => rw [List.nil_append, logFrom, logFrom, logFrom, List.append_nil]; rfl
  | cons first history ih => rw [List.cons_append, logFrom, ih, logFrom, List.append_assoc]; rfl

theorem replay_log (history : List Operation) : replay (log history) = (run history).outline := by
  induction history using List.reverseRecOn with
  | nil => rfl
  | append_singleton history op ih =>
    rw [replay, log, logFrom_concat, List.foldl_append, ← log, ← replay, ih, run_concat,
      ← Operation.registry_change]
    exact follow_change _ op

theorem kept_of_le_debug {threshold : Nat} (h : threshold ≤ Level.debug.severity)
    (events : List Event) : Log.kept threshold events = events := by
  refine List.filter_eq_self.mpr fun event _ => decide_eq_true (h.trans ?_)
  cases event.level <;> decide

/-- **The log is a faithful record of the registry.** Behind every history, an operation reports
each of its registrations that no fault ends by one event, in order: that the template is
registered, which is then in store while no other has changed, or that its text is refused, and then
nothing has changed. It reports nothing else but its own end, and changes nothing else unless it
clears. The events of the whole history give the projects and their identifiers in order, and a log
that keeps all levels has all of them. -/
theorem log_accounts (history : List Operation) :
    (∀ op, ∃ es, Trail (run history) op.completed es ∧
      log (history ++ [op]) = log history ++ es ++ op.closing ∧
      run (history ++ [op]) =
        if op.isClear then empty else op.completed.foldl enter (run history)) ∧
    replay (log history) = (run history).outline ∧
    ∀ threshold ≤ Level.debug.severity, Log.kept threshold (log history) = log history := by
  refine ⟨fun op => ?_, replay_log history, fun _ h => kept_of_le_debug h _⟩
  obtain ⟨es, htrail, hevents, hregistry⟩ := exists_trail (run history) op
  refine ⟨es, htrail, ?_, ?_⟩
  · rw [log, logFrom_concat, List.append_assoc, ← hevents]
    rfl
  · rw [run_concat, ← Operation.registry_change, hregistry]

end Registry

end Barcode

import Barcode.Proofs.Registry.History
import Mathlib.Data.List.DropRight

/-!
# The record of a registry

An operation comes to a number of registrations: of one text, or of the texts of a project up to
the first on which compiling fails otherwise than by the grammar. Those that compile since the last
clearing are the record of a registry, and it depends on nothing else. The last one under an
identifier is the template that is found, and the first ones settle the order of projects and
identifiers, so that loading a project again changes nothing.
-/

namespace Barcode

/-- A template text that is registered under an identifier in a project. -/
structure Registration extends Definition where
  project : Text

namespace Registration

variable {s : Registry} {r : Registration} {t : Template}

/-- The compiled form of the text, none if compiling fails. -/
def compiled? (r : Registration) : Option Template := (Template.compile r.id r.template).toOption

theorem compiled?_eq_some_iff :
    r.compiled? = some t ↔ Template.compile r.id r.template = .ok t := by
  rw [compiled?]
  cases Template.compile r.id r.template <;> simp [Except.toOption]

/-- The registry after a registration, which a text that does not compile leaves as it is. -/
def enter (s : Registry) (r : Registration) : Registry :=
  (s.register r.project r.toDefinition).registry

theorem enter_of_some (h : r.compiled? = some t) : enter s r = s.insert r.project t :=
  (Registry.register_of_ok (compiled?_eq_some_iff.mp h)).1

theorem enter_of_none (h : r.compiled? = none) : enter s r = s := by
  cases hc : Template.compile r.id r.template with
  | ok t => rw [compiled?_eq_some_iff.mpr hc] at h; cases h
  | error fault => exact Registry.register_of_error hc

theorem id_of_compiled? (h : r.compiled? = some t) : t.id = r.id :=
  Template.id_of_compile (compiled?_eq_some_iff.mp h)

/-- Registrations that fail may be left out. -/
theorem foldl_enter_filter (rs : List Registration) (s : Registry) :
    (rs.filter (·.compiled?.isSome)).foldl enter s = rs.foldl enter s := by
  rw [List.foldl_filter]
  congr 1
  funext s r
  split
  · rfl
  · next h => rw [enter_of_none (Option.not_isSome_iff_eq_none.mp h)]

end Registration

namespace Registry

open Registration (enter)

variable {s : Registry} {project id : Text} {t : Template} {rs : List Registration}

/-! ## What an operation comes to -/

namespace Operation

def isClear : Operation → Bool
  | .clear => true
  | _ => false

/-- The registrations that an operation comes to. A fault other than a broken grammar ends a
load. -/
def attempts : Operation → List Registration
  | .register project d => [⟨d, project⟩]
  | .load p =>
    (p.definitions.takeWhile fun d => (Template.parse? d.id d.template).isOk).map (⟨·, p.id⟩)
  | .clear => []

end Operation

theorem isOk_parse?_iff {d : Definition} :
    (Template.parse? d.id d.template).isOk = true ↔ (s.register project d).fault? = none := by
  rw [Template.parse?, register]
  cases Template.compile d.id d.template with
  | ok t => exact iff_of_true rfl rfl
  | error fault => cases fault <;> simp [Except.isOk, Except.toBool]

/-- A fault leaves the registry as it is. -/
theorem registry_of_fault {d : Definition} (h : (s.register project d).fault? ≠ none) :
    (s.register project d).registry = s := by
  cases hc : Template.compile d.id d.template with
  | ok t => exact absurd (register_of_ok hc).2 h
  | error fault => exact register_of_error hc

theorem registry_registerAll (s : Registry) (project : Text) (ds : List Definition) :
    (s.registerAll project ds).registry =
      ((ds.takeWhile fun d => (Template.parse? d.id d.template).isOk).map
        (Registration.mk · project)).foldl enter s := by
  induction ds generalizing s with
  | nil => rfl
  | cons d ds ih =>
    rw [registerAll_cons, List.takeWhile_cons]
    by_cases hf : (s.register project d).fault? = none
    · rw [if_pos (isOk_parse?_iff.mpr hf), Change.registry_andThen_of_none hf, ih]
      rfl
    · rw [if_neg fun h => hf (isOk_parse?_iff.mp h), Change.andThen_of_fault hf]
      exact registry_of_fault hf

theorem apply_eq_foldl {op : Operation} (h : op.isClear = false) (s : Registry) :
    op.apply s = op.attempts.foldl enter s := by
  cases op with
  | register project d => rfl
  | load p =>
    rw [Operation.apply, registry_load]
    exact registry_registerAll s p.id p.definitions
  | clear => cases h

/-! ## The record of a history -/

/-- The operations behind the last clearing. -/
def sinceClear (history : List Operation) : List Operation := history.rtakeWhile (!·.isClear)

/-- The registrations since the last clearing that succeeded, in order. -/
def successes (history : List Operation) : List Registration :=
  ((sinceClear history).flatMap Operation.attempts).filter (·.compiled?.isSome)

/-- The registry that registrations lead to. -/
def record (rs : List Registration) : Registry := rs.foldl enter empty

theorem exists_compiled_of_mem {history : List Operation} {r : Registration}
    (h : r ∈ successes history) : ∃ t, r.compiled? = some t :=
  Option.isSome_iff_exists.mp (List.mem_filter.mp h).2

theorem successes_concat_clear {op : Operation} (h : op.isClear = true) (history : List Operation) :
    successes (history ++ [op]) = [] := by
  rw [successes, sinceClear, List.rtakeWhile_concat_neg _ _ _ (by simp [h])]
  rfl

theorem successes_concat {op : Operation} (h : op.isClear = false) (history : List Operation) :
    successes (history ++ [op]) =
      successes history ++ op.attempts.filter (·.compiled?.isSome) := by
  rw [successes, sinceClear, List.rtakeWhile_concat_pos _ _ _ (by simp [h]), List.flatMap_append,
    List.flatMap_singleton, List.filter_append]
  rfl

/-- A registry is what its record leads to. -/
theorem run_eq_record (history : List Operation) : run history = record (successes history) := by
  induction history using List.reverseRecOn with
  | nil => rfl
  | append_singleton history op ih =>
    rw [run_concat, ih]
    cases h : op.isClear with
    | true =>
      rw [successes_concat_clear h]
      cases op with
      | clear => rfl
      | _ => cases h
    | false =>
      rw [apply_eq_foldl h, successes_concat h, record, record, List.foldl_append,
        Registration.foldl_enter_filter]

/-- What holds without registrations, and holds with one more that succeeds, holds of every record
of registrations that succeed. -/
theorem record_induction {P : List Registration → Registry → Prop} (hnil : P [] empty)
    (hstep : ∀ rs r t, r.compiled? = some t → P rs (record rs) →
      P (rs ++ [r]) ((record rs).insert r.project t))
    (hrs : ∀ r ∈ rs, ∃ t, r.compiled? = some t) : P rs (record rs) := by
  -- from the end, because a registration acts on what the ones before it have left
  induction rs using List.reverseRecOn with
  | nil => exact hnil
  | append_singleton rs r ih =>
    obtain ⟨t, ht⟩ := hrs r (by simp)
    have hconcat : record (rs ++ [r]) = (record rs).insert r.project t := by
      rw [record, List.foldl_append, List.foldl_cons, List.foldl_nil, Registration.enter_of_some ht]
      rfl
    rw [hconcat]
    exact hstep rs r t ht (ih fun r hr => hrs r (List.mem_append_left _ hr))

/-! ## Keys in the order of their first registration -/

theorem eraseDups_concat {α : Type} [BEq α] [LawfulBEq α] (l : List α) (a : α) :
    (l ++ [a]).eraseDups = if a ∈ l.eraseDups then l.eraseDups else l.eraseDups ++ [a] := by
  rw [List.eraseDups_append]
  by_cases h : a ∈ l <;> simp [List.removeAll, List.mem_eraseDups, List.eraseDups_cons, h]

theorem eraseDups_append_self {α : Type} [BEq α] [LawfulBEq α] (l m : List α) :
    (l ++ m ++ m).eraseDups = (l ++ m).eraseDups := by
  have hnone : m.removeAll (l ++ m) = [] :=
    List.filter_eq_nil_iff.mpr fun a ha => by simp [ha]
  rw [List.eraseDups_append, hnone, List.eraseDups_nil, List.append_nil]

theorem templates_insert (s : Registry) (project : Text) (t : Template) (project' : Text) :
    (s.insert project t).templates project' =
      if project' = project then (s.templates project).put t.id t else s.templates project' := by
  rw [templates, insert, Table.get?_put]
  by_cases h : project' = project
  · rw [if_pos (by simpa using h), if_pos h, Option.getD_some]
  · rw [if_neg (by simpa using h), if_neg h]
    rfl

/-- No project and no identifier in a project comes twice. -/
structure Ordered (s : Registry) : Prop where
  projects : s.projectIds.Nodup
  templates : ∀ project, (s.templates project).keys.Nodup

theorem ordered_empty : empty.Ordered := ⟨List.nodup_nil, fun _ => List.nodup_nil⟩

theorem ordered_insert (hs : s.Ordered) (project : Text) (t : Template) :
    (s.insert project t).Ordered := by
  refine ⟨Table.nodup_keys_put _ _ _ hs.projects, fun project' => ?_⟩
  rw [templates_insert]
  split
  · exact Table.nodup_keys_put _ _ _ (hs.templates project)
  · exact hs.templates project'

theorem get?_projects (s : Registry) (project : Text) :
    s.projects.get? project =
      if project ∈ s.projectIds then some (s.templates project) else none := by
  rw [templates]
  cases h : s.projects.get? project with
  | none =>
    have hnot : project ∉ s.projectIds := Table.get?_eq_none_iff.mp h
    rw [if_neg hnot]
  | some table =>
    have hmem : project ∈ s.projectIds := by
      by_contra hnot
      rw [Table.get?_eq_none_iff.mpr hnot] at h
      cases h
    rw [if_pos hmem, Option.getD_some]

/-- A registry is determined by the order of its projects, the order of the identifiers of each, and
the templates that are found. -/
theorem Ordered.ext {s' : Registry} (hs : s.Ordered) (hp : s.projectIds = s'.projectIds)
    (hi : ∀ project, (s.templates project).keys = (s'.templates project).keys)
    (ht : ∀ project id, s.template? project id = s'.template? project id) : s = s' := by
  have htables : ∀ project, s.templates project = s'.templates project := fun project =>
    Table.eq_of_get? (hi project) (hs.templates project) (ht project)
  have hprojects : s.projects = s'.projects := by
    refine Table.eq_of_get? hp hs.projects fun project => ?_
    rw [get?_projects, get?_projects, hp, htables]
  obtain ⟨projects⟩ := s
  obtain ⟨projects'⟩ := s'
  exact congrArg Registry.mk hprojects

/-! ## What is seen of a record -/

/-- The last registration of an identifier in a project. -/
def last? (rs : List Registration) (project id : Text) : Option Registration :=
  (rs.filter fun r => r.project = project ∧ r.id = id).getLast?

section Seen

variable (hrs : ∀ r ∈ rs, ∃ t, r.compiled? = some t)

include hrs

theorem ordered_record : (record rs).Ordered :=
  record_induction (P := fun _ s => s.Ordered) ordered_empty
    (fun _ r t _ hs => ordered_insert hs r.project t) hrs

/-- The projects in the order of their first registration. -/
theorem projectIds_record : (record rs).projectIds = (rs.map (·.project)).eraseDups := by
  refine record_induction (P := fun rs s => s.projectIds = (rs.map (·.project)).eraseDups) rfl
    (fun rs r t _ ih => ?_) hrs
  rw [projectIds, insert, Table.keys_put, ← projectIds, ih, List.map_append, List.map_singleton,
    eraseDups_concat]

/-- The identifiers of a project in the order of their first registration. -/
theorem keys_templates_record (project : Text) :
    ((record rs).templates project).keys =
      ((rs.filter (·.project = project)).map (·.id)).eraseDups := by
  refine record_induction (P := fun rs s => (s.templates project).keys =
    ((rs.filter (·.project = project)).map (·.id)).eraseDups) rfl (fun rs r t ht ih => ?_) hrs
  rw [templates_insert, List.filter_append, List.map_append]
  by_cases h : project = r.project
  · subst h
    rw [if_pos rfl, Table.keys_put, ih, Registration.id_of_compiled? ht, ← eraseDups_concat]
    simp
  · rw [if_neg h, ih]
    simp [Ne.symm h]

/-- The template that is found is the one registered last. -/
theorem template?_record (project id : Text) :
    (record rs).template? project id = (last? rs project id).bind (·.compiled?) := by
  refine record_induction (P := fun rs s => s.template? project id =
    (last? rs project id).bind (·.compiled?)) rfl (fun rs r t ht ih => ?_) hrs
  rw [template?_insert, last?, List.filter_append, Registration.id_of_compiled? ht]
  by_cases h : project = r.project ∧ id = r.id
  · obtain ⟨rfl, rfl⟩ := h
    simp [ht]
  · rw [if_neg h, ih, last?]
    have hnot : ¬ (r.project = project ∧ r.id = id) := fun he => h ⟨he.1.symm, he.2.symm⟩
    simp [hnot]

/-- Registrations that are repeated change nothing. -/
theorem record_append_self {rs' : List Registration}
    (hrs' : ∀ r ∈ rs', ∃ t, r.compiled? = some t) :
    record (rs ++ rs' ++ rs') = record (rs ++ rs') := by
  have h : ∀ r ∈ rs ++ rs', ∃ t, r.compiled? = some t := List.forall_mem_append.mpr ⟨hrs, hrs'⟩
  have h' : ∀ r ∈ rs ++ rs' ++ rs', ∃ t, r.compiled? = some t :=
    List.forall_mem_append.mpr ⟨h, hrs'⟩
  refine (ordered_record h').ext ?_ ?_ ?_
  · rw [projectIds_record h', projectIds_record h, List.map_append, List.map_append,
      eraseDups_append_self]
  · intro project
    rw [keys_templates_record h', keys_templates_record h, List.filter_append, List.filter_append,
      List.map_append, List.map_append, eraseDups_append_self]
  · intro project id
    rw [template?_record h', template?_record h, last?, last?]
    congr 1
    rw [List.filter_append, List.filter_append, List.getLast?_append, List.getLast?_append,
      ← Option.or_assoc, Option.or_self]

end Seen

/-! ## Registries with a history -/

namespace Ordered

theorem templates_of_mem (hs : s.Ordered) {entry : Text × Table Text Template}
    (h : entry ∈ s.projects) : s.templates entry.1 = entry.2 := by
  rw [Registry.templates, Table.get?_of_mem hs.projects h, Option.getD_some]

theorem template?_of_mem (hs : s.Ordered) {entry : Text × Table Text Template}
    (h : entry ∈ s.projects) {found : Text × Template} (hf : found ∈ entry.2) :
    s.template? entry.1 found.1 = some found.2 := by
  have htable := hs.templates_of_mem h
  rw [template?, htable]
  exact Table.get?_of_mem (htable ▸ hs.templates entry.1) hf

/-- Without a project, an identifier is looked up in one project after another. -/
theorem find?_none (hs : s.Ordered) (id : Text) :
    s.find? id none = s.projectIds.findSome? fun project => s.template? project id := by
  rw [find?, projectIds, Table.keys, List.findSome?_map, ← List.head?_filterMap,
    ← List.head?_filterMap]
  congr 1
  refine List.filterMap_congr fun entry he => ?_
  rw [Function.comp_apply, template?, hs.templates_of_mem he]

end Ordered

theorem ordered_run (history : List Operation) : (run history).Ordered := by
  rw [run_eq_record]
  exact ordered_record fun _ => exists_compiled_of_mem

/-- A project that is loaded again leaves the registry as it is. -/
theorem run_load_load (history : List Operation) (p : Project) :
    run (history ++ [.load p, .load p]) = run (history ++ [.load p]) := by
  have hclear : (Operation.load p).isClear = false := rfl
  rw [run_eq_record, run_eq_record, List.append_cons, successes_concat hclear,
    successes_concat hclear]
  refine record_append_self (fun _ => exists_compiled_of_mem) fun r hr => ?_
  exact Option.isSome_iff_exists.mp (List.mem_filter.mp hr).2

/-- **A registry is its record.** Under an identifier stands the compiled form of the text that
was registered last since the last clearing, and nothing without one; the projects are those with a
registration, in the order of their first; an identifier is looked up in the projects in this order;
every template in store keeps the rules of the grammar; and loading a project twice in a row is
loading it once. -/
theorem run_matches_successes (history : List Operation) :
    (∀ project id r, last? (successes history) project id = some r →
      ∃ t, Template.compile id r.template = .ok t ∧ t.id = id ∧
        (run history).template? project id = some t) ∧
    (∀ project id, last? (successes history) project id = none →
      (run history).template? project id = none) ∧
    (run history).projectIds = ((successes history).map (·.project)).eraseDups ∧
    (∀ id, (run history).find? id none =
      (run history).projectIds.findSome? fun project => (run history).template? project id) ∧
    (∀ entry ∈ (run history).projects, ∀ found ∈ entry.2,
      Template.compile found.1 found.2.text = .ok found.2 ∧ Grammar.Lawful found.2.fields) ∧
    ∀ p, run (history ++ [.load p, .load p]) = run (history ++ [.load p]) := by
  have hsuccess : ∀ r ∈ successes history, ∃ t, r.compiled? = some t :=
    fun _ => exists_compiled_of_mem
  have htemplate : ∀ project id, (run history).template? project id =
      (last? (successes history) project id).bind (·.compiled?) := by
    rw [run_eq_record]
    exact template?_record hsuccess
  refine ⟨?_, ?_, ?_, (ordered_run history).find?_none, ?_, run_load_load history⟩
  · intro project id r hr
    obtain ⟨hmem, hfor⟩ := List.mem_filter.mp (List.mem_of_getLast? hr)
    obtain ⟨t, ht⟩ := hsuccess r hmem
    obtain ⟨-, rfl⟩ := of_decide_eq_true hfor
    refine ⟨t, Registration.compiled?_eq_some_iff.mp ht, Registration.id_of_compiled? ht, ?_⟩
    rw [htemplate, hr, Option.bind_some, ht]
  · intro project id hnone
    rw [htemplate, hnone, Option.bind_none]
  · rw [run_eq_record]
    exact projectIds_record hsuccess
  · intro entry he found hf
    have hfound := (ordered_run history).template?_of_mem he hf
    have hcompile := compiled_run history entry.1 found.1 found.2 hfound
    exact ⟨hcompile, Template.lawful_of_compile hcompile⟩

/-- A text that breaks the grammar neither replaces a template nor brings a project into being. -/
example : (run [.register ['p'] ⟨['a'], ['5']⟩, .register ['p'] ⟨['a'], ['{']⟩,
    .register ['q'] ⟨['a'], ['}']⟩]).projects =
      [(['p'], [(['a'], ⟨['a'], ['5'], [.literal ['5']]⟩)])] := by cbv

end Registry

end Barcode

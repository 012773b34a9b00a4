import Barcode.Proofs.Registry.Answers

/-!
# Projects are isolated

An operation on one project leaves the templates of every other project as they are, and what it
does to its own project depends on the templates of that project only. So two histories that agree
on a project, clearings included, give the same answers for it, whatever is done for other projects
before, between and after.
-/

namespace Barcode.Registry

open Document (Value)
open Registration (enter enter_of_some enter_of_none)

variable {s s' : Registry} {p : Text} {op : Operation} {history history' : List Operation}

/-- An operation on the project itself, or one on all projects. -/
def Operation.concerns (p : Text) : Operation → Bool
  | .register project _ => project = p
  | .load project => project.id = p
  | .clear => true

/-! ## One registration -/

theorem templates_enter_of_ne {r : Registration} (h : r.project ≠ p) :
    (enter s r).templates p = s.templates p := by
  cases hc : r.compiled? with
  | none => rw [enter_of_none hc]
  | some t => rw [enter_of_some hc, templates_insert, if_neg h.symm]

theorem templates_enter_congr (h : s.templates p = s'.templates p) (r : Registration) :
    (enter s r).templates p = (enter s' r).templates p := by
  cases hc : r.compiled? with
  | none => rw [enter_of_none hc, enter_of_none hc, h]
  | some t =>
    rw [enter_of_some hc, enter_of_some hc, templates_insert, templates_insert]
    by_cases hp : p = r.project
    · rw [if_pos hp, if_pos hp, ← hp, h]
    · rw [if_neg hp, if_neg hp, h]

/-! ## One operation -/

theorem project_of_mem_attempts {r : Registration} (hop : op.concerns p = false)
    (hr : r ∈ op.attempts) : r.project ≠ p := by
  cases op with
  | register project d =>
    obtain rfl := List.mem_singleton.mp hr
    exact of_decide_eq_false hop
  | load project =>
    obtain ⟨d, -, rfl⟩ := List.mem_map.mp hr
    exact of_decide_eq_false hop
  | clear => cases hop

/-- An operation on other projects does not touch a project. -/
theorem templates_apply_of_not_concerns (h : op.concerns p = false) :
    (op.apply s).templates p = s.templates p := by
  have hclear : op.isClear = false := by
    cases op with
    | clear => cases h
    | _ => rfl
  have hne : ∀ r ∈ op.attempts, r.project ≠ p := fun r hr => project_of_mem_attempts h hr
  rw [apply_eq_foldl hclear]
  generalize op.attempts = rs at hne
  induction rs generalizing s with
  | nil => rfl
  | cons r rs ih =>
    rw [List.foldl_cons, ih fun x hx => hne x (List.mem_cons_of_mem _ hx),
      templates_enter_of_ne (hne r List.mem_cons_self)]

/-- What an operation does to a project depends on the templates of that project only. -/
theorem templates_apply_congr (h : s.templates p = s'.templates p) (op : Operation) :
    (op.apply s).templates p = (op.apply s').templates p := by
  cases hclear : op.isClear with
  | true =>
    cases op with
    | clear => rfl
    | _ => cases hclear
  | false =>
    rw [apply_eq_foldl hclear, apply_eq_foldl hclear]
    generalize op.attempts = rs
    induction rs generalizing s s' with
    | nil => exact h
    | cons r rs ih => exact ih (templates_enter_congr h r)

/-! ## Histories -/

/-- Operations on other projects may be left out. -/
theorem templates_foldl_filter (h : s.templates p = s'.templates p) (history : List Operation) :
    (history.foldl Operation.apply s).templates p =
      ((history.filter (·.concerns p)).foldl Operation.apply s').templates p := by
  induction history generalizing s s' with
  | nil => exact h
  | cons op history ih =>
    cases hop : op.concerns p with
    | true =>
      rw [List.filter_cons_of_pos hop]
      exact ih (templates_apply_congr h op)
    | false =>
      rw [List.filter_cons_of_neg (by simp [hop])]
      exact ih ((templates_apply_of_not_concerns hop).trans h)

theorem templates_run_filter (p : Text) (history : List Operation) :
    (run history).templates p = (run (history.filter (·.concerns p))).templates p :=
  templates_foldl_filter rfl history

/-- **What is done for other projects does not show in a project.** -/
theorem answers_isolated
    (h : history.filter (·.concerns p) = history'.filter (·.concerns p)) :
    (run history).templates p = (run history').templates p ∧
    (∀ code, (run history).readings code p = (run history').readings code p) ∧
    (∀ code overrides?, (run history).lookupOverride code p overrides? =
      (run history').lookupOverride code p overrides?) ∧
    (∀ id, (run history).find? id (some p) = (run history').find? id (some p)) ∧
    ∀ id code data, (run history).synthesize id code data (some p) =
      (run history').synthesize id code data (some p) := by
  have htemplates : (run history).templates p = (run history').templates p := by
    rw [templates_run_filter, h, ← templates_run_filter]
  have hfound := template?_congr htemplates
  exact ⟨htemplates, readings_congr htemplates, lookupOverride_congr hfound, find?_congr hfound,
    synthesize_congr hfound⟩

/-- Another project has the template from which an override would send a code onward; without one
of its own the project sends nothing, with or without that other project. -/
theorem answers_isolated_transmission :
    ∃ history history' : List Operation, ∃ o : Override,
      history.filter (·.concerns ['p']) = history'.filter (·.concerns ['p']) ∧
      ((run history).find? ['t'] none).isSome = true ∧
      (run history).lookupOverride "912345".toList ['p'] (some [o]) =
        (run history').lookupOverride "912345".toList ['p'] (some [o]) ∧
      ((run history).lookupOverride "912345".toList ['p'] (some [o])).outcome =
        .ok (some ⟨"12".toList, .null, .null, some 345⟩) := by
  let own : List Operation := [.register ['p'] ⟨['b'], Text.withBraces "[code:*]"⟩, .clear,
    .register ['p'] ⟨['a'], Text.withBraces "9[code:2][embed:3]"⟩]
  let other : Definition := ⟨['t'], Text.withBraces "2[code:5][_][embed:5][ec]"⟩
  let history : List Operation := own ++ [.register ['q'] other, .load ⟨['r'], [other], []⟩]
  let o : Override :=
    { id := ['a'], template := Text.withBraces "9[code:2][embed:3]",
      transmissionTemplate := .text ['t'], transmissionCode := .text "12345".toList }
  have hsame : history.filter (·.concerns ['p']) = own.filter (·.concerns ['p']) := by cbv
  have hlookup := (answers_isolated hsame).2.2.1 "912345".toList (some [o])
  have hown : ((run own).lookupOverride "912345".toList ['p'] (some [o])).outcome =
      .ok (some ⟨"12".toList, .null, .null, some 345⟩) := by cbv
  refine ⟨history, own, o, hsame, by cbv, hlookup, ?_⟩
  rw [hlookup, hown]

end Barcode.Registry

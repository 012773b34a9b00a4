import Barcode.Proofs.Registry.Answers
import Barcode.Proofs.Registry.Loading
import Barcode.Report

/-!
# The order of registration does not show

Definitions under distinct identifiers leave the same template under each of them, in whatever
order they are registered and whichever of them fail. The table of a project keeps the order, but
a report sorts the readings of a code by the identifiers of their templates, and overrides and
codes to send onward are looked up by identifier.
-/

namespace Barcode

open Document (Value)

namespace Report

variable {rs rs' : List Reading} {s : Registry} {code project : Text} {withFields : Bool}

/-! ## Readings in the order of their templates -/

/-- The identifiers of the templates ascend, and none comes twice. -/
def Ascending (rs : List Reading) : Prop :=
  rs.Pairwise fun a b => Text.le a.template.id b.template.id = true ∧ a.template.id ≠ b.template.id

theorem sorted_perm (rs : List Reading) : (sorted rs).Perm rs := List.mergeSort_perm rs _

theorem ascending_sorted (h : rs.Pairwise fun a b => a.template.id ≠ b.template.id) :
    Ascending (sorted rs) := by
  have hle : (sorted rs).Pairwise fun a b => Text.le a.template.id b.template.id = true := by
    refine List.pairwise_mergeSort ?_ ?_ rs
    · exact fun a b c => Text.le_trans a.template.id b.template.id c.template.id
    · exact fun a b => Text.le_total a.template.id b.template.id
  exact hle.and (h.perm (sorted_perm rs).symm Ne.symm)

/-- There is one ascending order. -/
theorem Ascending.eq_of_perm (h : Ascending rs) (h' : Ascending rs') (hp : rs.Perm rs') :
    rs = rs' := by
  refine List.Perm.eq_of_pairwise ?_ h h' hp
  intro a b _ _ hab hba
  exact absurd (Text.le_antisymm _ _ hab.1 hba.1) hab.2

/-- A report does not depend on the order in which the readings come. -/
theorem json_of_perm (h : rs.Pairwise fun a b => a.template.id ≠ b.template.id)
    (hp : rs.Perm rs') : json rs withFields = json rs' withFields := by
  have hsorted : sorted rs = sorted rs' :=
    (ascending_sorted h).eq_of_perm (ascending_sorted (h.perm hp Ne.symm))
      ((sorted_perm rs).trans (hp.trans (sorted_perm rs').symm))
  rw [json, json, ofReadings, ofReadings, hsorted]

/-- The report on a code is that of the readings that the templates accept. -/
theorem outcome_codeJson (hc : s.Compiled) (hs : s.Ordered) (code project : Text)
    (withFields : Bool) :
    (codeJson s code project withFields).outcome = json (s.accepted code project) withFields := by
  rw [codeJson, Traced.outcome_bind, Registry.outcome_readings hc hs]
  rfl

end Report

namespace Registry

variable {project id : Text} {ds ds' : List Definition} {t : Template}

/-! ## What registrations leave under an identifier -/

/-- A registration that fails leaves no trace, so the last one that compiles is found. -/
theorem template?_run_registers (project : Text) (ds : List Definition) (id : Text) :
    (run (ds.map (.register project))).template? project id = lastCompiled ds id := by
  suffices h : ∀ s : Registry, ((ds.map (.register project)).foldl Operation.apply s).template?
      project id = (lastCompiled ds id).or (s.template? project id) by
    rw [run, h, template?_empty, Option.or_none]
  induction ds with
  | nil => exact fun s => rfl
  | cons d ds ih =>
    intro s
    rw [List.map_cons, List.foldl_cons, ih, Operation.apply, template?_register, lastCompiled_cons,
      Option.or_assoc]

theorem lastCompiled_eq_some_iff (h : (ds.map Definition.id).Nodup) :
    lastCompiled ds id = some t ↔
      ∃ d ∈ ds, d.id = id ∧ (Template.compile d.id d.template).toOption = some t := by
  induction ds with
  | nil => simp [lastCompiled]
  | cons d ds ih =>
    obtain ⟨hnot, hrest⟩ := List.nodup_cons.mp h
    rw [lastCompiled_cons]
    by_cases hd : d.id = id
    · have hother : ∀ x ∈ ds, x.id ≠ id :=
        fun x hx hid => hnot (List.mem_map.mpr ⟨x, hx, hid.trans hd.symm⟩)
      have hnone : lastCompiled ds id = none :=
        lastCompiled_eq_none_iff.mpr fun x hx hid => absurd hid (hother x hx)
      rw [hnone, Option.none_or, if_pos hd]
      constructor
      · exact fun ht => ⟨d, List.mem_cons_self, hd, ht⟩
      · intro hex
        obtain ⟨x, hx, hid, ht⟩ := hex
        rcases List.mem_cons.mp hx with rfl | hx
        · exact ht
        · exact absurd hid (hother x hx)
    · rw [if_neg hd, Option.or_none, ih hrest]
      simp [hd]

/-- Under distinct identifiers the order of the definitions does not matter. -/
theorem lastCompiled_of_perm (h : (ds.map Definition.id).Nodup) (hp : ds.Perm ds') (id : Text) :
    lastCompiled ds id = lastCompiled ds' id := by
  have h' : (ds'.map Definition.id).Nodup := (hp.map _).nodup_iff.mp h
  apply Option.ext
  intro t
  rw [lastCompiled_eq_some_iff h, lastCompiled_eq_some_iff h']
  simp only [hp.mem_iff]

theorem template?_of_perm (h : (ds.map Definition.id).Nodup) (hp : ds.Perm ds')
    (project id : Text) :
    (run (ds.map (.register project))).template? project id =
      (run (ds'.map (.register project))).template? project id := by
  rw [template?_run_registers, template?_run_registers, lastCompiled_of_perm h hp]

theorem templates_of_perm (h : (ds.map Definition.id).Nodup) (hp : ds.Perm ds') (project : Text) :
    ((run (ds.map (.register project))).templates project).Perm
      ((run (ds'.map (.register project))).templates project) :=
  Table.perm_of_get? ((ordered_run _).templates project) ((ordered_run _).templates project)
    (template?_of_perm h hp project)

/-- **The order in which templates are registered does not show in any answer.** -/
theorem answers_of_perm (h : (ds.map Definition.id).Nodup) (hp : ds.Perm ds') (project : Text) :
    (∀ code withFields,
      (Report.codeJson (run (ds.map (.register project))) code project withFields).outcome =
        (Report.codeJson (run (ds'.map (.register project))) code project withFields).outcome) ∧
    (∀ code overrides?,
      (run (ds.map (.register project))).lookupOverride code project overrides? =
        (run (ds'.map (.register project))).lookupOverride code project overrides?) ∧
    ∀ id code data,
      (run (ds.map (.register project))).synthesize id code data (some project) =
        (run (ds'.map (.register project))).synthesize id code data (some project) := by
  have hfound := template?_of_perm h hp project
  refine ⟨?_, lookupOverride_congr hfound, synthesize_congr hfound⟩
  intro code withFields
  have hc := compiled_run (ds.map (.register project))
  have hs := ordered_run (ds.map (.register project))
  rw [Report.outcome_codeJson hc hs, Report.outcome_codeJson (compiled_run _) (ordered_run _)]
  exact Report.json_of_perm (pairwise_accepted hc hs code project)
    ((templates_of_perm h hp project).filterMap _)

/-- The tables of the two registries differ, and one of the texts does not compile. -/
theorem answers_of_perm_failing :
    ∃ ds ds' : List Definition, (ds.map Definition.id).Nodup ∧ ds.Perm ds' ∧
      ((run (ds.map (.register ['p']))).templates ['p']).keys = [['b'], ['a']] ∧
      ((run (ds'.map (.register ['p']))).templates ['p']).keys = [['a'], ['b']] ∧
      (Report.codeJson (run (ds.map (.register ['p']))) "97".toList ['p'] false).outcome =
        (Report.codeJson (run (ds'.map (.register ['p']))) "97".toList ['p'] false).outcome ∧
      (Report.codeJson (run (ds'.map (.register ['p']))) "97".toList ['p'] false).outcome =
        .ok ('[' :: Text.withBraces ("\n  [\n    \"Template\": \"a\",\n" ++
          "    \"Lookup Code\": \"\",\n    \"Embedded Data\": 7\n  ],\n  [\n" ++
          "    \"Template\": \"b\",\n    \"Lookup Code\": \"97\"\n  ]\n") ++ [']']) := by
  let a : Definition := ⟨['a'], Text.withBraces "9[embed:1]"⟩
  let b : Definition := ⟨['b'], Text.withBraces "[code:*]"⟩
  let c : Definition := ⟨['c'], Text.withBraces "[bogus]"⟩
  have hids : ([b, c, a].map Definition.id).Nodup := by decide
  have hperm : ([b, c] ++ [a]).Perm ([a] ++ [b, c]) := List.perm_append_comm
  refine ⟨[b, c, a], [a, b, c], hids, hperm, by cbv, by cbv, ?_, by cbv⟩
  exact (answers_of_perm hids hperm ['p']).1 "97".toList false

end Registry

end Barcode

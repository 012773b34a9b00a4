import Barcode.Proofs.Document.Readback
import Barcode.Proofs.Report.Order

/-!
# Reports are decoded to what they show

A report on a code is the list of the documents of all its readings, in the order of the
identifiers of their templates. Whatever the identifiers, the codes and the texts of the templates
hold, decoding the report gives these documents back.
-/

namespace Barcode

open Document (Value Portable)
open Document.Reader (nestingLimit)
open Registry (Operation run)
open Sequence

namespace Report

variable {r : Reading} {rs : List Reading} {withFields : Bool} {v : Value}
  {text code project : Text} {depth : Nat} {ms : List (Text × Value)}

/-! ## The document of a reading -/

/-- The names in the document of a reading, in the order in which they come. -/
def memberNames : List Text :=
  ["Template".toList, "Lookup Code".toList, "Embedded Data".toList, "Embedded Decimal".toList,
    "Reference Price".toList, "Fields".toList]

theorem members_eq_ok (h : members r withFields = .ok ms) :
    ∃ data decimal price, ms =
      [("Template".toList, .text r.template.id), ("Lookup Code".toList, .text r.lookupCode)] ++
        (Option.map (fun i => ("Embedded Data".toList, Value.integer i)) data).toList ++
        (Option.map (fun t => ("Embedded Decimal".toList, Value.text t)) decimal).toList ++
        (Option.map (fun i => ("Reference Price".toList, Value.integer i)) price).toList ++
        if withFields then [("Fields".toList, .list (fields r))] else [] := by
  obtain ⟨data, -, h⟩ := bind_eq_ok.mp h
  obtain ⟨decimal, -, h⟩ := bind_eq_ok.mp h
  obtain ⟨price, -, h⟩ := bind_eq_ok.mp h
  exact ⟨data, decimal, price, (Except.ok.inj h).symm⟩

theorem sublist_option {α : Type} (o : Option α) (name : Text) (f : α → Value) :
    ((o.map fun a => (name, f a)).toList.map Prod.fst).Sublist [name] := by
  cases o with
  | none => exact List.nil_sublist _
  | some a => exact List.Sublist.refl _

/-- No name comes twice in the document of a reading. -/
theorem nodup_names (h : members r withFields = .ok ms) : (ms.map Prod.fst).Nodup := by
  obtain ⟨data, decimal, price, rfl⟩ := members_eq_ok h
  have hfields : ((if withFields then [("Fields".toList, Value.list (fields r))] else []).map
      Prod.fst).Sublist ["Fields".toList] := by
    cases withFields with
    | true => exact List.Sublist.refl _
    | false => exact List.nil_sublist _
  have hnames : memberNames.Nodup := by decide
  refine List.Nodup.sublist ?_ hnames
  rw [List.map_append, List.map_append, List.map_append, List.map_append]
  exact ((((List.Sublist.refl _).append (sublist_option data _ _)).append
    (sublist_option decimal _ _)).append (sublist_option price _ _)).append hfields

theorem portable_option {α : Type} (depth : Nat) (o : Option α) (name : Text) {f : α → Value}
    (hf : ∀ a, Portable depth (f a)) :
    ∀ m ∈ (o.map fun a => (name, f a)).toList, Portable depth m.2 := by
  intro m hm
  obtain ⟨a, -, rfl⟩ := Option.map_eq_some_iff.mp (Option.mem_toList.mp hm)
  exact hf a

theorem portable_fields (r : Reading) : Portable (depth + 2) (.list (fields r)) := by
  refine .list ?_
  intro v hv
  obtain ⟨e, -, rfl⟩ := List.mem_map.mp hv
  have hnames : ["component".toList, "value".toList].Nodup := by decide
  refine .object hnames ?_
  intro m hm
  rcases List.mem_pair.mp hm with rfl | rfl <;> exact .text _

theorem portable_ofReading (h : ofReading r withFields = .ok v) : Portable (depth + 3) v := by
  obtain ⟨ms, hms, h⟩ := bind_eq_ok.mp h
  obtain rfl := Except.ok.inj h
  refine .object (nodup_names hms) ?_
  obtain ⟨data, decimal, price, rfl⟩ := members_eq_ok hms
  have hfields : ∀ m ∈ if withFields then [("Fields".toList, Value.list (fields r))] else [],
      Portable (depth + 2) m.2 := by
    cases withFields with
    | true => exact List.forall_mem_singleton.mpr (portable_fields r)
    | false => exact List.forall_mem_nil _
  have hdata := portable_option (depth + 2) data "Embedded Data".toList .integer
  have hdecimal := portable_option (depth + 2) decimal "Embedded Decimal".toList .text
  have hprice := portable_option (depth + 2) price "Reference Price".toList .integer
  intro m hm
  rcases List.mem_append.mp hm with hm | hm
  · rcases List.mem_append.mp hm with hm | hm
    · rcases List.mem_append.mp hm with hm | hm
      · rcases List.mem_append.mp hm with hm | hm
        · rcases List.mem_pair.mp hm with rfl | rfl <;> exact .text _
        · exact hdata m hm
      · exact hdecimal m hm
    · exact hprice m hm
  · exact hfields m hm

/-! ## The report -/

/-- A report that is written is read back as the documents of its readings, in their order. -/
theorem read_json (h : json rs withFields = .ok text) :
    ∃ documents, Document.read text = .ok (.list documents) ∧
      List.Forall₂ (fun r d => ofReading r withFields = .ok d) (sorted rs) documents := by
  obtain ⟨v, hv, hwrite⟩ := bind_eq_ok.mp h
  obtain ⟨documents, hdocuments, hv⟩ := bind_eq_ok.mp hv
  obtain rfl := Except.ok.inj hv
  have hall := mapM_eq_ok.mp hdocuments
  refine ⟨documents, ?_, hall⟩
  have hportable : Portable nestingLimit (.list documents) := by
    refine .list ?_
    intro d hd
    obtain ⟨r, -, hr⟩ := exists_of_mem_right hall hd
    exact portable_ofReading hr
  exact hportable.read_write hwrite

/-- **A report loses nothing.** A report that is written on a code is decoded to the documents of
the readings of the code, in the ascending order of the identifiers of their templates and no
identifier twice. These are the readings along the templates of the project that accept the code,
all of them and no others. The decoded report is what the matches are answered with. -/
theorem codeJson_decoded (history : List Operation)
    (h : (codeJson (run history) code project withFields).outcome = .ok text) :
    ∃ readings documents, Document.read text = .ok (.list documents) ∧
      List.Forall₂ (fun r d => ofReading r withFields = .ok d) readings documents ∧
      Ascending readings ∧
      (∀ r, r ∈ readings ↔ ∃ t, (run history).template? project r.template.id = some t ∧
        t.read code = .ok (.accepted r)) ∧
      (withFields = false →
        (codeDocument (run history) code project).outcome = .ok (.ok (.list documents))) := by
  have hc := Registry.compiled_run history
  have hs := Registry.ordered_run history
  have hjson := h
  rw [outcome_codeJson hc hs] at hjson
  obtain ⟨documents, hread, hdocuments⟩ := read_json hjson
  refine ⟨_, documents, hread, hdocuments, ?_, ?_, ?_⟩
  · exact ascending_sorted (Registry.pairwise_accepted hc hs code project)
  · intro r
    rw [(sorted_perm _).mem_iff, Registry.mem_accepted_iff hc hs]
  · intro hplain
    subst hplain
    rw [codeDocument, Traced.outcome_bind, h, ok_bind, ← hread]
    rfl

/-- An identifier of a quote, a backslash and a line break, beside one with a line separator, and a
code with a tab and a quote. -/
theorem codeJson_decoded_escapes :
    ∃ history text documents r d,
      (codeJson (run history) "9\t\"042".toList ['p'] false).outcome = .ok text ∧
      Document.read text = .ok (.list documents) ∧
      (codeDocument (run history) "9\t\"042".toList ['p']).outcome = .ok (.ok (.list documents)) ∧
      r.template.id = "\"\\\n".toList ∧ ofReading r false = .ok d ∧ d ∈ documents := by
  let ds : List Definition := [⟨"b\u2028".toList, Text.withBraces "[code:*]"⟩,
    ⟨"\"\\\n".toList, Text.withBraces "9\t\"[embed:3]"⟩]
  let history : List Operation := ds.map (.register ['p'])
  let t : Template := ⟨"\"\\\n".toList, Text.withBraces "9\t\"[embed:3]",
    [.literal "9\t\"".toList, .embed 3]⟩
  let r : Reading := ⟨t, [(.literal "9\t\"".toList, "9\t\"".toList), (.embed 3, "042".toList)]⟩
  have htext : (codeJson (run history) "9\t\"042".toList ['p'] false).outcome =
      .ok ('[' :: Text.withBraces ("\n  [\n    \"Template\": \"\\\"\\\\\\n\",\n" ++
        "    \"Lookup Code\": \"\",\n    \"Embedded Data\": 42\n  ],\n  [\n" ++
        "    \"Template\": \"b\u2028\",\n    \"Lookup Code\": \"9\\t\\\"042\"\n  ]\n") ++
        [']']) := by cbv
  obtain ⟨readings, documents, hread, hall, -, hmem, hdocument⟩ := codeJson_decoded history htext
  have hstored : (run history).template? ['p'] t.id = some t := by cbv
  have haccepted : t.read "9\t\"042".toList = .ok (.accepted r) := by cbv
  have hr : r ∈ readings := (hmem r).mpr ⟨t, hstored, haccepted⟩
  obtain ⟨d, hd, hof⟩ := exists_of_mem_left hall hr
  exact ⟨history, _, documents, r, d, htext, hread, hdocument rfl, rfl, hof, hd⟩

end Report

end Barcode

import Barcode.CommandLine.Run
import Barcode.Proofs.Document.Limits

/-!
# Which failures of a metadata file are reported

A file that is not there, a text that is no document and a document of another shape are metadata
errors, and a call reports them in one line. A path with a null character, bytes that are not UTF-8
and a text that oversteps a limit of the reader are faults of another kind, and a call ends with
them without a report. A load fails in one of these two ways or gives projects, and which of them
it is depends on the path, the content and the depth that is allowed. Only of a text with half of a
character it is left open what becomes of it, because there is no such text here.
-/

namespace Barcode

open Document (ReadError IsDocument Oversteps readWithin exists_read_iff read_eq_error_iff
  read_eq_malformed_iff)
open Sequence (ok_bind bind_eq_error)

namespace Project

/-- The contents whose failure is a metadata error, with that error. -/
inductive Reported (depth : Nat) (path : Text) : FileContent → MetadataError → Prop
  | absent (hpath : '\x00' ∉ path) (failure : ReadFailure) :
    Reported depth path (.error failure) (.unreadable path failure)
  | notJson {t : Text} (hpath : '\x00' ∉ path) (hdocument : ¬ IsDocument depth t)
    (hlimits : ∀ e, ¬ Oversteps depth t e) :
    Reported depth path (.ok t.utf8Encode) (.unreadable path .notJson)
  | shape {t : Text} {document : Document.Value} {error : MetadataError} (hpath : '\x00' ∉ path)
    (hread : readWithin depth t = .ok document) (h : listOfDocument document = .error error) :
    Reported depth path (.ok t.utf8Encode) error

/-- The contents whose failure is no metadata error, with the fault that it is. -/
inductive Unreported (depth : Nat) (path : Text) : FileContent → Fault → Prop
  | null {content : FileContent} (hpath : '\x00' ∈ path) :
    Unreported depth path content .nullInPath
  | encoding {bytes : ByteArray} (hpath : '\x00' ∉ path)
    (hbytes : ∀ t : Text, bytes ≠ t.utf8Encode) : Unreported depth path (.ok bytes) .notUtf8
  | digits {t : Text} {n : Nat} (hpath : '\x00' ∉ path)
    (ht : Oversteps depth t (.numeralTooLong n)) :
    Unreported depth path (.ok t.utf8Encode) (.numeralTooLong n)
  | nesting {t : Text} (hpath : '\x00' ∉ path) (ht : Oversteps depth t .nestedTooDeeply) :
    Unreported depth path (.ok t.utf8Encode) .nestedTooDeeply

/-- The contents with half of a character in a text. What becomes of them is left open. -/
inductive LeftOpen (depth : Nat) (path : Text) : FileContent → Prop
  | half {t : Text} (hpath : '\x00' ∉ path) (ht : Oversteps depth t .halfCharacter) :
    LeftOpen depth path (.ok t.utf8Encode)

variable {depth : Nat} {path t : Text} {content : FileContent} {fault : Fault}
  {error : MetadataError}

/-! ## The document of a file -/

theorem fromUTF8?_utf8Encode (t : Text) :
    String.fromUTF8? t.utf8Encode = some (String.ofList t) := by
  rw [String.fromUTF8?, dif_pos ⟨t, rfl⟩]
  rfl

theorem fromUTF8?_eq_none {bytes : ByteArray} (h : ∀ t : Text, bytes ≠ t.utf8Encode) :
    String.fromUTF8? bytes = none := by
  rw [String.fromUTF8?, dif_neg]
  intro hvalid
  obtain ⟨t, ht⟩ := hvalid
  exact h t ht

/-- The fault of a text that is refused. -/
def refusal (path : Text) : ReadError → Fault
  | .malformed => .metadata (.unreadable path .notJson)
  | .numeralTooLong digits => .numeralTooLong digits
  | .nestedTooDeeply => .nestedTooDeeply
  | .halfCharacter => .halfCharacter

theorem documentOf_null (hpath : '\x00' ∈ path) :
    documentOf depth path content = .error .nullInPath := by
  unfold documentOf
  rw [if_pos (List.contains_iff_mem.mpr hpath)]

theorem documentOf_absent (hpath : '\x00' ∉ path) (failure : ReadFailure) :
    documentOf depth path (.error failure) = .error (.metadata (.unreadable path failure)) := by
  unfold documentOf
  rw [if_neg fun h => hpath (List.contains_iff_mem.mp h)]

theorem documentOf_encoding {bytes : ByteArray} (hpath : '\x00' ∉ path)
    (h : ∀ t : Text, bytes ≠ t.utf8Encode) :
    documentOf depth path (.ok bytes) = .error .notUtf8 := by
  unfold documentOf
  rw [if_neg fun h => hpath (List.contains_iff_mem.mp h)]
  simp only [fromUTF8?_eq_none h]

theorem documentOf_utf8Encode (hpath : '\x00' ∉ path) (t : Text) :
    documentOf depth path (.ok t.utf8Encode) = (readWithin depth t).mapError (refusal path) := by
  unfold documentOf
  rw [if_neg fun h => hpath (List.contains_iff_mem.mp h)]
  simp only [fromUTF8?_utf8Encode, String.toList_ofList]
  cases readWithin depth t with
  | ok document => rfl
  | error e => cases e <;> rfl

/-! ## The failures of a load -/

theorem listOfContent_of_documentOf (h : documentOf depth path content = .error fault) :
    listOfContent depth path content = .error fault := by
  rw [listOfContent, h]
  rfl

theorem listOfContent_of_refused (hpath : '\x00' ∉ path) {e : ReadError}
    (h : readWithin depth t = .error e) :
    listOfContent depth path (.ok t.utf8Encode) = .error (refusal path e) := by
  refine listOfContent_of_documentOf ?_
  rw [documentOf_utf8Encode hpath, h]
  rfl

theorem listOfContent_of_read (hpath : '\x00' ∉ path) {document : Document.Value}
    (h : readWithin depth t = .ok document) :
    listOfContent depth path (.ok t.utf8Encode) = (listOfDocument document).mapError .metadata := by
  rw [listOfContent, documentOf_utf8Encode hpath, h]
  rfl

theorem Reported.listOfContent (h : Reported depth path content error) :
    listOfContent depth path content = .error (.metadata error) := by
  cases h with
  | absent hpath failure =>
    exact listOfContent_of_documentOf (documentOf_absent hpath failure)
  | notJson hpath hdocument hlimits =>
    exact listOfContent_of_refused hpath (read_eq_malformed_iff.mpr ⟨hdocument, hlimits⟩)
  | shape hpath hread hlist =>
    rw [listOfContent_of_read hpath hread, hlist]
    rfl

theorem Unreported.listOfContent (h : Unreported depth path content fault) :
    listOfContent depth path content = .error fault := by
  cases h with
  | null hpath => exact listOfContent_of_documentOf (documentOf_null hpath)
  | encoding hpath hbytes => exact listOfContent_of_documentOf (documentOf_encoding hpath hbytes)
  | digits hpath ht =>
    exact listOfContent_of_refused hpath ((read_eq_error_iff ht.ne_malformed).mpr ht)
  | nesting hpath ht =>
    exact listOfContent_of_refused hpath ((read_eq_error_iff ht.ne_malformed).mpr ht)

theorem LeftOpen.listOfContent (h : LeftOpen depth path content) :
    listOfContent depth path content = .error .halfCharacter := by
  cases h with
  | half hpath ht =>
    exact listOfContent_of_refused hpath ((read_eq_error_iff ht.ne_malformed).mpr ht)

theorem Unreported.ne_metadata (h : Unreported depth path content fault) (error : MetadataError) :
    fault ≠ .metadata error := by
  cases h <;> exact fun h => nomatch h

theorem failure_of_refused (hpath : '\x00' ∉ path) {e : ReadError}
    (h : readWithin depth t = .error e) :
    (∃ error, refusal path e = .metadata error ∧ Reported depth path (.ok t.utf8Encode) error) ∨
      Unreported depth path (.ok t.utf8Encode) (refusal path e) ∨
        refusal path e = .halfCharacter ∧ LeftOpen depth path (.ok t.utf8Encode) := by
  cases e with
  | malformed =>
    obtain ⟨hdocument, hlimits⟩ := read_eq_malformed_iff.mp h
    exact Or.inl ⟨_, rfl, .notJson hpath hdocument hlimits⟩
  | numeralTooLong n =>
    have hne : ReadError.numeralTooLong n ≠ .malformed := fun h => nomatch h
    exact Or.inr (Or.inl (.digits hpath ((read_eq_error_iff hne).mp h)))
  | nestedTooDeeply =>
    have hne : ReadError.nestedTooDeeply ≠ .malformed := fun h => nomatch h
    exact Or.inr (Or.inl (.nesting hpath ((read_eq_error_iff hne).mp h)))
  | halfCharacter =>
    have hne : ReadError.halfCharacter ≠ .malformed := fun h => nomatch h
    exact Or.inr (Or.inr ⟨rfl, .half hpath ((read_eq_error_iff hne).mp h)⟩)

/-- A load fails with a metadata error that is reported, with a fault that is not, or at half of
a character. -/
theorem failure_cases (h : listOfContent depth path content = .error fault) :
    (∃ error, fault = .metadata error ∧ Reported depth path content error) ∨
      Unreported depth path content fault ∨
        fault = .halfCharacter ∧ LeftOpen depth path content := by
  by_cases hpath : '\x00' ∈ path
  · rw [listOfContent_of_documentOf (documentOf_null hpath)] at h
    obtain rfl := Except.error.inj h
    exact Or.inr (Or.inl (.null hpath))
  cases content with
  | error failure =>
    rw [listOfContent_of_documentOf (documentOf_absent hpath failure)] at h
    exact Or.inl ⟨_, (Except.error.inj h).symm, .absent hpath failure⟩
  | ok bytes =>
    by_cases hbytes : ∃ t : Text, bytes = t.utf8Encode
    · obtain ⟨t, rfl⟩ := hbytes
      cases hread : readWithin depth t with
      | ok document =>
        rw [listOfContent_of_read hpath hread] at h
        cases hlist : listOfDocument document with
        | ok projects =>
          rw [hlist] at h
          cases h
        | error error =>
          rw [hlist] at h
          exact Or.inl ⟨error, (Except.error.inj h).symm, .shape hpath hread hlist⟩
      | error e =>
        rw [listOfContent_of_refused hpath hread] at h
        obtain rfl := Except.error.inj h
        exact failure_of_refused hpath hread
    · rw [listOfContent_of_documentOf (documentOf_encoding hpath (not_exists.mp hbytes))] at h
      obtain rfl := Except.error.inj h
      exact Or.inr (Or.inl (.encoding hpath (not_exists.mp hbytes)))

end Project

namespace CommandLine.Call

open Document.Reader (nestingLimit)
open Project (Reported Unreported LeftOpen listOfContent)

variable {call : Call} {path : Text} {content : FileContent} {fault : Fault}
  {error : MetadataError}

theorem projects_of_file? (h : call.file? = some path) (content : FileContent) :
    call.projects content = listOfContent nestingLimit path content := by
  unfold file? at h
  unfold projects
  cases htask : call.task <;> cases hsource : call.source <;> simp_all

/-- Metadata that is refused ends a call with status 2 and one line. -/
theorem run_of_reported (hlevel : call.logLevel ≠ none) (hfile : call.file? = some path)
    (h : Reported nestingLimit path content error) :
    call.run content = .ok (.complaint 2 ("Error: ".toList ++ error.message.toList)) := by
  have hlog : ¬ call.logLevel.isNone = true := fun h => hlevel (Option.isNone_iff_eq_none.mp h)
  rw [run, if_neg hlog, projects_of_file? hfile, h.listOfContent]

theorem run_of_unreported (hlevel : call.logLevel ≠ none) (hfile : call.file? = some path)
    (h : Unreported nestingLimit path content fault) :
    call.run content = .ofExcept (.error fault) := by
  have hlog : ¬ call.logLevel.isNone = true := fun h => hlevel (Option.isNone_iff_eq_none.mp h)
  have hload := h.listOfContent
  rw [run, if_neg hlog, projects_of_file? hfile, hload]
  cases h <;> rfl

/-- **What becomes of metadata that cannot be read.** A load that fails does so with a metadata
error, which a call reports in one line with status 2; but a null character in the path, bytes that
are not UTF-8, an integer with too many digits and a bracket too deep are faults of another kind,
and a call ends with them without a report. Half of a character in a text is neither: of such a
document nothing is said. -/
theorem load_reports (depth : Nat) (path : Text) (content : FileContent) :
    (∀ fault, listOfContent depth path content = .error fault ↔
      (∃ error, fault = .metadata error ∧ Reported depth path content error) ∨
        Unreported depth path content fault ∨
          fault = .halfCharacter ∧ LeftOpen depth path content) ∧
    (∀ fault, Unreported depth path content fault → ∀ error, fault ≠ .metadata error) ∧
    ∀ call : Call, call.logLevel ≠ none → call.file? = some path →
      (∀ error, Reported nestingLimit path content error →
        call.run content = .ok (.complaint 2 ("Error: ".toList ++ error.message.toList))) ∧
      ∀ fault, Unreported nestingLimit path content fault →
        call.run content = .ofExcept (.error fault) := by
  refine ⟨fun fault => ⟨Project.failure_cases, fun h => ?_⟩, fun _ h => h.ne_metadata, ?_⟩
  · obtain ⟨error, rfl, hreported⟩ | hunreported | ⟨rfl, hopen⟩ := h
    · exact hreported.listOfContent
    · exact hunreported.listOfContent
    · exact hopen.listOfContent
  · intro call hlevel hfile
    exact ⟨fun error => run_of_reported hlevel hfile, fun fault => run_of_unreported hlevel hfile⟩

/-- A call that asks for the readings of a code along the templates of a file. -/
def matching (path : Text) : Call where
  task := .matchCode ['1'] false
  project := some []
  source := .file path
  json := false
  logLevel := some "INFO".toList

/-- Bytes that are not UTF-8, one digit and one bracket too many are not reported; a file that is
not there is. -/
theorem load_reports_unless :
    listOfContent nestingLimit "bad.json".toList (.ok ⟨#[0xff]⟩) = .error .notUtf8 ∧
    (matching "bad.json".toList).run (.ok ⟨#[0xff]⟩) = .ofExcept (.error .notUtf8) ∧
    (matching "bad.json".toList).run (.ok (List.replicate 4301 '1').utf8Encode) =
      .ofExcept (.error (.numeralTooLong 4301)) ∧
    (matching "bad.json".toList).run (.ok (List.replicate 991 '[').utf8Encode) =
      .ofExcept (.error .nestedTooDeeply) ∧
    (matching "bad.json".toList).run (.error .missing) = .ok (.complaint 2
      "Error: Cannot read metadata from bad.json: no such file".toList) := by
  have hpath : '\x00' ∉ "bad.json".toList := by decide
  have hbytes : ∀ t : Text, (⟨#[0xff]⟩ : ByteArray) ≠ t.utf8Encode := by
    intro t ht
    have hvalid : ByteArray.IsValidUTF8 ⟨#[0xff]⟩ := ⟨t, ht⟩
    exact absurd hvalid (by decide)
  have hencoding : Unreported nestingLimit "bad.json".toList (.ok ⟨#[0xff]⟩) .notUtf8 :=
    .encoding hpath hbytes
  have hlevel : (matching "bad.json".toList).logLevel ≠ none := fun h => nomatch h
  have reports := load_reports nestingLimit "bad.json".toList
  refine ⟨((reports _).1 _).mpr (Or.inr (Or.inl hencoding)), ?_, ?_, ?_, ?_⟩
  · exact ((reports _).2.2 _ hlevel rfl).2 _ hencoding
  · exact ((reports _).2.2 _ hlevel rfl).2 _ (.digits hpath (Document.oversteps_ones _ (by decide)))
  · exact ((reports _).2.2 _ hlevel rfl).2 _ (.nesting hpath (Document.oversteps_brackets _))
  · exact ((reports _).2.2 _ hlevel rfl).1 _ (.absent hpath .missing)

end CommandLine.Call

end Barcode

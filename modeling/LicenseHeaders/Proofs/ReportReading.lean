import LicenseHeaders.Proofs.JsonLayout
import LicenseHeaders.Report.Json

/-!
# File reports that are written can be read

The report of a file is an object whose fields are texts: its path, its action by name
and its error, which is left out when there is none and written even when it is empty.
A reader takes the fields in any layout, one after the other, so it reads a report back
from the compact text and from its place in the report of a run.  What has been read
from any other text is a report too, so writing it and reading it again changes nothing.

* `FileReport.read_laid` — a report is read back from any layout;
* `Report.files_laid` — the texts of the files in the report of a run;
* `file_reports_read_back` — reports survive in all of these ways.
-/

namespace LicenseHeaders

open Json (Blank Lays LaysFields Written quote escape dropSpace)

variable {t u gap blank more rest : Text}

namespace Json

/-- A text in quotes is what the reader of a text expects. -/
theorem expectString_quote (hblank : Blank blank) (t more : Text) :
    expectString (blank ++ (quote t ++ more)) = .ok (t, more) := by
  rw [expectString, dropSpace_blank hblank, quote_append]
  exact string_quoted t more

/-- A quoted text is read where a text may stand. -/
theorem optionalString_quote (hblank : Blank blank) (t more : Text) :
    optionalString (blank ++ (quote t ++ more)) = .ok (some t, more) := by
  have hexpect : expectString ('"' :: (t.flatMap escape ++ '"' :: more)) = .ok (t, more) :=
    string_quoted t more
  rw [optionalString, dropSpace_blank hblank, quote_append]
  exact congrArg (Except.map _) hexpect

end Json

namespace FileReport

open Json (Fault)

/-- An action is read back from its word. -/
theorem actionNamed_word (a : Action) : actionNamed a.word.toList = .ok a := by
  cases a <;> rfl

/-- An action is read back from its name. -/
theorem readAction_quote (hblank : Blank blank) (a : Action) (more : Text) :
    readAction (blank ++ (quote a.word.toList ++ more)) = .ok (a, more) := by
  have hspace : ∀ rest, Json.dropSpace ('"' :: rest) = '"' :: rest := fun _ => rfl
  rw [readAction, Json.dropSpace_blank hblank, Json.quote_append, hspace]
  simp [bind, Except.bind, pure, Except.pure, Json.string_quoted, actionNamed_word]

/-! ## Fields -/

/-- Reading a field whose value is a text adds it to the fields read before. -/
def Adds (f : Fields) (key value : Text) (g : Fields) : Prop :=
  ∀ blank more, Blank blank →
    readField f key (':' :: (blank ++ (quote value ++ more))) = .ok (g, more)

/-- A path is taken up when there is none yet. -/
theorem adds_path {f : Fields} (hf : f.path = none) (path : Text) :
    Adds f "path".toList path { f with path := some path } := by
  intro blank more hblank
  have hcolon : Json.expectChar ':' (':' :: (blank ++ (quote path ++ more))) = .ok _ := rfl
  rw [readField, if_pos rfl, hf, if_neg (by decide), hcolon]
  simp only [bind, Except.bind, Json.expectString_quote hblank]
  rfl

theorem adds_action {f : Fields} (hf : f.action = none) (a : Action) :
    Adds f "action".toList a.word.toList { f with action := some a } := by
  intro blank more hblank
  have hcolon : Json.expectChar ':' (':' :: (blank ++ (quote a.word.toList ++ more))) = .ok _ := rfl
  rw [readField, if_neg (by decide), if_pos rfl, hf, if_neg (by decide), hcolon]
  simp only [bind, Except.bind, readAction_quote hblank]
  rfl

theorem adds_error {f : Fields} (hf : f.error = none) (error : Text) :
    Adds f "error".toList error { f with error := some (some error) } := by
  intro blank more hblank
  have hcolon : Json.expectChar ':' (':' :: (blank ++ (quote error ++ more))) = .ok _ := rfl
  rw [readField, if_neg (by decide), if_neg (by decide), if_pos rfl, hf, if_neg (by decide), hcolon]
  simp only [bind, Except.bind, Json.optionalString_quote hblank]
  rfl

/-- Fields are added one after the other. -/
inductive AddsAll : Fields → List (Text × Text) → Fields → Prop where
  | nil (f : Fields) : AddsAll f [] f
  | cons {f g h : Fields} {key value : Text} {fields : List (Text × Text)}
      (hadds : Adds f key value g) (hfields : AddsAll g fields h) :
      AddsAll f ((key, value) :: fields) h

/-- An object whose fields are texts. -/
def textFields (fields : List (Text × Text)) : List (Text × Json.Value) :=
  fields.map fun field => (field.1, .text field.2)

/-- A key is read, and its field after it. -/
theorem readFields_key {turns : Nat} {f g : Fields} {key left : Text}
    (hu : dropSpace u = '"' :: (key.flatMap escape ++ '"' :: ':' :: more))
    (hfield : readField f key (':' :: more) = .ok (g, left)) :
    readFields (turns + 1) f u =
      match dropSpace left with
      | [] => .error .ended
      | ',' :: rest => readFields turns g rest
      | '\x7d' :: rest => do return (← g.report, rest)
      | _ => .error .malformed := by
  have hread := readFields.eq_2 f u turns
  simp only [hu, bind, Except.bind, Json.string_quoted, hfield] at hread
  exact hread

/-- **The fields of a report are read in any layout**, up to the closing brace. -/
theorem readFields_laid {fields : List (Text × Text)} {f g : Fields} {r : FileReport} {turns : Nat}
    (hfields : LaysFields (textFields fields) t) (hadds : AddsAll f fields g)
    (hreport : g.report = .ok r) (hgap : Blank gap)
    (hu : dropSpace u = dropSpace (t ++ (gap ++ '\x7d' :: rest))) (hturns : fields.length ≤ turns) :
    readFields turns f u = .ok (r, rest) := by
  induction hadds generalizing t u turns with
  | nil => cases hfields
  | @cons f g h key value fields hadd hadds ih =>
      obtain ⟨turns, rfl⟩ : ∃ more, turns = more + 1 := ⟨turns - 1, by
        rw [List.length_cons] at hturns
        omega⟩
      obtain ⟨blank, raw, left, hblank, hv, hhead, _, hbehind⟩ := hfields.head hgap rest
      cases hv
      rw [readFields_key (hu.trans hhead) (hadd _ _ hblank)]
      generalize hothers : List.map _ fields = others at hbehind
      cases hbehind with
      | closed hleft =>
          obtain rfl := List.map_eq_nil_iff.mp hothers
          cases hadds
          simp only [hleft, bind, Except.bind, hreport]
          rfl
      | comma hmore hleft =>
          rw [List.length_cons, Nat.add_le_add_iff_right] at hturns
          subst hothers
          simp only [hleft]
          exact ih hmore hreport rfl hturns

/-! ## Reports of files -/

/-- The fields that a report is written with. -/
def texts (f : FileReport) : List (Text × Text) :=
  [("path".toList, f.path.text), ("action".toList, f.action.word.toList)] ++
    (f.error.map fun error => ("error".toList, error)).toList

theorem json_eq (f : FileReport) : f.json = .object (textFields f.texts) := by
  obtain ⟨path, action, _ | error⟩ := f <;> rfl

/-- **The fields that a report is written with make it up.** -/
theorem addsAll_texts (f : FileReport) :
    ∃ fields, AddsAll {} f.texts fields ∧ fields.report = .ok f := by
  obtain ⟨path, action, _ | error⟩ := f
  · exact ⟨_, .cons (adds_path rfl _) (.cons (adds_action rfl _) (.nil _)), rfl⟩
  · exact ⟨_, .cons (adds_path rfl _) (.cons (adds_action rfl _)
      (.cons (adds_error rfl _) (.nil _))), rfl⟩

theorem written (f : FileReport) : Written f.json := by
  rw [json_eq]
  refine .object fun field hfield => ?_
  obtain ⟨_, _, rfl⟩ := List.mem_map.mp hfield
  exact Json.written_text _

/-- **A report is read back from any layout.** -/
theorem read_laid {f : FileReport} (hlays : Lays f.json t) : read t = .ok f := by
  obtain ⟨fields, hadds, hreport⟩ := addsAll_texts f
  rw [json_eq] at hlays
  generalize hvalues : textFields f.texts = values at hlays
  cases hlays with
  | emptyObject => cases hvalues
  | @object _ t gap hfields hgap =>
      subst hvalues
      obtain ⟨more, hmore⟩ := hfields.exists_cons (gap ++ ['\x7d'])
      have hagain : dropSpace ('"' :: more) = dropSpace (t ++ (gap ++ ['\x7d'])) := hmore.symm
      have hturns : f.texts.length ≤ ('"' :: more).length + 1 := by
        have hlength := hfields.length_le_dropSpace (gap ++ ['\x7d'])
        rw [hmore, textFields, List.length_map] at hlength
        exact Nat.le_succ_of_le hlength
      have hread : readObject (t ++ (gap ++ ['\x7d'])) = .ok (f, []) := by
        rw [readObject, hmore]
        exact readFields_laid hfields hadds hreport hgap hagain hturns
      have hopen : dropSpace ('\x7b' :: (t ++ (gap ++ ['\x7d']))) =
          '\x7b' :: (t ++ (gap ++ ['\x7d'])) := rfl
      rw [read, hopen]
      simp only [hread, bind, Except.bind]
      rfl

/-- Reports are read back from their layouts, one by one. -/
theorem map_read_laid {files : List FileReport} {texts : List Text}
    (hlaid : List.Forall₂ Lays (files.map json) texts) : texts.map read = files.map .ok := by
  induction files generalizing texts with
  | nil =>
      cases hlaid
      rfl
  | cons f files ih =>
      cases hlaid with
      | cons hlays hothers => rw [List.map_cons, List.map_cons, read_laid hlays, ih hothers]

/-- A report is read back from its compact text. -/
theorem read_compact (f : FileReport) : read f.compactText = .ok f := read_laid f.written.compact

end FileReport

/-! ## Reports of runs -/

namespace Report

/-- The texts of the files in the report of a run. -/
def fileTexts (t : Text) : Except Json.Fault (List Text) := do
  Json.rawList (← Json.rawMember "files".toList t)

theorem written (r : Report) : Written r.json := by
  have hsummary : Written r.summaryJson := by
    refine .object fun field hfield => ?_
    simp only [List.mem_cons, List.not_mem_nil, or_false] at hfield
    rcases hfield with rfl | rfl | rfl | rfl | rfl | rfl | rfl
    · exact Json.written_text _
    · exact Json.written_truth _
    · exact Json.written_number (.unsigned (Json.unsigned_natural _))
    · exact Json.written_number (.unsigned (Json.unsigned_natural _))
    · exact Json.written_number (.unsigned (Json.unsigned_natural _))
    · exact Json.written_number (Json.numeric_decimal _)
    · exact Json.written_number (Json.numeric_integer _)
  have hfiles : Written (.list (r.files.map FileReport.json)) := by
    refine .list fun v hv => ?_
    obtain ⟨f, _, rfl⟩ := List.mem_map.mp hv
    exact f.written
  refine .object fun field hfield => ?_
  rcases List.mem_pair.mp hfield with rfl | rfl
  · exact hsummary
  · exact hfiles

/-- **The files of a report are laid out one by one** in the text that is written. -/
theorem files_laid (r : Report) :
    ∃ texts, fileTexts r.prettyText = .ok texts ∧
      List.Forall₂ Lays (r.files.map FileReport.json) texts := by
  have hlays : Lays r.json r.prettyText := r.written.pretty 0
  have hmember : [("summary".toList, r.summaryJson),
      ("files".toList, .list (r.files.map FileReport.json))].lookup "files".toList =
        some (.list (r.files.map FileReport.json)) := rfl
  obtain ⟨raw, hraw, hfiles⟩ := Json.rawMember_laid hlays hmember
  rw [fileTexts, hraw]
  exact Json.rawList_laid hfiles

end Report

/-- **File reports survive writing and reading.**  A report is read back from its compact
text, and from its place among the files in the report of a run, whichever they are.
A report that has been read from any text is the same after it has been written and
read again, and so is what is written. -/
theorem file_reports_read_back :
    (∀ f : FileReport, FileReport.read f.compactText = .ok f) ∧
      (∀ r : Report, ∃ texts, Report.fileTexts r.prettyText = .ok texts ∧
        texts.map FileReport.read = r.files.map .ok) ∧
      ∀ (t : Text) (f : FileReport), FileReport.read t = .ok f →
        ∃ g, FileReport.read f.compactText = .ok g ∧ g = f ∧ g.compactText = f.compactText := by
  refine ⟨FileReport.read_compact, fun r => ?_, fun _ f _ => ⟨f, f.read_compact, rfl, rfl⟩⟩
  obtain ⟨texts, htexts, hlaid⟩ := r.files_laid
  exact ⟨texts, htexts, FileReport.map_read_laid hlaid⟩

end LicenseHeaders

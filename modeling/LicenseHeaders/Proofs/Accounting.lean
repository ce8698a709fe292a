import LicenseHeaders.Proofs.Coverage
import LicenseHeaders.Proofs.Pointwise

/-!
# Reports tell what has happened on the disk

An entry says that a file has changed when the operation has a change for its
text, and such a change is never to the same text: the result of an operation is
settled, and on a settled text there is nothing to do (`Plan.transform_ne`).  So
the entries that say so are those of the files whose content differs after the
run, one for each file.  An entry without a file is that of a directory that
could not be listed, and directories stay as they are.

* `FileSystem.Differs` — the file at a location has another content;
* `Handled.differs_iff` — the files that differ are those with new contents;
* `Truthful`, `run_truthful` — all that a report says.
-/

namespace LicenseHeaders

/-- The file at a location has another content afterwards. -/
def FileSystem.Differs (before after : FileSystem) (l : Location) : Prop :=
  ∃ old new, before.find? l = some (.file old) ∧ after.find? l = some (.file new) ∧ old ≠ new

/-- **Each entry is of one kind**: changed, failed or unchanged. -/
theorem Report.scannedCount_eq (report : Report) :
    report.scannedCount = report.changedCount + report.failedCount +
      (report.files.filter fun file => file.action = .unchanged).length := by
  unfold scannedCount changedCount failedCount changed failed
  induction report.files with
  | nil => rfl
  | cons file rest ih =>
      simp only [List.length_cons, List.filter_cons, ih]
      cases file.action <;> simp [Action.changesContent] <;> omega

namespace Plan

variable {plan : Plan} {operation : Operation} {fs before after : FileSystem}
  {items : List (Except Failure Path)}

/-! ## Changes -/

/-- **A change is to another text.** -/
theorem transform_ne (hverbatim : plan.detector.present = verbatim) {t : Text} {change : Change}
    (htransform : plan.transform operation t = .ok (some change)) : change.text ≠ t := by
  intro hsame
  have hagain := transform_textAfter hverbatim htransform
  rw [textAfter, Option.map_some, Option.getD_some, hsame, htransform] at hagain
  cases hagain

/-- Synchronizing inserts or replaces a header, removing strips headers. -/
theorem action_of_transform {t : Text} {change : Change}
    (htransform : plan.transform operation t = .ok (some change)) :
    match operation with
    | .synchronize => change.action = .inserted ∨ change.action = .replaced
    | .remove => change.action = .stripped := by
  unfold transform at htransform
  cases operation with
  | remove =>
      obtain ⟨text, _, rfl⟩ := Option.map_eq_some_iff.mp (Except.ok.inj htransform)
      rfl
  | synchronize =>
      dsimp only at htransform ⊢
      split at htransform
      · cases htransform
      · rw [Except.ok.injEq, synchronizeChange?] at htransform
        split at htransform
        · cases htransform
        · cases htransform
          dsimp only
          split
          · exact .inr rfl
          · exact .inl rfl

/-- A run of one operation never reports an action of the other. -/
theorem action_entry (plan : Plan) (operation : Operation) (fs : FileSystem)
    (item : Except Failure Path) :
    match operation with
    | .synchronize => (plan.entry operation fs item).action ≠ .stripped
    | .remove => (plan.entry operation fs item).action ≠ .inserted ∧
        (plan.entry operation fs item).action ≠ .replaced := by
  by_cases hentry : (plan.entry operation fs item).action = .failed
  · rw [hentry]
    cases operation <;> simp
  · obtain ⟨path, change, rfl, houtcome, hentry⟩ := outcome_of_entry hentry
    rw [hentry]
    cases change with
    | none => cases operation <;> simp [actionOf]
    | some change =>
        obtain ⟨_, _, _, _, htransform, _⟩ := outcome_eq_some houtcome
        have haction := action_of_transform htransform
        cases operation with
        | remove => simp [actionOf, haction]
        | synchronize => rcases haction with haction | haction <;> simp [actionOf, haction]

/-- An entry has an error text exactly if it has failed. -/
theorem error_entry (plan : Plan) (operation : Operation) (fs : FileSystem)
    (item : Except Failure Path) :
    (plan.entry operation fs item).error.isSome = true ↔
      (plan.entry operation fs item).action = .failed := by
  by_cases hentry : (plan.entry operation fs item).action = .failed
  · refine iff_of_true ?_ hentry
    cases item with
    | error failure => rfl
    | ok path =>
        cases houtcome : plan.outcome operation fs path with
        | error failure =>
            rw [entry_of_error houtcome]
            rfl
        | ok change =>
            rw [entry_of_ok houtcome] at hentry
            exact absurd hentry (outcome_action houtcome).2
  · obtain ⟨path, change, rfl, _, hok⟩ := outcome_of_entry hentry
    refine iff_of_false ?_ hentry
    rw [hok]
    exact Bool.false_ne_true

/-- An entry says that the content changes exactly if there is a new content. -/
theorem isSome_newContent? (plan : Plan) (operation : Operation) (fs : FileSystem)
    (item : Except Failure Path) :
    (plan.newContent? operation fs item).isSome =
      (plan.entry operation fs item).action.changesContent := by
  cases hnew : plan.newContent? operation fs item with
  | some row => exact (entry_of_newContent? hnew).1.symm
  | none =>
      by_cases hentry : (plan.entry operation fs item).action = .failed
      · rw [hentry]
        rfl
      · obtain ⟨path, change, rfl, houtcome, hentry⟩ := outcome_of_entry hentry
        cases change with
        | none =>
            rw [hentry]
            rfl
        | some change =>
            obtain ⟨l, _, hlookup, _⟩ := outcome_eq_some houtcome
            simp only [newContent?, houtcome, FileSystem.canonical?_of_lookup hlookup] at hnew
            cases hnew

/-! ## Files that differ -/

/-- A new content differs from the old one. -/
theorem Handled.differs (hhandled : plan.Handled operation before items after)
    (hverbatim : plan.detector.present = verbatim) {item : Except Failure Path} {l : Location}
    {t : Text} (hitem : item ∈ items)
    (hnew : plan.newContent? operation before item = some (l, t)) :
    before.Differs after l := by
  have hfound := hhandled.find?_of_newContent? hitem hnew
  cases item with
  | error failure => cases hnew
  | ok path =>
      obtain ⟨change, houtcome, hlocation, htext⟩ := newContent?_eq_some hnew
      obtain ⟨k, content, hlookup, _, htransform, _⟩ := outcome_eq_some houtcome
      obtain rfl : l = k :=
        Option.some.inj (hlocation.symm.trans (FileSystem.canonical?_of_lookup hlookup))
      refine ⟨_, _, (FileSystem.lookup_eq_ok_iff.mp hlookup).2, hfound, fun hsame => ?_⟩
      exact transform_ne hverbatim htransform (htext.symm.trans (Content.text.inj hsame).symm)

/-- **The files that differ** are those that have been given new contents. -/
theorem Handled.differs_iff (hhandled : plan.Handled operation before items after)
    (hverbatim : plan.detector.present = verbatim) {l : Location} :
    before.Differs after l ↔ l ∈ (plan.newContents operation before items).map (·.1) := by
  constructor
  · rintro ⟨old, new, hold, hnew, hne⟩
    by_contra hl
    have hsame : after.find? l = before.find? l := by
      rw [hhandled.fs]
      exact FileSystem.find?_rewrite_of_not_mem hl
    rw [hold, hnew] at hsame
    cases hsame
    exact hne rfl
  · intro hl
    obtain ⟨row, hrow, rfl⟩ := List.mem_map.mp hl
    obtain ⟨item, hitem, hnew⟩ := List.mem_filterMap.mp hrow
    exact hhandled.differs hverbatim hitem hnew

end Plan

/-! ## Runs -/

/-- **What a report says of a run** that found the tree `before` and left it
`after`. -/
structure Truthful (plan : Plan) (operation : Operation) (before : FileSystem) (report : Report)
    (after : FileSystem) : Prop where
  /-- An entry says that a content has changed exactly if that of the file has to
  which its path leads. -/
  changes : ∀ file ∈ report.files, file.action.changesContent = true ↔
    ∃ l, before.canonical? file.path = some l ∧ before.Differs after l
  /-- The paths lead where they led. -/
  places : ∀ path, after.canonical? path = before.canonical? path
  /-- Two entries whose paths lead to the same place are not those of a file. -/
  once : report.files.Pairwise fun file other => ∀ l, before.canonical? file.path = some l →
    before.canonical? other.path = some l → before.find? l = some .directory
  /-- The count of changed files is that of the files that differ. -/
  counted : ∃ locations : List Location, locations.Nodup ∧
    (∀ l, l ∈ locations ↔ before.Differs after l) ∧ report.changedCount = locations.length
  /-- Nothing else has changed. -/
  others : ∀ l, ¬ before.Differs after l → after.find? l = before.find? l
  /-- The counts add up to the number of entries. -/
  sum : report.scannedCount = report.files.length ∧
    report.scannedCount = report.changedCount + report.failedCount +
      (report.files.filter fun file => file.action = .unchanged).length
  /-- The entries that failed are those with an error text. -/
  errors : ∀ file ∈ report.files, file.error.isSome = true ↔ file.action = .failed
  /-- Each operation has its own actions. -/
  actions : ∀ file ∈ report.files,
    match operation with
    | .synchronize => file.action ≠ .stripped
    | .remove => file.action ≠ .inserted ∧ file.action ≠ .replaced
  /-- A run that stops at failures reports none. -/
  unfailed : plan.keepGoing = false → ∀ file ∈ report.files, file.action ≠ .failed
  /-- The changed entries are listed in order, as many as are counted. -/
  changed : report.changed.Sublist report.files ∧ report.changed.length = report.changedCount ∧
    ∀ file, file ∈ report.changed ↔ file ∈ report.files ∧ file.action.changesContent = true
  /-- The failed entries are listed in order, as many as are counted. -/
  failed : report.failed.Sublist report.files ∧ report.failed.length = report.failedCount ∧
    ∀ file, file ∈ report.failed ↔ file ∈ report.files ∧ file.action = .failed

namespace Engine.Completed

open Plan

variable {e : Engine} {operation : Operation} {roots : List Path} {before after : FileSystem}
  {walk : Walk} {report : Report} {calls : List WriteCall}
  (hdone : e.Completed operation roots before walk report after calls)

include hdone

/-- A run counts the files that it has given new contents. -/
theorem changedCount_eq : report.changedCount =
    (e.newContents operation before (e.items before roots walk)).length := by
  rw [newContents, List.length_filterMap_eq_countP, Report.changedCount, Report.changed,
    hdone.files, ← List.countP_eq_length_filter, List.countP_map]
  refine List.countP_congr fun item _ => ?_
  rw [isSome_newContent?]
  rfl

variable (hundisturbed : e.detector.edits = []) (hverbatim : e.detector.present = verbatim)
  (hnamed : before.WellNamed) (hcriteria : e.criteria.filters = .ok e.filters)

section

include hundisturbed hnamed hcriteria

/-- An item that is no file is a directory. -/
theorem directory_of_failure {failure : Failure}
    (hfailure : .error failure ∈ e.items before roots walk) {l : Location}
    (hl : before.canonical? (subject (.error failure)) = some l) :
    before.find? l = some .directory := by
  obtain ⟨pattern, hcovers⟩ := covers_items hundisturbed hcriteria hnamed hdone.start
  obtain ⟨path, cause, rfl, hleads⟩ := hcovers.directory_of_failure hnamed hfailure
  exact hleads l hl

include hverbatim

/-- **An entry says that a content changes exactly if it does.** -/
theorem changes_iff {item : Except Failure Path} (hitem : item ∈ e.items before roots walk) :
    (e.entry operation before item).action.changesContent = true ↔
      ∃ l, before.canonical? (subject item) = some l ∧ before.Differs after l := by
  have hhandled := hdone.handled
  rw [← isSome_newContent?]
  cases hnew : e.newContent? operation before item with
  | some row =>
      have hlocation := (entry_of_newContent? hnew).2
      rw [path_entry] at hlocation
      exact iff_of_true rfl ⟨row.1, hlocation, hhandled.differs hverbatim hitem hnew⟩
  | none =>
      refine iff_of_false Bool.false_ne_true ?_
      rintro ⟨l, hl, old, new, hold, hafter, hne⟩
      cases item with
      | ok path =>
          have hsame := hhandled.unaware_of_newContent? hitem hnew path rfl l hl
          rw [hold, hafter] at hsame
          cases hsame
          exact hne rfl
      | error failure =>
          have hdirectory := hdone.directory_of_failure hundisturbed hnamed hcriteria hitem hl
          cases hold.symm.trans hdirectory

end

include hundisturbed hverbatim hnamed hcriteria

/-- **The report of a completed run is truthful.** -/
theorem truthful : Truthful e.toPlan operation before report after := by
  have hhandled := hdone.handled
  have hdirectory : ∀ failure, .error failure ∈ e.items before roots walk →
      ∀ l, before.canonical? (subject (.error failure)) = some l →
        before.find? l = some .directory := fun _ hfailure _ =>
    hdone.directory_of_failure hundisturbed hnamed hcriteria hfailure
  have hentry : ∀ file ∈ report.files, ∃ item ∈ e.items before roots walk,
      e.entry operation before item = file := by
    intro file hfile
    rw [hdone.files] at hfile
    exact List.mem_map.mp hfile
  constructor
  case changes =>
    intro file hfile
    obtain ⟨item, hitem, rfl⟩ := hentry file hfile
    rw [path_entry]
    exact hdone.changes_iff hundisturbed hverbatim hnamed hcriteria hitem
  case places => exact FileSystem.canonical?_of_outline_eq hdone.outline
  case once =>
    rw [hdone.files, List.pairwise_map]
    refine hhandled.apart.imp_of_mem fun {a b} ha hb hapart l hal hbl => ?_
    rw [path_entry] at hal hbl
    cases a with
    | error failure => exact hdirectory failure ha l hal
    | ok p =>
        cases b with
        | error failure => exact hdirectory failure hb l hbl
        | ok q => exact absurd hbl (hapart.canonical?_ne hal)
  case counted =>
    refine ⟨_, nodup_newContents hhandled.apart, fun l => (hhandled.differs_iff hverbatim).symm, ?_⟩
    rw [List.length_map, hdone.changedCount_eq]
  case others =>
    intro l hl
    rw [hhandled.differs_iff hverbatim] at hl
    rw [hdone.fs]
    exact FileSystem.find?_rewrite_of_not_mem hl
  case sum => exact ⟨rfl, report.scannedCount_eq⟩
  case errors =>
    intro file hfile
    obtain ⟨item, _, rfl⟩ := hentry file hfile
    exact error_entry _ _ _ item
  case actions =>
    intro file hfile
    obtain ⟨item, _, rfl⟩ := hentry file hfile
    exact action_entry _ _ _ item
  case unfailed =>
    intro hstrict file hfile hfailed
    obtain ⟨item, hitem, rfl⟩ := hentry file hfile
    exact hdone.goes item hitem ⟨hstrict, hfailed⟩
  case changed => exact ⟨List.filter_sublist, rfl, fun file => List.mem_filter⟩
  case failed => exact ⟨List.filter_sublist, rfl, fun file => by simp [Report.failed]⟩

end Engine.Completed

end LicenseHeaders

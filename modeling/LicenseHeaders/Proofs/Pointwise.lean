import LicenseHeaders.Proofs.Postcondition
import LicenseHeaders.Proofs.Termination

/-!
# A run is its transform, file by file

What a run does to a tree is what the operation does to each selected text, and
nothing else.  A file that is changed holds its new text in the end; a file that
cannot be read or written fails and is what it was; no other entry of the tree
is touched.  The requests to write tell the same story: those that are carried
out are those of the changed entries of the report, in order, and any other
request was refused and belongs to an entry that failed.

* `Pointwise` — all of this about one run;
* `run_pointwise` — it holds of every run that returns a report, over the files
  that a walk meets; when the walk meets no failure, these are the files that
  collecting answers.
-/

namespace LicenseHeaders

/-- A run over items is the operation applied to each file. -/
structure Pointwise (plan : Plan) (operation : Operation) (before : FileSystem)
    (items : List (Except Failure Path)) (report : Report) (after : FileSystem)
    (calls : List WriteCall) : Prop where
  /-- The report has one entry for each item, in order. -/
  entries : report.files = items.map (plan.entry operation before)
  /-- No file is handled twice, by whatever paths it is met. -/
  once : items.Pairwise (Walk.Apart before)
  /-- The operation has an answer for every text. -/
  total : ∀ content, ∃ change, plan.transform operation content = .ok change
  /-- A file that can be read, and written if it is to change, is reported with
  its action and holds the text that the operation makes of its content. -/
  applied : ∀ path content change, .ok path ∈ items → before.readText path = .ok content →
    plan.transform operation content = .ok change →
    (∀ new, change = some new → ∃ written, before.writeText path new.text = .ok written) →
    ⟨path, actionOf change, none⟩ ∈ report.files ∧
      after.readText path = .ok (textAfter content change)
  /-- A file that cannot be read fails and is what it was. -/
  unreadable : ∀ path cause, .ok path ∈ items → before.readText path = .error cause →
    ⟨path, .failed, some (Failure.file .read path cause).message.toList⟩ ∈ report.files ∧
      after.readText path = .error cause ∧
      ∀ l, before.canonical? path = some l → after.find? l = before.find? l
  /-- A file that cannot be written fails and is what it was. -/
  unwritable : ∀ path content new cause, .ok path ∈ items → before.readText path = .ok content →
    plan.transform operation content = .ok (some new) →
    before.writeText path new.text = .error cause →
    ⟨path, .failed, some (Failure.file .write path cause).message.toList⟩ ∈ report.files ∧
      after.readText path = .ok content ∧
      ∀ l, before.canonical? path = some l → after.find? l = before.find? l
  /-- Nothing else changes: entries that are not changed files are the same. -/
  frame : ∀ l, (∀ file ∈ report.changed, before.canonical? file.path ≠ some l) →
    after.find? l = before.find? l
  /-- Nothing is created or deleted, and no directory, link or right changes. -/
  outline : after.outline = before.outline
  /-- The files that are written are those of the changed entries, in order. -/
  written : (calls.filter fun call => call.refusal.isNone).map (·.path) =
    report.changed.map (·.path)
  /-- A request that is refused belongs to an entry that failed. -/
  refused : ∀ call ∈ calls, ∀ cause, call.refusal = some cause →
    ⟨call.path, .failed, some (Failure.file .write call.path cause).message.toList⟩ ∈ report.files

namespace Plan

variable {plan : Plan} {operation : Operation} {fs : FileSystem}

/-- With a header where one is needed, an operation has an answer for every
text. -/
theorem transform_total (hheaders : ¬ (operation = .synchronize ∧ plan.headers.isEmpty = true))
    (content : Text) : ∃ change, plan.transform operation content = .ok change := by
  unfold transform
  cases operation with
  | remove => exact ⟨_, rfl⟩
  | synchronize =>
      cases hcanonical : plan.headers.canonical? with
      | none =>
          have hempty : plan.headers.texts = [] := List.head?_eq_none_iff.mp hcanonical
          exact absurd ⟨rfl, by rw [HeaderSet.isEmpty, hempty]; rfl⟩ hheaders
      | some canonical => exact ⟨_, rfl⟩

/-! ## Requests and entries -/

/-- What becomes of a file only fails for want of a canonical header or in an
access to the file. -/
theorem outcome_eq_error {path : Path} {failure : Failure}
    (houtcome : plan.outcome operation fs path = .error failure) :
    failure = .noHeader ∨ ∃ task cause, failure = .file task path cause := by
  unfold outcome at houtcome
  split at houtcome
  · next cause _ => exact .inr ⟨.read, cause, (Except.error.inj houtcome).symm⟩
  · split at houtcome
    · next htransform =>
      cases houtcome
      exact .inl (transform_error htransform)
    · cases houtcome
    · split at houtcome
      · next cause _ => exact .inr ⟨.write, cause, (Except.error.inj houtcome).symm⟩
      · cases houtcome

/-- **A request and the entry of its item**: there is none, it is carried out
for a changed file, or it is refused and the file fails. -/
theorem writeCall?_cases (plan : Plan) (operation : Operation) (fs : FileSystem)
    (item : Except Failure Path) :
    (plan.writeCall? operation fs item = none ∧
        (plan.entry operation fs item).action.changesContent = false) ∨
      (∃ path, plan.writeCall? operation fs item = some ⟨path, none⟩ ∧
        (plan.entry operation fs item).path = path ∧
        (plan.entry operation fs item).action.changesContent = true) ∨
      ∃ path cause, plan.writeCall? operation fs item = some ⟨path, some cause⟩ ∧
        plan.entry operation fs item =
          ⟨path, .failed, some (Failure.file .write path cause).message.toList⟩ := by
  cases item with
  | error failure => exact .inl ⟨rfl, rfl⟩
  | ok path =>
      cases houtcome : plan.outcome operation fs path with
      | ok change =>
          have haction := (outcome_action houtcome).1
          rw [entry_of_ok houtcome]
          cases change with
          | none => exact .inl ⟨by simp only [writeCall?, houtcome], haction⟩
          | some new => exact .inr (.inl ⟨path, by simp only [writeCall?, houtcome], rfl, haction⟩)
      | error failure =>
          rw [entry_of_error houtcome]
          rcases outcome_eq_error houtcome with rfl | ⟨task, cause, rfl⟩
          · exact .inl ⟨by simp only [writeCall?, houtcome], rfl⟩
          · cases task with
            | write => exact .inr (.inr ⟨path, cause, by simp only [writeCall?, houtcome], rfl⟩)
            | read => exact .inl ⟨by simp only [writeCall?, houtcome], rfl⟩
            | readHeader => exact .inl ⟨by simp only [writeCall?, houtcome], rfl⟩

/-- The requests that are carried out are those of the changed entries. -/
theorem written_eq (plan : Plan) (operation : Operation) (fs : FileSystem)
    (items : List (Except Failure Path)) :
    ((items.filterMap (plan.writeCall? operation fs)).filter fun call =>
        call.refusal.isNone).map (·.path) =
      ((items.map (plan.entry operation fs)).filter fun file =>
        file.action.changesContent).map (·.path) := by
  induction items with
  | nil => rfl
  | cons item rest ih =>
      rw [List.filterMap_cons, List.map_cons, List.filter_cons]
      obtain ⟨hcall, hentry⟩ | ⟨path, hcall, hpath, hentry⟩ | ⟨path, cause, hcall, hentry⟩ :=
        writeCall?_cases plan operation fs item
      · rw [hcall, hentry, ih]
        rfl
      · rw [hcall, hentry, if_pos rfl, List.map_cons, hpath, ← ih]
        rfl
      · rw [hcall, hentry]
        exact ih

/-- A file with a new content has an entry that says so. -/
theorem entry_of_newContent? {item : Except Failure Path} {row : Location × Text}
    (hnew : plan.newContent? operation fs item = some row) :
    (plan.entry operation fs item).action.changesContent = true ∧
      fs.canonical? (plan.entry operation fs item).path = some row.1 := by
  cases item with
  | error failure => cases hnew
  | ok path =>
      obtain ⟨change, houtcome, hlocation, _⟩ := newContent?_eq_some hnew
      rw [entry_of_ok houtcome]
      exact ⟨(outcome_action houtcome).1, hlocation⟩

end Plan

/-! ## Completed runs -/

/-- An undisturbed run has time for all that its walk meets. -/
theorem Engine.items_meets {e : Engine} (hundisturbed : e.detector.edits = []) {fs : FileSystem}
    (hnamed : fs.WellNamed) {roots : List Path} {walk : Walk}
    (hstart : Walk.start fs roots = .ok walk) :
    Walk.Meets e.filters fs walk (e.items fs roots walk) := by
  refine Walk.survey_meets e.filters hnamed ?_
  rw [Walk.potential_of_start hstart, Engine.budget, hundisturbed]
  simp only [List.length_nil, List.foldr_nil, Nat.mul_zero, Nat.zero_add, Nat.add_zero,
    Nat.pow_eq, Nat.pow_one]
  exact Nat.mul_le_mul (Nat.le_succ _) (by omega)

namespace Engine.Completed

open Plan

variable {e : Engine} {operation : Operation} {roots : List Path} {before after : FileSystem}
  {walk : Walk} {report : Report} {calls : List WriteCall}
  (hdone : e.Completed operation roots before walk report after calls)

include hdone

/-- A run has a canonical header where it needs one. -/
theorem total (content : Text) : ∃ change, e.transform operation content = .ok change :=
  transform_total hdone.headers content

/-- A file that fails is what it was. -/
theorem unchanged_of_error {path : Path} {failure : Failure}
    (hitem : .ok path ∈ e.items before roots walk)
    (houtcome : e.outcome operation before path = .error failure) :
    ⟨path, .failed, some failure.message.toList⟩ ∈ report.files ∧
      after.readText path = before.readText path ∧
      ∀ l, before.canonical? path = some l → after.find? l = before.find? l := by
  have hnone : e.newContent? operation before (.ok path) = none := by
    simp only [newContent?, houtcome]
  have hsame := hdone.unaware_of_newContent? hitem hnone path rfl
  refine ⟨?_, FileSystem.readText_congr hdone.outline hsame, hsame⟩
  rw [hdone.files, ← entry_of_error houtcome]
  exact List.mem_map_of_mem hitem

/-- Nothing changes but the files of changed entries. -/
theorem find?_of_unchanged {l : Location}
    (hl : ∀ file ∈ report.changed, before.canonical? file.path ≠ some l) :
    after.find? l = before.find? l := by
  rw [hdone.fs]
  refine FileSystem.find?_rewrite_of_not_mem fun hmem => ?_
  obtain ⟨row, hrow, rfl⟩ := List.mem_map.mp hmem
  obtain ⟨item, hitem, hnew⟩ := List.mem_filterMap.mp hrow
  obtain ⟨hchanges, hlocation⟩ := entry_of_newContent? hnew
  refine hl (e.entry operation before item) ?_ hlocation
  rw [Report.changed, hdone.files, List.mem_filter]
  exact ⟨List.mem_map_of_mem hitem, hchanges⟩

/-- **A completed run is the operation applied to each file.** -/
theorem pointwise :
    Pointwise e.toPlan operation before (e.items before roots walk) report after calls where
  entries := hdone.files
  once := Walk.survey_apart _ _
  total := hdone.total
  applied := by
    intro path content change hitem hread htransform hwrites
    have houtcome : e.outcome operation before path = .ok change := by
      cases change with
      | none => simp only [outcome, hread, htransform]
      | some new =>
          obtain ⟨written, hwritten⟩ := hwrites new rfl
          simp only [outcome, hread, htransform, hwritten]
    obtain ⟨old, hold, _, hafter⟩ := hdone.readText_of_outcome hitem houtcome
    obtain rfl : content = old := Except.ok.inj (hread.symm.trans hold)
    refine ⟨?_, hafter⟩
    rw [hdone.files, ← entry_of_ok houtcome]
    exact List.mem_map_of_mem hitem
  unreadable := by
    intro path cause hitem hread
    have houtcome : e.outcome operation before path = .error (.file .read path cause) := by
      simp only [outcome, hread]
    obtain ⟨hentry, hsame, hfind⟩ := hdone.unchanged_of_error hitem houtcome
    exact ⟨hentry, hsame.trans hread, hfind⟩
  unwritable := by
    intro path content new cause hitem hread htransform hwrite
    have houtcome : e.outcome operation before path = .error (.file .write path cause) := by
      simp only [outcome, hread, htransform, hwrite]
    obtain ⟨hentry, hsame, hfind⟩ := hdone.unchanged_of_error hitem houtcome
    exact ⟨hentry, hsame.trans hread, hfind⟩
  frame := fun _ => hdone.find?_of_unchanged
  outline := hdone.outline
  written := by
    rw [hdone.calls, Report.changed, hdone.files]
    exact written_eq e.toPlan operation before _
  refused := by
    intro call hcall cause hrefusal
    rw [hdone.calls] at hcall
    obtain ⟨item, hitem, hcall⟩ := List.mem_filterMap.mp hcall
    obtain ⟨hnone, _⟩ | ⟨path, hsome, _⟩ | ⟨path, other, hsome, hentry⟩ :=
      writeCall?_cases e.toPlan operation before item
    · cases hnone.symm.trans hcall
    · cases hsome.symm.trans hcall
      cases hrefusal
    · cases hsome.symm.trans hcall
      cases hrefusal
      rw [hdone.files, ← hentry]
      exact List.mem_map_of_mem hitem

/-- A completed run has handled all that its walk meets. -/
theorem meets (hundisturbed : e.detector.edits = []) (hnamed : before.WellNamed) :
    Walk.Meets e.filters before walk (e.items before roots walk) :=
  items_meets hundisturbed hnamed hdone.start

end Engine.Completed

end LicenseHeaders

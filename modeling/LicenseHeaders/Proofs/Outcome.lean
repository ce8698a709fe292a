import LicenseHeaders.Proofs.Rewriting
import LicenseHeaders.Proofs.Survey
import LicenseHeaders.Run.Engine

/-!
# What becomes of one file

A plan is plain when its detector answers by header and content alone, when it
writes for real, when it keeps no diff file and when no file has further names.
Under a plain plan, what a run does with one item of its walk can be read off
the file system before: whether
the file is changed, refused or left alone (`Plan.outcome`), the entry in the
report (`Plan.entry`), the new content (`Plan.newContent?`) and the request to
write (`Plan.writeCall?`).

* `Plan.outcome_congr` — all of it concerns the one file that the path leads to;
* `outline_newContents` — none of it can be seen by a walk.
-/

namespace LicenseHeaders

/-- A plan that nothing interferes with: no edits by others, no dry run, no
diff file, and one name for each file. -/
structure Plan.Plain (plan : Plan) : Prop where
  undisturbed : plan.detector.edits = []
  real : plan.dryRun = false
  unsaved : plan.diff.saved = none
  unlinked : plan.links = {}

namespace Plan

section

variable (plan : Plan) (operation : Operation)

/-- What an operation makes of a text. -/
def transform (content : Text) : Except Failure (Option Change) :=
  match operation with
  | .remove => .ok (removeChange? plan.headers content)
  | .synchronize =>
    match plan.headers.canonical? with
    | none => .error .noHeader
    | some canonical =>
      .ok (synchronizeChange? plan.detector.present canonical plan.headers.legacy content)

/-- The change that a file comes to, if any, or the failure that prevents it. -/
def outcome (fs : FileSystem) (path : Path) : Except Failure (Option Change) :=
  match fs.readText path with
  | .error cause => .error (.file .read path cause)
  | .ok content =>
    match plan.transform operation content with
    | .error failure => .error failure
    | .ok none => .ok none
    | .ok (some change) =>
      match fs.writeText path change.text with
      | .error cause => .error (.file .write path cause)
      | .ok _ => .ok (some change)

/-- The report entry of an item. -/
def entry (fs : FileSystem) : Except Failure Path → FileReport
  | .error failure => ⟨failure.path?.getD ⟨[]⟩, .failed, some failure.message.toList⟩
  | .ok path =>
    match plan.outcome operation fs path with
    | .ok change => ⟨path, actionOf change, none⟩
    | .error failure => ⟨path, .failed, some failure.message.toList⟩

/-- The new content of the file an item concerns, with its location. -/
def newContent? (fs : FileSystem) : Except Failure Path → Option (Location × Text)
  | .error _ => none
  | .ok path =>
    match plan.outcome operation fs path with
    | .ok (some change) => (fs.canonical? path).map fun l => (l, change.text)
    | _ => none

/-- The request to write that an item leads to. -/
def writeCall? (fs : FileSystem) : Except Failure Path → Option WriteCall
  | .error _ => none
  | .ok path =>
    match plan.outcome operation fs path with
    | .ok (some _) => some ⟨path, none⟩
    | .error (.file .write _ cause) => some ⟨path, some cause⟩
    | _ => none

/-- An item stops a run when it fails and the run does not keep going. -/
def Stops (fs : FileSystem) (item : Except Failure Path) : Prop :=
  plan.keepGoing = false ∧ (plan.entry operation fs item).action = .failed

end

variable {plan : Plan} {operation : Operation} {fs gs : FileSystem}

/-! ## Outcomes -/

/-- A changed file can be read, and has a location where its new text goes. -/
theorem outcome_eq_some {path : Path} {change : Change}
    (houtcome : plan.outcome operation fs path = .ok (some change)) :
    ∃ l content, fs.lookup .target path = .ok (l, .file (.text content)) ∧
      fs.grants .reading l = true ∧ plan.transform operation content = .ok (some change) ∧
      fs.writeText path change.text = .ok (fs.put l (.file (.text change.text))) := by
  unfold outcome at houtcome
  split at houtcome
  · cases houtcome
  · next content hread =>
    obtain ⟨l, hlookup, hgrants⟩ := FileSystem.readText_eq_ok_iff.mp hread
    split at houtcome
    · cases houtcome
    · cases houtcome
    · next found htransform =>
      have hwrite := FileSystem.writeText_of_lookup found.text hlookup
      split at houtcome
      · cases houtcome
      · next written hwritten =>
        cases houtcome
        refine ⟨l, content, hlookup, hgrants, htransform, ?_⟩
        split at hwrite
        · exact hwrite
        · rw [hwrite] at hwritten
          cases hwritten

/-- The new content goes where the path leads. -/
theorem newContent?_eq_some {path : Path} {row : Location × Text}
    (hnew : plan.newContent? operation fs (.ok path) = some row) :
    ∃ change, plan.outcome operation fs path = .ok (some change) ∧
      fs.canonical? path = some row.1 ∧ row.2 = change.text := by
  unfold newContent? at hnew
  dsimp only at hnew
  split at hnew
  · next change houtcome =>
    obtain ⟨l, hl, rfl⟩ := Option.map_eq_some_iff.mp hnew
    exact ⟨change, houtcome, hl, rfl⟩
  · cases hnew

/-- There is a file where a new content goes. -/
theorem file_of_newContent? {item : Except Failure Path} {row : Location × Text}
    (hnew : plan.newContent? operation fs item = some row) :
    ∃ old, fs.find? row.1 = some (.file old) := by
  cases item with
  | error failure => cases hnew
  | ok path =>
      obtain ⟨change, houtcome, hlocation, _⟩ := newContent?_eq_some hnew
      obtain ⟨l, content, hlookup, _⟩ := outcome_eq_some houtcome
      rw [FileSystem.canonical?_of_lookup hlookup] at hlocation
      cases hlocation
      exact ⟨_, (FileSystem.lookup_eq_ok_iff.mp hlookup).2⟩

/-- **What becomes of a file concerns that file alone.** -/
theorem outcome_congr {path : Path} (houtline : gs.outline = fs.outline)
    (hsame : ∀ l, fs.canonical? path = some l → gs.find? l = fs.find? l) :
    plan.outcome operation gs path = plan.outcome operation fs path := by
  unfold outcome
  rw [FileSystem.readText_congr houtline hsame]
  split
  · rfl
  · next content hread =>
    obtain ⟨l, hlookup, _⟩ := FileSystem.readText_eq_ok_iff.mp hread
    have hlookup' := (FileSystem.lookup_congr houtline hsame).trans hlookup
    split
    · rfl
    · rfl
    · rw [FileSystem.writeText_of_lookup _ hlookup, FileSystem.writeText_of_lookup _ hlookup',
        FileSystem.grants_of_outline_eq houtline]
      by_cases hgrants : fs.grants .writing l = true
      · rw [if_pos hgrants, if_pos hgrants]
      · rw [if_neg hgrants, if_neg hgrants]

/-- An item does not notice a change of the file system that keeps the outline
and the file the item concerns. -/
def Unaware (fs gs : FileSystem) (item : Except Failure Path) : Prop :=
  ∀ path, item = .ok path → ∀ l, fs.canonical? path = some l → gs.find? l = fs.find? l

section

variable (plan operation) {item : Except Failure Path} (houtline : gs.outline = fs.outline)
  (hsame : Unaware fs gs item)

include houtline hsame

/-- A new content depends on the own file only. -/
theorem newContent?_congr :
    plan.newContent? operation gs item = plan.newContent? operation fs item := by
  cases item with
  | error failure => rfl
  | ok path =>
      simp only [newContent?, outcome_congr houtline (hsame path rfl),
        FileSystem.canonical?_of_outline_eq houtline]

/-- A request to write depends on the own file only. -/
theorem writeCall?_congr :
    plan.writeCall? operation gs item = plan.writeCall? operation fs item := by
  cases item with
  | error failure => rfl
  | ok path => simp only [writeCall?, outcome_congr houtline (hsame path rfl)]

end

/-! ## Several items -/

variable {start : FileSystem}

/-- The contents that a list of items gives to files. -/
def newContents (plan : Plan) (operation : Operation) (start : FileSystem)
    (items : List (Except Failure Path)) : List (Location × Text) :=
  items.filterMap (plan.newContent? operation start)

/-- New contents only go into files. -/
theorem outline_newContents (items : List (Except Failure Path)) :
    (start.rewrite (plan.newContents operation start items)).outline = start.outline := by
  refine FileSystem.outline_rewrite fun row hrow => ?_
  obtain ⟨item, _, hnew⟩ := List.mem_filterMap.mp hrow
  exact file_of_newContent? hnew

/-- A file that differs from all that have a new content is as it was. -/
theorem unaware_of_apart {items : List (Except Failure Path)} {item : Except Failure Path}
    (hapart : ∀ other ∈ items, plan.newContent? operation start other ≠ none →
      Walk.Apart start item other) :
    Unaware start (start.rewrite (plan.newContents operation start items)) item := by
  intro path hpath l hl
  refine FileSystem.find?_rewrite_of_not_mem fun hmem => ?_
  obtain ⟨row, hrow, hrowl⟩ := List.mem_map.mp hmem
  obtain ⟨other, hother, hnew⟩ := List.mem_filterMap.mp hrow
  cases other with
  | error failure => cases hnew
  | ok q =>
      obtain ⟨_, _, hq, _⟩ := newContent?_eq_some hnew
      subst hpath
      exact (hapart _ hother (by simp [hnew])).canonical?_ne hl (hrowl ▸ hq)

/-! ## Actions and entries -/

/-- A text can only fail for want of a canonical header. -/
theorem transform_error {content : Text} {failure : Failure}
    (htransform : plan.transform operation content = .error failure) : failure = .noHeader := by
  unfold transform at htransform
  split at htransform
  · cases htransform
  · split at htransform
    · cases htransform
      rfl
    · cases htransform

/-- The action of a change says that the content changes. -/
theorem transform_action {content : Text} {change : Change}
    (htransform : plan.transform operation content = .ok (some change)) :
    change.action.changesContent = true := by
  unfold transform at htransform
  split at htransform
  · obtain ⟨text, _, rfl⟩ := Option.map_eq_some_iff.mp (Except.ok.inj htransform)
    rfl
  · split at htransform
    · cases htransform
    · rw [Except.ok.injEq, synchronizeChange?] at htransform
      split at htransform
      · cases htransform
      · cases htransform
        dsimp only
        split <;> rfl

/-- Of the files that do not fail, exactly those that change have an action
that says so. -/
theorem outcome_action {path : Path} {change : Option Change}
    (houtcome : plan.outcome operation fs path = .ok change) :
    (actionOf change).changesContent = change.isSome ∧ actionOf change ≠ .failed := by
  cases change with
  | none => exact ⟨rfl, Action.noConfusion⟩
  | some change =>
      obtain ⟨_, _, _, _, htransform, _⟩ := outcome_eq_some houtcome
      have haction : (actionOf (some change)).changesContent = true := transform_action htransform
      refine ⟨haction, fun hfailed => ?_⟩
      rw [hfailed] at haction
      cases haction

/-- A file that is processed is listed with what becomes of it. -/
theorem entry_of_ok {path : Path} {change : Option Change}
    (houtcome : plan.outcome operation fs path = .ok change) :
    plan.entry operation fs (.ok path) = ⟨path, actionOf change, none⟩ := by
  simp only [entry, houtcome]

/-- A file that fails is listed with the failure. -/
theorem entry_of_error {path : Path} {failure : Failure}
    (houtcome : plan.outcome operation fs path = .error failure) :
    plan.entry operation fs (.ok path) = ⟨path, .failed, some failure.message.toList⟩ := by
  simp only [entry, houtcome]

end Plan

/-! ## Steps that write nothing -/

@[simp] theorem World.tell_fs (w : World) (event : Event) : (w.tell event).fs = w.fs := rfl
@[simp] theorem World.tell_writes (w : World) (event : Event) :
    (w.tell event).writes = w.writes := rfl
@[simp] theorem World.tellAll_fs (w : World) (events : List Event) :
    (w.tellAll events).fs = w.fs := rfl
@[simp] theorem World.tellAll_writes (w : World) (events : List Event) :
    (w.tellAll events).writes = w.writes := rfl

/-- Nothing has been written in between, and nothing was to be written. -/
structure World.Idle (before after : World) : Prop where
  fs : after.fs = before.fs
  writes : after.writes = before.writes

theorem World.Idle.trans {w₁ w₂ w₃ : World} (hfirst : w₁.Idle w₂) (hthen : w₂.Idle w₃) :
    w₁.Idle w₃ where
  fs := hthen.fs.trans hfirst.fs
  writes := hthen.writes.trans hfirst.writes

theorem World.idle_tell (w : World) (event : Event) : w.Idle (w.tell event) := ⟨rfl, rfl⟩

theorem World.idle_tellAll (w : World) (events : List Event) : w.Idle (w.tellAll events) :=
  ⟨rfl, rfl⟩

namespace Engine

open Plan

variable {e : Engine} {operation : Operation}

/-- Under an undisturbed detector a change is what the operation makes of the
text, and the question to the detector changes nothing. -/
theorem change_eq (operation : Operation) (hpure : e.detector.edits = []) (content : Text)
    (w : World) :
    (e.change operation content w).1 = e.transform operation content ∧
      w.Idle (e.change operation content w).2 := by
  unfold change transform
  cases operation with
  | remove => exact ⟨rfl, rfl, rfl⟩
  | synchronize =>
      cases e.headers.canonical? with
      | none => exact ⟨rfl, rfl, rfl⟩
      | some canonical => exact ⟨rfl, by simp [Detector.ask, hpure], rfl⟩

/-- Without a diff file a diff is at most told. -/
theorem idle_putDiff (hdiff : e.diff.saved = none) (path : Path) (old new : Text) (w : World) :
    w.Idle (e.putDiff path old new w) := by
  have hput : ∃ events, e.diff.put path old new w = (.ok (), w.tellAll events) := by
    unfold DiffOutput.put
    rw [hdiff]
    by_cases hactive : e.diff.isActive = true
    · by_cases hshown : e.diff.shown = true
      · refine ⟨DiffOutput.shownLines (Diff.render path old new), ?_⟩
        simp [hactive, hshown]
      · refine ⟨[], ?_⟩
        simp [hactive, hshown, World.tellAll]
    · refine ⟨[], ?_⟩
      simp [hactive, World.tellAll]
  obtain ⟨events, hevents⟩ := hput
  unfold putDiff DiffOutput.carry
  rw [hevents, hdiff]
  exact w.idle_tellAll events

/-- A write that is refused changes nothing and is one call. -/
theorem commit_of_refused {w : World} {path : Path} {new : Text} {cause : Cause}
    (hreal : e.dryRun = false) (hwrite : w.fs.writeText path new = .error cause) :
    e.commit operation path new w =
      (.error (.file .write path cause), w.call path (some cause)) := by
  simp only [commit, hreal, hwrite, Bool.false_eq_true, if_false]

/-- A write that is granted is carried to all names of the file. -/
theorem commit_of_written (operation : Operation) {w : World} {path : Path} {new : Text}
    {written : FileSystem} (hreal : e.dryRun = false)
    (hwrite : w.fs.writeText path new = .ok written) :
    ∃ event, e.commit operation path new w =
      (.ok (), ({ w with fs := e.links.carry path written }.call path none).tell event) := by
  unfold commit
  rw [if_neg (by simp [hreal])]
  simp only [hwrite]
  exact ⟨_, rfl⟩

end Engine

end LicenseHeaders

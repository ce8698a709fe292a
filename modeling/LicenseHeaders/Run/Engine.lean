import LicenseHeaders.Files.HardLinks
import LicenseHeaders.Header.Loading
import LicenseHeaders.Report.Basic
import LicenseHeaders.Run.DiffOutput
import LicenseHeaders.Selection.Walk

/-!
# Running an operation over trees

A run takes the selected files one at a time: each is read, changed and written
before the walk goes on to the next.  A file is written only when its content
changes and the run is no dry run.  At the first failure the run stops with a
warning that lists what has been changed so far; a run that keeps going records
the failure instead and carries on.

* `Engine.process` — one operation on one file;
* `Engine.handle` — one item of the walk, which every run treats alike;
* `Engine.run` — the whole run, with the report or the failure that stopped it;
* `synchronizeTrees`, `removeFromTrees` — runs with default settings over
  headers that are loaded first.
-/

namespace LicenseHeaders

/-- What a run is asked for, and which of the files that it is made on have
further names. -/
structure Plan where
  headers : HeaderSet
  criteria : Criteria := {}
  detector : Detector := {}
  diff : DiffOutput := {}
  links : HardLinks := {}
  dryRun : Bool := false
  keepGoing : Bool := false

/-- A plan whose criteria are ready for use. -/
structure Engine extends Plan where
  filters : List NameFilter

/-- The engine of a plan, unless its pattern is invalid. -/
def Plan.engine (plan : Plan) : Except Failure Engine :=
  match plan.criteria.filters with
  | .ok filters => .ok { plan with filters := filters }
  | .error fault => .error (.badPattern plan.criteria.pattern fault)

namespace Engine

/-- The warning that synchronizing can do nothing with an empty header. -/
def warnings (e : Engine) : List Event :=
  if e.headers.canonical? = some [] then
    [.message .warn .run
      "The canonical license header is empty; synchronize will leave every file unchanged"]
  else []

/-- The change an operation makes to a text, if any. -/
def change (e : Engine) (operation : Operation) (content : Text) (w : World) :
    Except Failure (Option Change) × World :=
  match operation with
  | .remove => (.ok (removeChange? e.headers content), w)
  | .synchronize =>
    match e.headers.canonical? with
    | none => (.error .noHeader, w)
    | some canonical =>
      let (present, w) := e.detector.ask canonical content w
      (.ok (synchronizeChange? (fun _ _ => present) canonical e.headers.legacy content), w)

/-- Gives a file its new content, under all of its names, or says what would be
given. -/
def commit (e : Engine) (operation : Operation) (path : Path) (new : Text) (w : World) :
    Except Failure Unit × World :=
  if e.dryRun then
    (.ok (), w.tell (.remark s!"Would {operation.word} license header for: {path.display}"))
  else
    match w.fs.writeText path new with
    | .error cause => (.error (.file .write path cause), w.call path (some cause))
    | .ok fs =>
      (.ok (), ({ w with fs := e.links.carry path fs }.call path none).tell
        (.remark s!"Changed license header for: {path.display}"))

/-- Puts out the diff of a change; a diff that cannot be put out is a warning. -/
def putDiff (e : Engine) (path : Path) (old new : Text) (w : World) : World :=
  match e.diff.put path old new w with
  | (.ok (), w) => { w with fs := e.diff.carry e.links w.fs }
  | (.error failure, w) =>
    let text := s!"Failed to render diff for {path.display}: {failure.message}"
    w.tell (.message .warn .run text)

/-- Applies an operation to one file. -/
def process (e : Engine) (operation : Operation) (path : Path) (w : World) :
    Except Failure Action × World :=
  let w := w.tell (.message .trace .run s!"Processing file: {path.display}")
  match w.fs.readText path with
  | .error cause => (.error (.file .read path cause), w)
  | .ok content =>
    match e.change operation content w with
    | (.error failure, w) => (.error failure, w)
    | (.ok none, w) => (.ok .unchanged, w)
    | (.ok (some change), w) =>
      let w := e.putDiff path content change.text w
      match e.commit operation path change.text w with
      | (.error failure, w) => (.error failure, w)
      | (.ok (), w) => (.ok change.action, w)

/-- A failure becomes an entry of the report in a run that keeps going. -/
def record (e : Engine) (path : Path) (failure : Failure) (w : World) :
    Except Failure FileReport × World :=
  if e.keepGoing then
    let text := s!"Skipping {path.display}: {failure.message}"
    (.ok ⟨path, .failed, some failure.message.toList⟩, w.tell (.message .warn .run text))
  else (.error failure, w)

/-- The report entry for one item of the walk, or the failure that stops the
run. -/
def handle (e : Engine) (operation : Operation) (item : Except Failure Path) (w : World) :
    Except Failure FileReport × World :=
  match item with
  | .error failure => e.record (failure.path?.getD ⟨[]⟩) failure w
  | .ok path =>
    match e.process operation path w with
    | (.ok action, w) => (.ok ⟨path, action, none⟩, w)
    | (.error failure, w) => e.record path failure w

/-- What a run tells when it stops early: how far it came, and the files it has
changed. -/
def interruption (e : Engine) (operation : Operation) (files : List FileReport) : List Event :=
  let changed := files.filter fun file => file.action.changesContent
  let verb := if e.dryRun then "to change" else "changed"
  let head := s!"Stopped {operation.word} after {files.length} scanned, {changed.length} {verb}"
  .message .warn .run head ::
    changed.map fun file => .message .warn .run s!"  {file.path.display}"

/-- Handles the items of a walk, at most `items` of them. -/
def handleAll (e : Engine) (operation : Operation) :
    (items : Nat) → Walk → List FileReport → World → Except Failure (List FileReport) × World
  | 0, _, files, w => (.ok files, w)
  | items + 1, walk, files, w =>
    let (item, walk, events) := walk.next e.filters w.fs
    let w := w.tellAll events
    let proceed := fun (item : Except Failure Path) =>
      match e.handle operation item w with
      | (.error failure, w) => (.error failure, w.tellAll (e.interruption operation files))
      | (.ok file, w) => handleAll e operation items walk (files ++ [file]) w
    match item with
    | .done => (.ok files, w)
    | .failure failure => proceed (.error failure)
    | .file path => proceed (.ok path)

/-- More items than a run can meet.  In an unchanging tree that is the budget of
its walk; each edit of the detector can renew every entry that is pending. -/
def budget (e : Engine) (fs : FileSystem) (roots : List Path) : Nat :=
  let edits := e.detector.edits.length
  let growth := e.detector.edits.foldr (fun edit growth => edit.2.growth + growth) 0
  let most := 2 * (fs.size + growth) + 4
  (roots.length + 1) * Nat.pow most (2 * edits + 1)

/-- Runs an operation over the trees below roots. -/
def run (e : Engine) (operation : Operation) (roots : List Path) (w : World) :
    Except Failure Report × World :=
  if operation = .synchronize ∧ e.headers.isEmpty then (.error .noHeader, w)
  else
    match Walk.start w.fs roots with
    | .error failure => (.error failure, w)
    | .ok walk =>
      match e.handleAll operation (e.budget w.fs roots) walk [] w with
      | (.error failure, w) => (.error failure, w)
      | (.ok files, w) =>
        let report : Report := { operation, dryRun := e.dryRun, files }
        let text := s!"{operation.word}: {report.scannedCount} scanned, " ++
          s!"{report.changedCount} changed, {report.failedCount} failed"
        (.ok report, w.tell (.message .debug .run text))

end Engine

/-- Builds the engine of a plan and tells its warnings. -/
def Plan.start (plan : Plan) (w : World) : Except Failure Engine × World :=
  match plan.engine with
  | .error failure => (.error failure, w)
  | .ok engine => (.ok engine, w.tellAll engine.warnings)

/-- Runs an operation as planned. -/
def Plan.run (plan : Plan) (operation : Operation) (roots : List Path) (w : World) :
    Except Failure Report × World :=
  match plan.start w with
  | (.error failure, w) => (.error failure, w)
  | (.ok engine, w) => engine.run operation roots w

/-- Loads headers and runs an operation with default settings.  Each file has one
name, unless it is told otherwise. -/
def runFromSources (operation : Operation) (sources roots : List Path) (w : World)
    (links : HardLinks := {}) : Except Failure Report × World :=
  match loadHeaders w.fs sources with
  | (.error failure, events) => (.error failure, w.tellAll events)
  | (.ok headers, events) => Plan.run { headers, links } operation roots (w.tellAll events)

/-- Synchronizes the first of some header files into all selected files. -/
def synchronizeTrees (sources roots : List Path) (w : World) : Except Failure Report × World :=
  runFromSources .synchronize sources roots w

/-- Removes the texts of header files from all selected files. -/
def removeFromTrees (sources roots : List Path) (w : World) : Except Failure Report × World :=
  runFromSources .remove sources roots w

end LicenseHeaders

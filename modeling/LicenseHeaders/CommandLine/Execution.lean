import LicenseHeaders.CommandLine.Arguments
import LicenseHeaders.CommandLine.Trouble
import LicenseHeaders.Console.Transcript
import LicenseHeaders.Run.Engine

/-!
# Carrying out a request

A request is carried out in two parts.  In the first, the current directory is
asked for, settings and headers are loaded, the diff file is emptied and the
trees are gone through; it ends with a report or with trouble.  The second prints
what happened and writes the report.  In between, the time that the first part
took is noted.

Whatever ends a run, all that it told until then is printed, and the file
system is left as it was at that point.  A file that is written is changed under
all of its names.

* `Request.perform` — the first part;
* `Request.conclude` — the second part;
* `execute` — both, for arguments as they were given.
-/

namespace LicenseHeaders

/-- How a command ended. -/
structure Outcome where
  exitCode : Nat
  printed : Printed := []
  fs : FileSystem

/-- A part of a run that can end in trouble. -/
abbrev Task (α : Type) := ExceptT Trouble (StateM World) α

namespace Task

/-- A task that tells some events and has a result of its own. -/
def ofEvents {α : Type} (result : Except Trouble α) (events : List Event) : Task α :=
  fun w => (result, w.tellAll events)

/-- A step of a run as a task, with the trouble its failure means. -/
def ofStep {α : Type} (trouble : Failure → Trouble)
    (step : World → Except Failure α × World) : Task α := fun w =>
  match step w with
  | (.ok a, w) => (.ok a, w)
  | (.error failure, w) => (.error (trouble failure), w)

/-- A change of the file system as a task. -/
def ofOutput (change : FileSystem → Except OutputFailure FileSystem) : Task Unit := fun w =>
  match change w.fs with
  | .ok fs => (.ok (), { w with fs := fs })
  | .error failure => (.error (.ofOutput failure), w)

end Task

/-- The path from the root to a location. -/
def Location.path (l : Location) : Path := ⟨'/' :: Text.joinWith ['/'] l⟩

/-- The path of the current directory.  A directory that has been deleted has
none, also while it is the current one. -/
def FileSystem.currentPath (fs : FileSystem) : Except Cause Path :=
  if fs.isDirectory fs.current then .ok fs.current.path else .error .noSuchEntry

/-- Asks for the path of the current directory. -/
def Task.currentPath : Task Path := fun w =>
  match w.fs.currentPath with
  | .ok path => (.ok path, w)
  | .error cause => (.error ⟨"Failed to get current directory", [cause.message]⟩, w)

/-- What is said when a report has been written. -/
def reportNotice (path : Path) : String := s!"Generated JSON report at {path.display}"

/-- Writes a report to a file. -/
def FileSystem.writeReport (fs : FileSystem) (path : Path) (r : Report) :
    Except OutputFailure FileSystem :=
  match fs.writeText path r.prettyText with
  | .ok fs => .ok fs
  | .error cause => .error (.writeReport path cause)

namespace Options

/-- How much is printed. -/
def mode (o : Options) : Mode :=
  if o.verbosity > 0 then .verbose else if o.quiet then .quiet else .normal

/-- How a run with these options speaks. -/
def console (o : Options) (environment : Environment) : Console where
  display := { mode := o.mode, colours := o.colours.shows environment }
  log := LogFilter.forRun environment o.quiet o.verbosity
  colouredLevels := coloursLevels environment

/-- Where the settings of a run come from. -/
def settingsSource (o : Options) (environment : Environment) (base : Path) : SettingsSource where
  explicit := o.settings
  base := base
  environment := (environment settingsVariable).map String.toList
  disabled := o.noSettings

/-- Loads the settings. -/
def loadSettings (o : Options) (environment : Environment) (base : Path) :
    Task SelectionSettings := fun w =>
  let source := o.settingsSource environment base
  let (settings, events) := LicenseHeaders.loadSettings w.fs source
  let result := match settings with
    | .ok settings => .ok settings
    | .error (path, failure) => .error (.ofSettings path failure)
  Task.ofEvents result events w

/-- The criteria of a run: the settings, with what the options override. -/
def chooseCriteria (o : Options) (settings : SelectionSettings) : Task Criteria :=
  match settings.merge { pattern := o.pattern, exclude := o.exclude } with
  | (_, .error invalid) => throw ⟨"Invalid selection options", [invalid.message]⟩
  | (settings, .ok ()) =>
    let criteria := settings.criteria
    let names := String.ofList (quotedSet (sortedNames criteria.excluded))
    let pattern := String.ofList criteria.pattern
    let text := s!"Selecting files matching {pattern} excluding {names}"
    Task.ofEvents (.ok criteria) [.message .debug .command text]

/-- Loads the headers. -/
def loadHeaders (o : Options) : Task HeaderSet := fun w =>
  let (headers, events) := LicenseHeaders.loadHeaders w.fs o.licenses
  let trouble := Trouble.whileTrying "Failed to load license headers"
  Task.ofEvents (headers.mapError trouble) events w

/-- Where the diffs of a run go. -/
def diffOutput (o : Options) : DiffOutput := ⟨o.showDiff, o.savedDiff⟩

/-- Empties the diff file, under all of its names. -/
def emptyDiff (o : Options) (links : HardLinks) (fs : FileSystem) :
    Except OutputFailure FileSystem :=
  (o.diffOutput.init fs).map (o.diffOutput.carry links)

/-- All that a run has to know, with the diff file emptied. -/
def plan (o : Options) (environment : Environment) (links : HardLinks) : Task Plan := do
  let base ← Task.currentPath
  let settings ← o.loadSettings environment base
  let criteria ← o.chooseCriteria settings
  let headers ← o.loadHeaders
  Task.ofOutput (o.emptyDiff links)
  return {
    headers, criteria, diff := o.diffOutput, links, dryRun := o.dryRun
    keepGoing := o.keepGoing }

end Options

namespace Request

/-- Goes through the trees. -/
def perform (r : Request) (environment : Environment) (links : HardLinks) : Task Report := do
  let plan ← r.options.plan environment links
  let engine ← Task.ofStep Trouble.ofFailure plan.start
  let attempt := s!"Failed to {r.operation.word} license headers"
  Task.ofStep (Trouble.whileTrying attempt) (engine.run r.operation r.options.directories)

/-- Writes the report to its file, if one is wanted, and says so. -/
def saveReport (r : Request) (d : Display) (links : HardLinks) (fs : FileSystem)
    (report : Report) : Except Trouble (Printed × FileSystem) :=
  match r.options.report with
  | none => .ok ([], fs)
  | some path =>
    match fs.writeReport path report with
    | .ok fs => .ok (d.noticeLines (reportNotice path), links.carry path fs)
    | .error failure => .error (.ofOutput failure)

/-- Prints what became of the first part and writes the report.  Paths are shown
from the current directory, which is where it was in the first part. -/
def conclude (r : Request) (environment : Environment) (timing : Timing) (links : HardLinks)
    (result : Except Trouble Report × World) : Outcome :=
  let console := r.options.console environment
  let (answer, w) := result
  let told := console.transcript w.events
  match answer with
  | .error trouble => ⟨1, told ++ [(.err, trouble.text)], w.fs⟩
  | .ok report =>
    let report := { report with timing := timing }
    let told := told ++ console.display.reportLines (some w.fs.current.path) report
    match r.saveReport console.display links w.fs report with
    | .error trouble => ⟨1, told ++ [(.err, trouble.text)], w.fs⟩
    | .ok (notice, fs) => ⟨if report.hasFailures then 1 else 0, told ++ notice, fs⟩

end Request

/-- The name and version of the program. -/
def versionText : String := "headersync 0.1.0"

/-- What is known of the sources the program was made from. -/
def sourceText : String := " (unknown unknown)"

/-- How the program is called. -/
def usageText : String :=
  "Usage: headersync <synchronize|remove> --licenses <PATH>... --directories <DIR>... [OPTIONS]"

namespace Misuse

/-- What is wrong with the arguments, in words. -/
def message : Misuse → String
  | .noCommand => "error: a command is required"
  | .unknownCommand => "error: unrecognized command"
  | .unknownArgument => "error: unexpected argument"
  | .badValue => "error: missing or invalid value of an option"
  | .surplusValue => "error: a value was given to an option that takes none"
  | .conflict => "error: options exclude each other"
  | .missingOption => "error: a required option was not given"

/-- The exit code of a command that was called wrongly. -/
def exitCode : Nat := 2

end Misuse

/-- How a command ends that asks for no run. -/
def Halt.outcome (fs : FileSystem) : Halt → Outcome
  | .help => ⟨0, [(.out, usageText)], fs⟩
  | .version false => ⟨0, [(.out, versionText)], fs⟩
  | .version true => ⟨0, [(.out, versionText ++ sourceText)], fs⟩
  | .misuse fault => ⟨Misuse.exitCode, [(.err, fault.message), (.err, usageText)], fs⟩

/-- Carries out a command.  Each file has one name, unless it is told otherwise. -/
def execute (environment : Environment) (timing : Timing) (fs : FileSystem)
    (arguments : List Text) (links : HardLinks := {}) : Outcome :=
  match Request.ofArguments arguments with
  | .error halt => halt.outcome fs
  | .ok request =>
    request.conclude environment timing links (request.perform environment links { fs := fs })

end LicenseHeaders

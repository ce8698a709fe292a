import LicenseHeaders.Console.Style
import LicenseHeaders.Number.Decimal
import LicenseHeaders.Report.Json

/-!
# What is printed about a run

After a run the console shows how many files were found, which of them changed
or failed, and a summary.  Paths are shown relative to a base directory and
changed files in the order of their path components.  Quiet output is reduced
to the changed paths, one per line; other output is cut after twenty files
unless it is verbose.  Failed files are shown in any case, apart from the other
output.

* `changedLines` — the list of changed files;
* `failedLines`, `okLines`, `summaryLines` — the parts around it;
* `Printed` — lines with the stream they go to.
-/

namespace LicenseHeaders

/-- How much is printed. -/
inductive Mode where
  | normal
  | quiet
  | verbose
  deriving DecidableEq, Repr

/-- Where a line is printed. -/
inductive Stream where
  | out
  | err
  deriving DecidableEq, Repr

/-- Lines in the order in which they are printed. -/
abbrev Printed := List (Stream × String)

namespace Printed

/-- What one stream receives. -/
def on (stream : Stream) (printed : Printed) : String :=
  String.join ((printed.filter fun line => line.1 = stream).map fun line => line.2 ++ "\n")

end Printed

/-- How output is laid out. -/
structure Display where
  mode : Mode := .normal
  colours : Bool := false
  deriving DecidableEq, Repr

namespace Display

def isQuiet (d : Display) : Bool := d.mode = .quiet
def isVerbose (d : Display) : Bool := d.mode = .verbose

def say (line : String) : Printed := [(.out, line)]

/-- A line that quiet output leaves out. -/
def unlessQuiet (d : Display) (line : String) : Printed :=
  if d.isQuiet then [] else say line

def plural (count : Nat) : String := if count = 1 then "file" else "files"

/-- The most changed files that are listed when output is not verbose. -/
def listLimit : Nat := 20

def success : String := "✓"
def failure : String := "✗"
def updated : String := "↻"

/-- A path as it is shown relative to a base directory. -/
def shownPath (base : Option Path) (path : Path) : String :=
  match base with
  | none => path.display
  | some base => ((base.stripBase? path).getD path).display

def startLines (d : Display) (r : Report) : Printed :=
  let note := if r.dryRun then " (dry run)" else ""
  d.unlessQuiet s!"Found {r.scannedCount} {plural r.scannedCount}{note}."

def blankLines (d : Display) : Printed := d.unlessQuiet ""

/-- The changed files in the order of their paths. -/
def sortedChanges (r : Report) : List FileReport :=
  r.changed.mergeSort fun a b => Path.notAfter a.path b.path

/-- The line of a changed file. -/
def changedLine (d : Display) (base : Option Path) (file : FileReport) : String :=
  let path := shownPath base file.path
  if file.action = .replaced then s!"  {path} {paint d.colours .yellow updated}" else s!"  {path}"

/-- The list of changed files. -/
def changedLines (d : Display) (base : Option Path) (r : Report) : Printed :=
  let files := sortedChanges r
  let count := files.length
  if count = 0 then []
  else if d.isQuiet then files.flatMap fun file => say (shownPath base file.path)
  else
    let verb := if r.dryRun then "Would change" else "Changed"
    let mark := paint d.colours .green success
    let head := s!"{mark} {verb} license header in {count} {plural count}:"
    let limit := if d.isVerbose then count else listLimit
    let space := paint d.colours .dimmed ""
    let rest :=
      if count > limit then say s!"  {space} ... and {count - limit} more (use -v to see all)"
      else []
    say head ++ (files.take limit).flatMap (fun file => say (d.changedLine base file)) ++ rest

/-- The list of failed files. -/
def failedLines (d : Display) (base : Option Path) (r : Report) : Printed :=
  let files := r.failed
  if files.isEmpty then []
  else
    let mark := paint d.colours .red failure
    let head := s!"{mark} Failed to process {files.length} {plural files.length}:"
    (.err, head) :: files.map fun file =>
      let error := (file.error.map String.ofList).getD "unknown error"
      (.err, s!"  {shownPath base file.path}: {error}")

/-- The line that says that nothing had to change. -/
def okLines (d : Display) (r : Report) : Printed :=
  if r.changedCount > 0 ∨ r.hasFailures then []
  else d.unlessQuiet s!"{paint d.colours .green success} All files are up to date."

/-- The time a run took, with two places. -/
def elapsedText (t : Timing) : String :=
  String.ofList (Decimal.fixed t.inSeconds 2)

def summaryLines (d : Display) (r : Report) : Printed :=
  let number := fun (style : Style) (n : Nat) => paint d.colours style (toString n)
  let verb := if r.dryRun then "to change" else "changed"
  let counts := s!"Summary: {number .cyan r.scannedCount} scanned, " ++
    s!"{number .cyan r.changedCount} {verb}"
  let failed := if r.hasFailures then s!", {number .red r.failedCount} failed" else ""
  let elapsed := if d.isVerbose then s!" ({elapsedText r.timing}s)" else ""
  d.unlessQuiet (counts ++ failed ++ elapsed)

/-- A notice for the user. -/
def noticeLines (d : Display) (message : String) : Printed :=
  d.unlessQuiet (paint d.colours .yellow message)

/-- A remark, which only verbose output shows. -/
def remarkLines (d : Display) (message : String) : Printed :=
  if d.isVerbose then [(.err, message)] else []

/-- All that is printed about a finished run. -/
def reportLines (d : Display) (base : Option Path) (r : Report) : Printed :=
  d.startLines r ++ d.blankLines ++ d.changedLines base r ++ d.failedLines base r ++
    d.okLines r ++ d.blankLines ++ d.summaryLines r

end Display

end LicenseHeaders

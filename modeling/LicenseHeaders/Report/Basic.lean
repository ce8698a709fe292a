import LicenseHeaders.Files.Path
import LicenseHeaders.Header.Change

/-!
# Run reports

A report has one entry for each selected file, in the order in which the files
were handled, and says what the run was asked to do.  The counts of its summary
are read off the entries.
-/

namespace LicenseHeaders

/-- What became of one file. -/
structure FileReport where
  path : Path
  action : Action
  error : Option Text := none
  deriving DecidableEq, Repr

/-- How long a run took and when it ended, in seconds of the epoch. -/
structure Timing where
  seconds : Nat := 0
  nanoseconds : Nat := 0
  timestamp : Int := 0
  deriving DecidableEq, Repr

/-- What became of all files of a run. -/
structure Report where
  operation : Operation
  dryRun : Bool
  files : List FileReport
  timing : Timing := {}
  deriving DecidableEq, Repr

namespace Report

/-- The entries whose action changes content, in order. -/
def changed (r : Report) : List FileReport :=
  r.files.filter fun file => file.action.changesContent

/-- The entries that failed, in order. -/
def failed (r : Report) : List FileReport :=
  r.files.filter fun file => file.action = .failed

def scannedCount (r : Report) : Nat := r.files.length
def changedCount (r : Report) : Nat := r.changed.length
def failedCount (r : Report) : Nat := r.failed.length
def hasFailures (r : Report) : Bool := r.failedCount > 0

end Report

end LicenseHeaders

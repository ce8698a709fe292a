import LicenseHeaders.Files.Cause
import LicenseHeaders.Files.Path
import LicenseHeaders.Selection.Pattern

/-!
# What can go wrong in a run

A run fails for one of six reasons.  Those that concern a path carry it.  The
wording of each stands in `Failure.message`; `Failure.causes` lists the
wordings of what lies behind it, the nearest first.
-/

namespace LicenseHeaders

/-- What was being done to a file. -/
inductive FileTask where
  | read
  | write
  | readHeader
  deriving DecidableEq, Repr

def FileTask.words : FileTask → String
  | .read => "read"
  | .write => "write"
  | .readHeader => "read license header"

/-- Why a run, or the handling of one file, failed. -/
inductive Failure where
  | headerMissing (path : Path)
  | directoryMissing (path : Path)
  | file (task : FileTask) (path : Path) (cause : Cause)
  | noHeader
  | badPattern (pattern : Text) (fault : Pattern.Fault)
  | traversal (path : Path) (cause : Cause)
  deriving DecidableEq, Repr

namespace Failure

/-- The wording of a failed step of a walk. -/
def traversalDetail (path : Path) (cause : Cause) : String :=
  s!"IO error for operation on {path.display}: {cause.message}"

def message : Failure → String
  | .headerMissing path => s!"License header file not found: {path.display}"
  | .directoryMissing path => s!"Directory not found: {path.display}"
  | .file task path cause => s!"Failed to {task.words} {path.display}: {cause.message}"
  | .noHeader => "At least one license header is required to synchronize"
  | .badPattern pattern fault =>
    s!"Invalid file name pattern '{String.ofList pattern}': {fault.message}"
  | .traversal path cause => s!"Failed to traverse {path.display}: {traversalDetail path cause}"

/-- The path a failure concerns. -/
def path? : Failure → Option Path
  | .headerMissing path | .directoryMissing path => some path
  | .file _ path _ | .traversal path _ => some path
  | .noHeader | .badPattern _ _ => none

/-- What lies behind a failure, the nearest cause first. -/
def causes : Failure → List String
  | .file _ _ cause => [cause.message]
  | .badPattern _ fault => [fault.message]
  | .traversal path cause => [traversalDetail path cause, cause.message]
  | .headerMissing _ | .directoryMissing _ | .noHeader => []

end Failure

end LicenseHeaders

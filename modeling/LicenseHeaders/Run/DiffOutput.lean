import LicenseHeaders.Diff.Rendering
import LicenseHeaders.Files.HardLinks
import LicenseHeaders.Run.World

/-!
# Showing and saving diffs

The diffs of a run can be shown line by line and added to a file.  The file is
emptied before the run.  A diff that cannot be saved is an error of its own,
with a context and a cause; it never stops a run.
-/

namespace LicenseHeaders

/-- Where diffs go. -/
structure DiffOutput where
  shown : Bool := false
  saved : Option Path := none
  deriving DecidableEq, Repr

/-- A file of the run's own output that could not be written. -/
inductive OutputFailure where
  | createDiff (path : Path) (cause : Cause)
  | openDiff (path : Path) (cause : Cause)
  | writeReport (path : Path) (cause : Cause)
  deriving DecidableEq, Repr

namespace OutputFailure

/-- What was attempted. -/
def context : OutputFailure → String
  | .createDiff path _ => s!"Failed to create diff file: {path.display}"
  | .openDiff path _ => s!"Failed to open diff file: {path.display}"
  | .writeReport path _ => s!"Failed to write report to {path.display}"

def cause : OutputFailure → Cause
  | .createDiff _ cause | .openDiff _ cause | .writeReport _ cause => cause

def message (f : OutputFailure) : String := s!"{f.context}: {f.cause.message}"

end OutputFailure

namespace DiffOutput

/-- Whether diffs go anywhere. -/
def isActive (d : DiffOutput) : Bool := d.shown || d.saved.isSome

/-- Empties the diff file, which is created when it is missing. -/
def init (d : DiffOutput) (fs : FileSystem) : Except OutputFailure FileSystem :=
  match d.saved with
  | none => .ok fs
  | some path =>
    match fs.writeText path [] with
    | .ok fs => .ok fs
    | .error cause => .error (.createDiff path cause)

/-- Passes the content of the diff file on to its further names. -/
def carry (d : DiffOutput) (links : HardLinks) (fs : FileSystem) : FileSystem :=
  match d.saved with
  | some path => links.carry path fs
  | none => fs

/-- The events that show a diff: its lines and a blank one. -/
def shownLines (diff : Text) : List Event :=
  (Text.lines diff).map .diffLine ++ [.diffLine []]

/-- Shows and saves the diff of one file. -/
def put (d : DiffOutput) (path : Path) (old new : Text) (w : World) :
    Except OutputFailure Unit × World :=
  if d.isActive then
    let diff := Diff.render path old new
    let w := if d.shown then w.tellAll (shownLines diff) else w
    match d.saved with
    | none => (.ok (), w)
    | some file =>
      match w.fs.appendText file (diff ++ ['\n']) with
      | .ok fs => (.ok (), { w with fs := fs })
      | .error cause => (.error (.openDiff file cause), w)
  else (.ok (), w)

end DiffOutput

end LicenseHeaders

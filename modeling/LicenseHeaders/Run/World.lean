import LicenseHeaders.Event
import LicenseHeaders.Files.Edit
import LicenseHeaders.Header.Change

/-!
# The state of a run

A run reads and changes the file system and tells events.  It asks a detector
whether a text carries the canonical header; a detector may be accompanied by
edits that other programs make right before its n-th answer.  An ordinary
detector has no such edits and answers by header and content alone.
-/

namespace LicenseHeaders

/-- A request to give a file a new content.  A request that the system refuses
leaves the file as it was. -/
structure WriteCall where
  path : Path
  refusal : Option Cause := none
  deriving DecidableEq, Repr

/-- What a run acts on. -/
structure World where
  fs : FileSystem
  /-- How often the detector has been asked. -/
  asked : Nat := 0
  /-- What has been told, the oldest first. -/
  events : List Event := []
  /-- The requests to write, the oldest first. -/
  writes : List WriteCall := []

namespace World

def tell (w : World) (event : Event) : World :=
  { w with events := w.events ++ [event] }

def tellAll (w : World) (events : List Event) : World :=
  { w with events := w.events ++ events }

def call (w : World) (path : Path) (refusal : Option Cause) : World :=
  { w with writes := w.writes ++ [⟨path, refusal⟩] }

end World

/-- The test for the canonical header during a run. -/
structure Detector where
  present : Presence := verbatim
  /-- Edits with the number of the question they come before, from one. -/
  edits : List (Nat × Edit) := []

/-- A question to the detector. -/
def Detector.ask (d : Detector) (header content : Text) (w : World) : Bool × World :=
  let question := w.asked + 1
  let due := d.edits.filter fun e => e.1 = question
  let fs := due.foldl (fun fs e => fs.apply e.2) w.fs
  (d.present header content, { w with fs := fs, asked := question })

end LicenseHeaders

import LicenseHeaders.Event
import LicenseHeaders.Failure
import LicenseHeaders.Files.Access
import LicenseHeaders.Header.Set

/-!
# Loading headers

Header texts are read from files, in order and without trimming.  The first
source that cannot be loaded decides the failure: a source that does not exist
is missing, any other that does not read as text is a failed access.  An empty
header is loaded like any other, with a remark.
-/

namespace LicenseHeaders

/-- The text of one header source. -/
def loadHeader (fs : FileSystem) (source : Path) : Except Failure Text :=
  if fs.pathExists source then
    match fs.readText source with
    | .ok t => .ok t
    | .error cause => .error (.file .readHeader source cause)
  else .error (.headerMissing source)

/-- The texts of header sources, up to the first failure. -/
def loadTexts (fs : FileSystem) : List Path → Except Failure (List Text) × List Event
  | [] => (.ok [], [])
  | source :: rest =>
    let loading := Event.remark s!"Loading license header from: {source.display}"
    match loadHeader fs source with
    | .error failure => (.error failure, [loading])
    | .ok t =>
      let empty :=
        if t = [] then [Event.remark s!"License header {source.display} is empty"] else []
      let (texts, events) := loadTexts fs rest
      (texts.map (t :: ·), loading :: empty ++ events)

/-- The header set of some sources. -/
def loadHeaders (fs : FileSystem) (sources : List Path) : Except Failure HeaderSet × List Event :=
  match loadTexts fs sources with
  | (.error failure, events) => (.error failure, events)
  | (.ok texts, events) =>
    let loaded := s!"Loaded {texts.length} license header(s)"
    (.ok ⟨texts⟩, events ++ [.message .debug .headers loaded])

end LicenseHeaders

import LicenseHeaders.Event
import LicenseHeaders.Files.Access
import LicenseHeaders.Settings.Selection

/-!
# Finding and loading settings

The settings file is the one named on the command line, else the one named in
the environment if it exists, else a file of a fixed name in the base
directory.  A file that was named on the command line has to be readable; a
missing one in the other places means the usual settings.
-/

namespace LicenseHeaders

/-- Why settings could not be loaded. -/
inductive SettingsFailure where
  | unreadable (path : Path) (cause : Cause)
  /-- The file is no document, or a setting has the wrong kind of value. -/
  | malformed (path : Path)
  | invalid (setting : InvalidSetting)
  deriving DecidableEq, Repr

namespace SettingsFailure

def message : SettingsFailure → String
  | .unreadable path cause => s!"Failed to read config file '{path.display}': {cause.message}"
  | .malformed path => s!"Failed to parse config file '{path.display}'"
  | .invalid setting => setting.message

/-- What lies behind a failure, the nearest cause first. -/
def causes : SettingsFailure → List String
  | .unreadable _ cause => [cause.message]
  | .malformed _ | .invalid _ => []

end SettingsFailure

/-- The name of the settings file in the base directory. -/
def settingsFileName : Text := ".headersync.toml".toList

/-- The environment variable that names a settings file. -/
def settingsVariable : String := "HEADERSYNC_CONFIG"

/-- Where settings are looked for. -/
structure SettingsSource where
  explicit : Option Path := none
  base : Path := ⟨['.']⟩
  /-- The value of the environment variable. -/
  environment : Option Text := none
  /-- Whether no file is looked for at all. -/
  disabled : Bool := false
  deriving DecidableEq, Repr

/-- The settings file in the base directory, if it exists. -/
def findLocal (fs : FileSystem) (base : Path) : Option Path × List Event :=
  let file := base.join settingsFileName
  if fs.pathExists file then (some file, [.remark s!"Using config: {file.display}"])
  else (none, [.remark "No config file found"])

/-- The settings file that applies. -/
def findSettings (fs : FileSystem) (source : SettingsSource) : Option Path × List Event :=
  match source.explicit, source.environment with
  | some path, _ => (some path, [])
  | none, none => findLocal fs source.base
  | none, some named =>
    let path : Path := ⟨named⟩
    if fs.pathExists path then
      (some path, [.remark s!"Using config from {settingsVariable}: {path.display}"])
    else
      let (found, events) := findLocal fs source.base
      (found, .remark s!"{settingsVariable} path does not exist: {path.display}" :: events)

/-- The settings in a file. -/
def readSettings (fs : FileSystem) (path : Path) : Except SettingsFailure SelectionSettings :=
  match fs.readText path with
  | .error cause => .error (.unreadable path cause)
  | .ok t =>
    match SelectionSettings.ofDocument t with
    | none => .error (.malformed path)
    | some settings =>
      match settings.validate with
      | .error setting => .error (.invalid setting)
      | .ok () => .ok settings

/-- The settings that apply, or the file they could not be loaded from. -/
def loadSettings (fs : FileSystem) (source : SettingsSource) :
    Except (Path × SettingsFailure) SelectionSettings × List Event :=
  if source.disabled then (.ok {}, [.remark "Config file discovery disabled (--no-config)"])
  else
    match findSettings fs source with
    | (none, events) => (.ok {}, events)
    | (some path, events) =>
      let events := events ++ [.remark s!"Loading config from: {path.display}"]
      match readSettings fs path with
      | .ok settings => (.ok settings, events)
      | .error failure => (.error (path, failure), events)

/-- What was attempted when settings could not be loaded. -/
def loadingContext (path : Path) : String := s!"Failed to load config from {path.display}"

end LicenseHeaders

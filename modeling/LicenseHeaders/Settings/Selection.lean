import LicenseHeaders.Selection.Criteria
import LicenseHeaders.Toml.Document

/-!
# Selection settings

Which files are selected can be set in a document and on the command line.  A
document may hold a table `selection` with a text `pattern` and a list of texts
`exclude`; what it leaves out keeps its usual value, and other keys mean
nothing, though no number under them may be too large.  The table may also be
written as an array with the pattern first, whose surplus items nobody looks at.

Overrides replace what they name, and validation comes after: the pattern has
to be a pattern, and excluded entries have to be base names.  A rejected
override stays in place, so that a later one can repair it.
-/

namespace LicenseHeaders

/-- The selection settings as they were written. -/
structure SelectionSettings where
  pattern : Text := ({} : Criteria).pattern
  exclude : List Text := ({} : Criteria).excluded
  deriving DecidableEq, Repr

/-- Values that take precedence over the settings in place. -/
structure SelectionOverride where
  pattern : Option Text := none
  exclude : List Text := []
  deriving DecidableEq, Repr

/-- A setting that validation rejects. -/
structure InvalidSetting where
  value : Text
  reason : String
  deriving DecidableEq, Repr

def InvalidSetting.message (e : InvalidSetting) : String :=
  s!"Invalid selection setting '{String.ofList e.value}': {e.reason}"

namespace SelectionSettings

/-- Whether an excluded entry can be a base name. -/
def isBaseName (entry : Text) : Bool :=
  !entry.isEmpty && !entry.contains '/' && !entry.contains '\\'

/-- The first setting that is not valid, the pattern before the excluded
entries. -/
def validate (s : SelectionSettings) : Except InvalidSetting Unit :=
  match Pattern.read s.pattern with
  | .error fault => .error ⟨s.pattern, fault.message⟩
  | .ok _ =>
    match s.exclude.find? fun entry => !isBaseName entry with
    | some entry => .error ⟨entry, "excluded entries must be file base names"⟩
    | none => .ok ()

/-- The settings with what an override names replaced. -/
def overrideWith (s : SelectionSettings) (o : SelectionOverride) : SelectionSettings :=
  { pattern := o.pattern.getD s.pattern
    exclude := if o.exclude.isEmpty then s.exclude else o.exclude }

/-- The settings after an override, and whether they are valid. -/
def merge (s : SelectionSettings) (o : SelectionOverride) :
    SelectionSettings × Except InvalidSetting Unit :=
  let merged := s.overrideWith o
  (merged, merged.validate)

/-- The criteria that the settings describe. -/
def criteria (s : SelectionSettings) : Criteria := ⟨s.pattern, s.exclude⟩

/-- A text, if a value is one. -/
def text? : Toml.Value → Option Text
  | .text t => some t
  | _ => none

/-- A list of texts, if a value is one. -/
def texts? : Toml.Value → Option (List Text)
  | .array items => items.mapM text?
  | .tables items => items.mapM text?
  | _ => none

/-- A setting of a table, with its usual value when the key is missing. -/
def settingOr {α : Type} (usual : α) (read : Toml.Value → Option α) :
    Option Toml.Value → Option α
  | none => some usual
  | some value => read value

/-- Settings from a pattern and exclusions that may be missing. -/
def ofParts (pattern exclude : Option Toml.Value) : Option SelectionSettings := do
  let usual : SelectionSettings := {}
  let pattern ← settingOr usual.pattern text? pattern
  let exclude ← settingOr usual.exclude texts? exclude
  return ⟨pattern, exclude⟩

/-- Settings from the value of `selection`.  A point in time has no keys that
mean anything here, like an empty table. -/
def ofValue : Toml.Value → Option SelectionSettings
  | .table _ entries =>
    if Toml.othersAreModerate ["pattern".toList, "exclude".toList] entries then
      ofParts (Toml.find? "pattern".toList entries) (Toml.find? "exclude".toList entries)
    else none
  | .array items => ofParts items[0]? items[1]?
  | .tables items => ofParts items[0]? items[1]?
  | .scalar .dateTime => some {}
  | _ => none

/-- The settings in a document, or nothing when it is no document or a setting
has the wrong kind of value. -/
def ofDocument (t : Text) : Option SelectionSettings := do
  let entries ← Toml.document t
  guard (Toml.othersAreModerate ["selection".toList] entries)
  match Toml.find? "selection".toList entries with
  | none => return {}
  | some value => ofValue value

end SelectionSettings

end LicenseHeaders

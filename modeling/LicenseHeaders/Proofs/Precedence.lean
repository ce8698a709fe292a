import LicenseHeaders.CommandLine.Execution

/-!
# Which selection counts

The pattern and the exclusions of a command are, each for itself, what its
options say, else what its settings file says, else the usual ones.

* `pattern?`, `exclude?` — what a document says about the selection;
* `Options.selection` — the selection of a command;
* `criteria_merge` — it is what loading and merging come to.
-/

namespace LicenseHeaders

namespace SelectionSettings

/-! ## Documents -/

/-- What a value of `selection` has under a key, or at the place of that key when
it is an array. -/
def part? (key : String) (place : Nat) : Toml.Value → Option Toml.Value
  | .table _ entries => Toml.find? key.toList entries
  | .array items => items[place]?
  | .tables items => items[place]?
  | _ => none

/-- What a document says under a key of its selection. -/
def said? (t : Text) (key : String) (place : Nat) : Option Toml.Value := do
  let entries ← Toml.document t
  let value ← Toml.find? "selection".toList entries
  part? key place value

/-- The pattern that a document says, if it says one. -/
def pattern? (t : Text) : Option Text := (said? t "pattern" 0).bind text?

/-- The exclusions that a document says, if it says some. -/
def exclude? (t : Text) : Option (List Text) := (said? t "exclude" 1).bind texts?

/-- A setting that is missing is the usual one. -/
theorem settingOr_eq_some {α : Type} {usual a : α} {read : Toml.Value → Option α}
    {value : Option Toml.Value} (hsetting : settingOr usual read value = some a) :
    a = (value.bind read).getD usual := by
  cases value with
  | none => exact (Option.some.inj hsetting).symm
  | some value =>
      have hread : read value = some a := hsetting
      rw [Option.bind_some, hread]
      rfl

/-- Each part is what is said of it, or the usual one. -/
theorem ofParts_eq_some {pattern exclude : Option Toml.Value} {s : SelectionSettings}
    (hparts : ofParts pattern exclude = some s) :
    s.pattern = (pattern.bind text?).getD ({} : Criteria).pattern ∧
      s.exclude = (exclude.bind texts?).getD ({} : Criteria).excluded := by
  unfold ofParts at hparts
  obtain ⟨foundPattern, hpattern, hrest⟩ := Option.bind_eq_some_iff.mp hparts
  obtain ⟨foundExclude, hexclude, hs⟩ := Option.bind_eq_some_iff.mp hrest
  cases hs
  exact ⟨settingOr_eq_some hpattern, settingOr_eq_some hexclude⟩

/-- Both settings of a table are read, or usual where they are missing. -/
theorem ofValue_eq_some {value : Toml.Value} {s : SelectionSettings}
    (hvalue : ofValue value = some s) :
    s.pattern = ((part? "pattern" 0 value).bind text?).getD ({} : Criteria).pattern ∧
      s.exclude = ((part? "exclude" 1 value).bind texts?).getD ({} : Criteria).excluded := by
  cases value with
  | table form entries =>
      rw [ofValue] at hvalue
      split at hvalue
      · exact ofParts_eq_some hvalue
      · cases hvalue
  | array items => exact ofParts_eq_some hvalue
  | tables items => exact ofParts_eq_some hvalue
  | text other => cases hvalue
  | scalar kind =>
      cases kind with
      | dateTime =>
          cases hvalue
          exact ⟨rfl, rfl⟩
      | integer | float | boolean | excessive => cases hvalue

/-- **The settings in a document** are what it says, and the usual ones where it
says nothing. -/
theorem ofDocument_eq_some {t : Text} {s : SelectionSettings} (hdocument : ofDocument t = some s) :
    s.pattern = (pattern? t).getD ({} : Criteria).pattern ∧
      s.exclude = (exclude? t).getD ({} : Criteria).excluded := by
  unfold ofDocument at hdocument
  obtain ⟨entries, hentries, hrest⟩ := Option.bind_eq_some_iff.mp hdocument
  obtain ⟨_, _, hvalue⟩ := Option.bind_eq_some_iff.mp hrest
  simp only [pattern?, exclude?, said?, hentries, Option.bind_eq_bind, Option.bind_some]
  cases hfind : Toml.find? "selection".toList entries with
  | none =>
      simp only [hfind] at hvalue
      cases hvalue
      exact ⟨rfl, rfl⟩
  | some value =>
      simp only [hfind] at hvalue
      exact ofValue_eq_some hvalue

end SelectionSettings

/-! ## Settings files -/

/-- The text of the settings file that applies, if there is one. -/
def settingsText? (fs : FileSystem) (source : SettingsSource) : Option Text :=
  if source.disabled then none
  else (findSettings fs source).1.bind fun path => (fs.readText path).toOption

/-- Settings that have been read stand in a text that can be read. -/
theorem readSettings_eq_ok {fs : FileSystem} {path : Path} {s : SelectionSettings}
    (hread : readSettings fs path = .ok s) :
    ∃ t, fs.readText path = .ok t ∧ SelectionSettings.ofDocument t = some s := by
  unfold readSettings at hread
  split at hread
  · cases hread
  · next t ht =>
    split at hread
    · cases hread
    · next settings hdocument =>
      split at hread
      · cases hread
      · cases hread
        exact ⟨t, ht, hdocument⟩

/-- **The settings that apply** are what their file says, and the usual ones where
it says nothing or there is none. -/
theorem loadSettings_eq_ok {fs : FileSystem} {source : SettingsSource} {s : SelectionSettings}
    (hload : (loadSettings fs source).1 = .ok s) :
    s.pattern = ((settingsText? fs source).bind SelectionSettings.pattern?).getD
        ({} : Criteria).pattern ∧
      s.exclude = ((settingsText? fs source).bind SelectionSettings.exclude?).getD
        ({} : Criteria).excluded := by
  unfold loadSettings at hload
  unfold settingsText?
  split at hload
  · next hdisabled =>
    cases hload
    rw [if_pos hdisabled]
    exact ⟨rfl, rfl⟩
  · next henabled =>
    rw [if_neg henabled]
    split at hload
    · next hfind =>
      cases hload
      rw [hfind]
      exact ⟨rfl, rfl⟩
    · next path events hfind =>
      rw [hfind]
      dsimp only at hload
      split at hload
      · next settings hread =>
        cases hload
        obtain ⟨t, ht, hdocument⟩ := readSettings_eq_ok hread
        simp only [Option.bind_some, ht]
        exact SelectionSettings.ofDocument_eq_some hdocument
      · cases hload

namespace Options

variable {o : Options} {environment : Environment} {fs : FileSystem}

/-- The selection of a command: what its options say, else what its settings file
says, else the usual one. -/
def selection (o : Options) (environment : Environment) (fs : FileSystem) : Criteria :=
  let file := settingsText? fs (o.settingsSource environment fs.current.path)
  { pattern := o.pattern.getD ((file.bind SelectionSettings.pattern?).getD ({} : Criteria).pattern)
    excluded :=
      if o.exclude = [] then
        (file.bind SelectionSettings.exclude?).getD ({} : Criteria).excluded
      else o.exclude }

/-- **Merging comes to the selection of the command.** -/
theorem criteria_merge {settings : SelectionSettings}
    (hload : (LicenseHeaders.loadSettings fs
      (o.settingsSource environment fs.current.path)).1 = .ok settings) :
    (settings.merge { pattern := o.pattern, exclude := o.exclude }).1.criteria =
      o.selection environment fs := by
  obtain ⟨hpattern, hexclude⟩ := loadSettings_eq_ok hload
  simp only [SelectionSettings.merge, SelectionSettings.overrideWith, SelectionSettings.criteria,
    selection, hpattern, hexclude, List.isEmpty_iff]

end Options

end LicenseHeaders

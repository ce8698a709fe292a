import LicenseHeaders.Proofs.Coverage
import LicenseHeaders.Proofs.PatternForm
import LicenseHeaders.Proofs.Preparation
import LicenseHeaders.Settings.Loading

/-!
# Which settings are valid

Settings are valid if their pattern is well formed and each excluded entry is a single
piece of a path.  Validation names the first thing at fault, and settings that it has
accepted have filters, although these are built from the pattern anew.

* `SelectionSettings.Valid`, `SelectionSettings.Judged` — valid settings, and what
  validation answers to settings;
* `SelectionSettings.judged_iff` — it answers just that;
* `SelectionSettings.valid_of_readSettings` — settings from a file are valid;
* `SelectionSettings.exists_filters_iff` — which settings have filters.
-/

namespace LicenseHeaders.SelectionSettings

variable {s : SelectionSettings}

/-- An entry that can stand among the excluded ones: it is not empty and has no slashes
of either kind. -/
def Undivided (entry : Text) : Prop := entry ≠ [] ∧ '/' ∉ entry ∧ '\\' ∉ entry

/-- A base name has neither slash nor backslash and is not empty. -/
theorem isBaseName_iff {entry : Text} : isBaseName entry = true ↔ Undivided entry := by
  simp [isBaseName, Undivided, and_assoc]

/-- **Valid settings.** -/
structure Valid (s : SelectionSettings) : Prop where
  pattern : Pattern.WellFormed none s.pattern
  exclude : ∀ entry ∈ s.exclude, Undivided entry

/-- **What is to be answered to settings**: that they are valid, or what is at fault, the
pattern before the entries and an entry before those after it. -/
inductive Judged (s : SelectionSettings) : Except InvalidSetting Unit → Prop
  | valid (hvalid : s.Valid) : Judged s (.ok ())
  | pattern {fault : Pattern.Fault} (hform : ¬ Pattern.WellFormed none s.pattern)
      (hread : Pattern.read s.pattern = .error fault) :
      Judged s (.error ⟨s.pattern, fault.message⟩)
  | entry {entry : Text} (hform : Pattern.WellFormed none s.pattern)
      (hfirst : FirstFault Undivided s.exclude entry) :
      Judged s (.error ⟨entry, "excluded entries must be file base names"⟩)

/-- The first fault found is the first there is. -/
theorem find?_eq_some_iff {entries : List Text} {entry : Text} :
    entries.find? (fun entry => !isBaseName entry) = some entry ↔
      FirstFault Undivided entries entry := by
  simp only [List.find?_eq_some_iff_append, FirstFault, Bool.not_not, isBaseName_iff,
    Bool.not_eq_true', ← Bool.not_eq_true]
  exact ⟨fun ⟨hfault, before, rest, hentries, hbefore⟩ => ⟨before, rest, hentries, hbefore, hfault⟩,
    fun ⟨before, rest, hentries, hbefore, hfault⟩ => ⟨hfault, before, rest, hentries, hbefore⟩⟩

/-- No fault is found when all entries are right. -/
theorem find?_eq_none_iff {entries : List Text} :
    entries.find? (fun entry => !isBaseName entry) = none ↔ ∀ entry ∈ entries, Undivided entry := by
  simp [List.find?_eq_none, isBaseName_iff]

/-- **Validation answers what is to be answered.** -/
theorem judged_iff {answer : Except InvalidSetting Unit} :
    s.validate = answer ↔ s.Judged answer := by
  have hform := Pattern.exists_read_iff (t := s.pattern)
  constructor
  · rintro rfl
    unfold validate
    split
    · next fault hread =>
      refine .pattern (fun hwell => ?_) hread
      obtain ⟨pattern, hok⟩ := hform.mpr hwell
      rw [hread] at hok
      cases hok
    · next pattern hread =>
      split
      · next entry hfind => exact .entry (hform.mp ⟨pattern, hread⟩) (find?_eq_some_iff.mp hfind)
      · next hfind => exact .valid ⟨hform.mp ⟨pattern, hread⟩, find?_eq_none_iff.mp hfind⟩
  · intro hjudged
    unfold validate
    cases hjudged with
    | valid hvalid =>
        obtain ⟨pattern, hread⟩ := hform.mpr hvalid.pattern
        rw [hread, find?_eq_none_iff.mpr hvalid.exclude]
    | pattern _ hread => rw [hread]
    | entry hpattern hfirst =>
        obtain ⟨pattern, hread⟩ := hform.mpr hpattern
        rw [hread, find?_eq_some_iff.mpr hfirst]

/-- What is valid is accepted, and nothing else is. -/
theorem validate_eq_ok_iff : s.validate = .ok () ↔ s.Valid := by
  rw [judged_iff]
  exact ⟨fun hjudged => by cases hjudged; assumption, .valid⟩

/-- **What is read from a file** is valid. -/
theorem valid_of_readSettings {fs : FileSystem} {path : Path}
    (hread : readSettings fs path = .ok s) : s.Valid := by
  unfold readSettings at hread
  split at hread
  · cases hread
  · split at hread
    · cases hread
    · split at hread
      · cases hread
      · next hvalidate =>
        cases hread
        exact validate_eq_ok_iff.mp hvalidate

/-- **Settings have filters** exactly if their pattern is well formed. -/
theorem exists_filters_iff :
    (∃ filters, s.criteria.filters = .ok filters) ↔ Pattern.WellFormed none s.pattern := by
  rw [← Pattern.exists_read_iff]
  constructor
  · rintro ⟨filters, hfilters⟩
    obtain ⟨pattern, hread, _⟩ := Walk.pattern_of_filters hfilters
    exact ⟨pattern, hread⟩
  · rintro ⟨pattern, hread⟩
    exact ⟨_, Walk.filters_of_pattern hread⟩

end LicenseHeaders.SelectionSettings

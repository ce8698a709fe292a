import LicenseHeaders.Proofs.Pieces
import LicenseHeaders.Proofs.Validation

/-!
# Which exclusions work

Validation looks at the letters of an excluded entry, the filters compare it with the base
name of a path.  An entry that passes validation is a single piece of a path, but it need
not be a name: behind a directory, `.` means the directory itself and `..` means no name at
all.  So among the accepted entries these two do not exclude the paths that end with them;
all others do.

* `SelectionSettings.Accepted` — settings that a file or an override has led to;
* `firstRejection?_eq_excluded_iff` — exclusion depends on base names alone;
* `SelectionSettings.excluded_join_iff` — an accepted entry behind a directory;
* `SelectionSettings.exclusion_works_iff` — which accepted entries work where.
-/

namespace LicenseHeaders

/-! ## Excluded names -/

/-- The wording tells an exclusion from a mismatch. -/
theorem Rejection.message_eq_iff {rejection : Rejection} :
    rejection.message = "excluded name" ↔ rejection = .excluded := by
  constructor
  · intro hmessage
    cases rejection with
    | excluded => rfl
    | mismatch pattern =>
        have hwording :
            (mismatch pattern).message = "does not match " ++ String.ofList pattern := rfl
        have hletters := congrArg String.toList (hwording.symm.trans hmessage)
        simp at hletters
  · rintro rfl
    rfl

/-- **A path is excluded** exactly if its base name is, whatever the pattern. -/
theorem firstRejection?_eq_excluded_iff {criteria : Criteria} {filters : List NameFilter}
    (hfilters : criteria.filters = .ok filters) (path : Path) :
    (firstRejection? filters path).map Rejection.message = some "excluded name" ↔
      path.baseName ∈ criteria.excluded := by
  obtain ⟨pattern, -, rfl⟩ := Walk.pattern_of_filters hfilters
  simp only [Option.map_eq_some_iff, Rejection.message_eq_iff, exists_eq_right]
  by_cases hexcluded : path.baseName ∈ criteria.excluded
  · simp [firstRejection?, NameFilter.rejection?, Walk.mem_sortedNames, hexcluded]
  · by_cases haccepts : pattern.accepts path.baseName = true <;>
      simp [firstRejection?, NameFilter.rejection?, Walk.mem_sortedNames, hexcluded, haccepts]

/-! ## Accepted settings -/

namespace SelectionSettings

variable {s : SelectionSettings}

/-- **Accepted settings**: those of a file that could be loaded and those after an override
that was not rejected. -/
inductive Accepted (s : SelectionSettings) : Prop
  | loaded {fs : FileSystem} {path : Path} (hread : readSettings fs path = .ok s)
  | merged {before : SelectionSettings} {o : SelectionOverride}
      (hmerge : before.merge o = (s, .ok ()))

/-- Settings that are accepted are valid. -/
theorem Accepted.valid (haccepted : s.Accepted) : s.Valid := by
  cases haccepted with
  | loaded hread => exact valid_of_readSettings hread
  | @merged before o hmerge =>
      obtain ⟨hmerged, hvalidate⟩ := Prod.mk.inj hmerge
      rw [← hmerged]
      exact validate_eq_ok_iff.mp hvalidate

/-- **The base name behind a directory** is an excluded one unless the entry leads up, or
means the directory and this is not excluded itself. -/
theorem excluded_join_iff (hvalid : s.Valid) {entry : Text} (hentry : entry ∈ s.exclude)
    (directory : Path) :
    (directory.join entry).baseName ∈ s.exclude ↔
      entry ≠ ['.', '.'] ∧ (entry = ['.'] → directory.baseName ∈ s.exclude) := by
  obtain ⟨hne, hslash, -⟩ := hvalid.exclude entry hentry
  -- No entry is empty, so a path without a base name is never excluded.
  have hnameless : [] ∉ s.exclude := fun h => (hvalid.exclude [] h).1 rfl
  rw [Path.baseName_join_eq directory hslash]
  by_cases hhere : entry = ['.']
  · subst hhere
    simp [Path.isIdle]
  have hactive : Path.isIdle entry = false := by simp [Path.isIdle, hne, hhere]
  rw [hactive, if_neg Bool.false_ne_true]
  by_cases hup : entry = ['.', '.']
  · simp [hup, hnameless]
  · simp [hup, hhere, hentry]

/-- **Which exclusions work.**  Accepted settings have filters.  An accepted entry excludes
the path that leads to it from a directory, unless the entry is `..`, or it is `.` and the
directory is not itself excluded by its base name. -/
theorem exclusion_works_iff (haccepted : s.Accepted) :
    ∃ filters, s.criteria.filters = .ok filters ∧
      ∀ entry ∈ s.exclude, ∀ directory : Path,
        (firstRejection? filters (directory.join entry)).map Rejection.message =
            some "excluded name" ↔
          entry ≠ ['.', '.'] ∧ (entry = ['.'] → directory.baseName ∈ s.exclude) := by
  have hvalid := haccepted.valid
  obtain ⟨filters, hfilters⟩ := exists_filters_iff.mpr hvalid.pattern
  exact ⟨filters, hfilters, fun entry hentry directory =>
    (firstRejection?_eq_excluded_iff hfilters _).trans (excluded_join_iff hvalid hentry directory)⟩

/-- A dot is accepted, but excludes nothing right below `d`. -/
theorem exclusion_works_iff_sample :
    let s : SelectionSettings := ⟨['*'], ["conftest.py".toList, ['.']]⟩
    s.Accepted ∧ ∃ filters, s.criteria.filters = .ok filters ∧
      (firstRejection? filters (Path.join ⟨['d']⟩ "conftest.py".toList)).map Rejection.message =
        some "excluded name" ∧
      (firstRejection? filters (Path.join ⟨"d/conftest.py".toList⟩ ['.'])).map Rejection.message =
        some "excluded name" ∧
      (firstRejection? filters (Path.join ⟨['d']⟩ ['.'])).map Rejection.message ≠
        some "excluded name" := by
  intro s
  have hmerge : SelectionSettings.merge {} ⟨some ['*'], s.exclude⟩ = (s, .ok ()) := rfl
  obtain ⟨filters, hfilters, hworks⟩ := exclusion_works_iff (.merged hmerge)
  refine ⟨.merged hmerge, filters, hfilters, ?_, ?_, fun h => ?_⟩
  · exact (hworks _ (by decide) _).mpr (by decide)
  · exact (hworks _ (by decide) _).mpr (by decide)
  · exact absurd ((hworks _ (by decide) _).mp h) (by decide)

/-- **Not all accepted exclusions work**: nothing is excluded by `..`, which passes for a base
name in validation. -/
theorem exclusion_without_effect :
    ¬ ∀ s : SelectionSettings, s.Accepted → ∃ filters, s.criteria.filters = .ok filters ∧
      ∀ entry ∈ s.exclude, ∀ directory : Path,
        (firstRejection? filters (directory.join entry)).map Rejection.message =
          some "excluded name" := by
  intro hall
  have hmerge : SelectionSettings.merge {} ⟨some ['*'], [['.', '.']]⟩ =
      (⟨['*'], [['.', '.']]⟩, .ok ()) := rfl
  obtain ⟨filters, hfilters, hworks⟩ := hall _ (.merged hmerge)
  have hexcluded := hworks ['.', '.'] (by decide) ⟨['d']⟩
  rw [firstRejection?_eq_excluded_iff hfilters] at hexcluded
  exact absurd hexcluded (by decide)

end SelectionSettings

end LicenseHeaders

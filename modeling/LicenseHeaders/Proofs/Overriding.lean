import LicenseHeaders.Proofs.Validation

/-!
# Overrides in turn

Settings can be overridden more than once, and a rejected override stays in place.  So
the settings after some overrides hold the last value that was named for each part,
rejected or not, and the answer to an override is about these settings as a whole: it may
blame an earlier override, and a later one can repair what an earlier one has spoiled.

* `mergeAll` — overrides in turn, with the answers to them;
* `pattern_mergeAll`, `exclude_mergeAll` — the last value wins;
* `answer_mergeAll` — each answer is about the settings that its override leads to;
* `overrides_in_turn` — a sequence of overrides as a whole.
-/

namespace LicenseHeaders.SelectionSettings

/-- The settings after overrides in turn, and the answers to them. -/
def mergeAll (s : SelectionSettings) :
    List SelectionOverride → SelectionSettings × List (Except InvalidSetting Unit)
  | [] => (s, [])
  | o :: rest =>
    let (merged, answer) := s.merge o
    let (final, answers) := merged.mergeAll rest
    (final, answer :: answers)

variable {s : SelectionSettings} {o : SelectionOverride} {before after : List SelectionOverride}

/-! ## One override after the other -/

/-- The first override is validated as merged, and the others follow from there. -/
theorem mergeAll_cons (s : SelectionSettings) (o : SelectionOverride)
    (rest : List SelectionOverride) :
    s.mergeAll (o :: rest) = (((s.overrideWith o).mergeAll rest).1,
      (s.overrideWith o).validate :: ((s.overrideWith o).mergeAll rest).2) := rfl

/-- Overrides can be made in two rounds. -/
theorem mergeAll_append (s : SelectionSettings) (before after : List SelectionOverride) :
    s.mergeAll (before ++ after) = (((s.mergeAll before).1.mergeAll after).1,
      (s.mergeAll before).2 ++ ((s.mergeAll before).1.mergeAll after).2) := by
  induction before generalizing s with
  | nil => rfl
  | cons o rest ih => rw [List.cons_append, mergeAll_cons, ih, mergeAll_cons, List.cons_append]

/-- Every override is answered. -/
theorem length_mergeAll (s : SelectionSettings) (os : List SelectionOverride) :
    (s.mergeAll os).2.length = os.length := by
  induction os generalizing s with
  | nil => rfl
  | cons o rest ih => rw [mergeAll_cons, List.length_cons, ih, List.length_cons]

/-! ## The last value wins -/

/-- What an override can only replace is in the end what was named last. -/
theorem mergeAll_last {α : Type} {held : SelectionSettings → α}
    {named : SelectionOverride → Option α}
    (hstep : ∀ s o, held (s.overrideWith o) = (named o).getD (held s)) (s : SelectionSettings)
    (os : List SelectionOverride) :
    held (s.mergeAll os).1 = (os.filterMap named).getLast?.getD (held s) := by
  induction os generalizing s with
  | nil => rfl
  | cons o rest ih =>
      rw [mergeAll_cons, ih, hstep]
      cases hnamed : named o with
      | none => rw [List.filterMap_cons_none hnamed, Option.getD_none]
      | some value =>
          rw [List.filterMap_cons_some hnamed, List.getLast?_cons, Option.getD_some,
            Option.getD_some]

/-- **The last pattern wins.** -/
theorem pattern_mergeAll (s : SelectionSettings) (os : List SelectionOverride) :
    (s.mergeAll os).1.pattern = (os.filterMap (·.pattern)).getLast?.getD s.pattern :=
  mergeAll_last (fun _ _ => rfl) s os

/-- **The last exclusions win**, where there are some. -/
theorem exclude_mergeAll (s : SelectionSettings) (os : List SelectionOverride) :
    (s.mergeAll os).1.exclude = ((os.map (·.exclude)).filter (· ≠ [])).getLast?.getD s.exclude := by
  have hnamed : os.filterMap (fun o => Option.guard (fun names => decide (names ≠ [])) o.exclude) =
      (os.map (·.exclude)).filter (· ≠ []) := by
    rw [← List.filterMap_eq_filter, List.filterMap_map]
    rfl
  rw [← hnamed]
  refine mergeAll_last (fun s o => ?_) s os
  by_cases hnone : o.exclude = []
  · simp [overrideWith, Option.guard, hnone]
  · simp [overrideWith, Option.guard, hnone]

/-! ## The answers -/

/-- **Each answer** is about the settings that its override leads to. -/
theorem answer_mergeAll {os : List SelectionOverride} {k : Nat} (hk : k < os.length) :
    (s.mergeAll os).2[k]? = some (s.mergeAll (os.take (k + 1))).1.validate := by
  induction os generalizing s k with
  | nil => cases hk
  | cons o rest ih =>
      rw [mergeAll_cons, List.take_succ_cons, mergeAll_cons]
      cases k with
      | zero => rfl
      | succ k => exact ih (Nat.lt_of_succ_lt_succ hk)

/-- **Each answer is about all overrides up to its own.** -/
theorem getElem?_mergeAll_eq_some_iff {os : List SelectionOverride} {k : Nat}
    {answer : Except InvalidSetting Unit} :
    (s.mergeAll os).2[k]? = some answer ↔
      k < os.length ∧ (s.mergeAll (os.take (k + 1))).1.Judged answer := by
  by_cases hk : k < os.length
  · rw [answer_mergeAll hk, Option.some_inj, judged_iff]
    exact (and_iff_right hk).symm
  · rw [List.getElem?_eq_none (by rw [length_mergeAll]; omega)]
    simp [hk]

/-- The last answer is about the settings in the end. -/
theorem getLast?_mergeAll {os : List SelectionOverride} (hos : os ≠ []) :
    (s.mergeAll os).2.getLast? = some (s.mergeAll os).1.validate := by
  have hpos := List.length_pos_iff.mpr hos
  rw [List.getLast?_eq_getElem?, length_mergeAll, answer_mergeAll (by omega),
    Nat.sub_add_cancel hpos, List.take_length]

/-- **A rejected override can be repaired**: one that names all of a valid selection leads
there from anywhere. -/
theorem mergeAll_repaired {t : SelectionSettings} (hvalid : t.Valid) (hsome : t.exclude ≠ [])
    (s : SelectionSettings) (os : List SelectionOverride) :
    s.mergeAll (os ++ [⟨some t.pattern, t.exclude⟩]) = (t, (s.mergeAll os).2 ++ [.ok ()]) := by
  have hreached : (s.mergeAll os).1.overrideWith ⟨some t.pattern, t.exclude⟩ = t := by
    simp [overrideWith, hsome]
  rw [mergeAll_append, mergeAll_cons, hreached, validate_eq_ok_iff.mpr hvalid]
  rfl

/-! ## Whole sequences -/

/-- Settings before any override: the usual ones, or those of a file. -/
def Initial (s : SelectionSettings) : Prop := s = {} ∨ ∃ fs path, readSettings fs path = .ok s

/-- The settings one starts from are valid. -/
theorem Initial.valid (hinitial : s.Initial) : s.Valid := by
  rcases hinitial with rfl | ⟨fs, path, hread⟩
  · exact validate_eq_ok_iff.mp rfl
  · exact valid_of_readSettings hread

/-- **Overrides in turn.**  From the usual settings or those of a file, after overrides some
of which may be rejected, the pattern is the last one that was named and the exclusions are
the last that were named, else the initial ones.  There is one answer for each override, and
it is what is to be answered to the settings that its override leads to.  Any valid selection
with exclusions is reached by one more override.  And unless the last override was rejected
the settings have filters. -/
theorem overrides_in_turn (hinitial : s.Initial) (os : List SelectionOverride) :
    (s.mergeAll os).1.pattern = (os.filterMap (·.pattern)).getLast?.getD s.pattern ∧
      (s.mergeAll os).1.exclude =
        ((os.map (·.exclude)).filter (· ≠ [])).getLast?.getD s.exclude ∧
      (∀ k answer, (s.mergeAll os).2[k]? = some answer ↔
        k < os.length ∧ (s.mergeAll (os.take (k + 1))).1.Judged answer) ∧
      (∀ t : SelectionSettings, t.Valid → t.exclude ≠ [] →
        s.mergeAll (os ++ [⟨some t.pattern, t.exclude⟩]) = (t, (s.mergeAll os).2 ++ [.ok ()])) ∧
      ((∀ fault, (s.mergeAll os).2.getLast? ≠ some (.error fault)) →
        ∃ filters, (s.mergeAll os).1.criteria.filters = .ok filters) := by
  refine ⟨pattern_mergeAll s os, exclude_mergeAll s os, fun _ _ => getElem?_mergeAll_eq_some_iff,
    fun t hvalid hsome => mergeAll_repaired hvalid hsome s os, fun haccepted => ?_⟩
  refine exists_filters_iff.mpr (Valid.pattern ?_)
  by_cases hos : os = []
  · subst hos
    exact hinitial.valid
  · rw [getLast?_mergeAll hos] at haccepted
    cases hanswer : (s.mergeAll os).1.validate with
    | ok _ => exact validate_eq_ok_iff.mp hanswer
    | error fault => exact absurd (congrArg some hanswer) (haccepted fault)

/-- The first override spoils the pattern and the second the exclusions.  The second is still
answered for the pattern, the third has repaired this, and the fourth repairs the rest. -/
theorem overrides_in_turn_sample :
    let os : List SelectionOverride :=
      [⟨some ['['], []⟩, ⟨none, ["a/b".toList]⟩, ⟨some "*.rs".toList, []⟩,
        ⟨none, ["mod.rs".toList]⟩]
    Initial {} ∧ mergeAll {} os = (⟨"*.rs".toList, ["mod.rs".toList]⟩,
        [.error ⟨['['], "Pattern syntax error near position 0: invalid range pattern"⟩,
          .error ⟨['['], "Pattern syntax error near position 0: invalid range pattern"⟩,
          .error ⟨"a/b".toList, "excluded entries must be file base names"⟩, .ok ()]) ∧
      ∃ filters, (mergeAll {} os).1.criteria.filters = .ok filters := by
  intro os
  have hinitial : Initial {} := .inl rfl
  have hanswers : mergeAll {} os = (⟨"*.rs".toList, ["mod.rs".toList]⟩,
      [.error ⟨['['], "Pattern syntax error near position 0: invalid range pattern"⟩,
        .error ⟨['['], "Pattern syntax error near position 0: invalid range pattern"⟩,
        .error ⟨"a/b".toList, "excluded entries must be file base names"⟩, .ok ()]) := by
    decide
  refine ⟨hinitial, hanswers, (overrides_in_turn hinitial os).2.2.2.2 fun fault hfault => ?_⟩
  rw [hanswers] at hfault
  cases hfault

end LicenseHeaders.SelectionSettings

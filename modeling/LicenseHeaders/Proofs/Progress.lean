import LicenseHeaders.Proofs.Outcome
import Mathlib.Data.List.Pairwise

/-!
# Items that have been handled

When some items have been handled, each file among them has what becomes of it,
and nothing else has happened.  This says nothing of the run that has handled
them: it can have come to its end, or it can have been stopped on the way.

* `Handled.readText_of_outcome` — the content of a handled file is what the
  operation makes of its content before;
* `Handled.unaware_of_newContent?` — a file without a new content is what it was.
-/

namespace LicenseHeaders.Plan

variable {plan : Plan} {operation : Operation} {before after : FileSystem}
  {items : List (Except Failure Path)}

instance : Std.Symm (Walk.Apart before) where
  symm _ _ hapart p q hp hq hsame := hapart q p hq hp hsame.symm

/-- **Items have been handled**, no two of which are the same file: they have
given files their contents, and nothing else has happened. -/
structure Handled (plan : Plan) (operation : Operation) (before : FileSystem)
    (items : List (Except Failure Path)) (after : FileSystem) : Prop where
  apart : items.Pairwise (Walk.Apart before)
  fs : after = before.rewrite (plan.newContents operation before items)

/-- The locations of new contents are distinct. -/
theorem nodup_newContents (hapart : items.Pairwise (Walk.Apart before)) :
    ((plan.newContents operation before items).map (·.1)).Nodup := by
  rw [List.Nodup, List.pairwise_map, newContents, List.pairwise_filterMap]
  refine hapart.imp fun {a b} hapart row hrow row' hrow' => ?_
  cases a with
  | error failure => cases hrow
  | ok p =>
      cases b with
      | error failure => cases hrow'
      | ok q =>
          obtain ⟨_, _, hp, _⟩ := newContent?_eq_some hrow
          obtain ⟨_, _, hq, _⟩ := newContent?_eq_some hrow'
          intro hsame
          exact hapart.canonical?_ne hp (hsame ▸ hq)

namespace Handled

variable (hhandled : plan.Handled operation before items after)

include hhandled

/-- Handling items changes nothing that a walk can see. -/
theorem outline : after.outline = before.outline := by
  rw [hhandled.fs, outline_newContents]

/-- A file that has been given a new content holds it. -/
theorem find?_of_newContent? {item : Except Failure Path} {l : Location} {t : Text}
    (hitem : item ∈ items) (hnew : plan.newContent? operation before item = some (l, t)) :
    after.find? l = some (.file (.text t)) := by
  obtain ⟨old, hold⟩ := file_of_newContent? hnew
  rw [hhandled.fs]
  exact FileSystem.find?_rewrite_of_mem (FileSystem.ne_nil_of_file hold)
    (nodup_newContents hhandled.apart) (List.mem_filterMap.mpr ⟨item, hitem, hnew⟩)

/-- A file without a new content is what it was. -/
theorem unaware_of_newContent? {item : Except Failure Path} (hitem : item ∈ items)
    (hnone : plan.newContent? operation before item = none) : Unaware before after item := by
  rw [hhandled.fs]
  refine unaware_of_apart fun other hother hnew => ?_
  have hne : item ≠ other := by
    rintro rfl
    exact hnew hnone
  exact hhandled.apart.forall hitem hother hne

/-- **The content of a handled file** is what the operation makes of its content
before. -/
theorem readText_of_outcome {path : Path} {change : Option Change} (hitem : .ok path ∈ items)
    (houtcome : plan.outcome operation before path = .ok change) :
    ∃ content, before.readText path = .ok content ∧
      plan.transform operation content = .ok change ∧
      after.readText path = .ok (textAfter content change) := by
  cases change with
  | none =>
      have hnone : plan.newContent? operation before (.ok path) = none := by
        simp only [newContent?, houtcome]
      have hsame := FileSystem.readText_congr hhandled.outline
        (hhandled.unaware_of_newContent? hitem hnone path rfl)
      unfold outcome at houtcome
      split at houtcome
      · cases houtcome
      · next content hread =>
        refine ⟨content, hread, ?_, hsame.trans hread⟩
        split at houtcome
        · cases houtcome
        · next htransform => exact htransform
        · split at houtcome <;> cases houtcome
  | some change =>
      obtain ⟨l, content, hlookup, hgrants, htransform, _⟩ := outcome_eq_some houtcome
      have hlocation := FileSystem.canonical?_of_lookup hlookup
      have hnew : plan.newContent? operation before (.ok path) = some (l, change.text) := by
        simp only [newContent?, houtcome, hlocation, Option.map_some]
      have hfind := hhandled.find?_of_newContent? hitem hnew
      have hlocate := (FileSystem.lookup_eq_ok_iff.mp hlookup).1
      refine ⟨content, FileSystem.readText_eq_ok_iff.mpr ⟨l, hlookup, hgrants⟩, htransform,
        FileSystem.readText_eq_ok_iff.mpr ⟨l, ?_, ?_⟩⟩
      · refine FileSystem.lookup_eq_ok_iff.mpr ⟨?_, hfind⟩
        rw [FileSystem.locate_of_outline_eq hhandled.outline, hlocate]
      · rw [FileSystem.grants_of_outline_eq hhandled.outline, hgrants]

end Handled

end LicenseHeaders.Plan

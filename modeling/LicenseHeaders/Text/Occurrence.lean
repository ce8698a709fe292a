import LicenseHeaders.Text.Basic

/-!
# Occurrences of one text in another

A header is present in a file when its text occurs there character by
character, and it is removed by deleting such occurrences.  Deletion goes
through the text once from the left; occurrences that overlap an earlier,
already deleted one are left for a later pass.

* `occursIn_iff` — the search finds exactly the infixes;
* `deleteAll_eq_self` — deleting a text that does not occur changes nothing.
-/

namespace LicenseHeaders.Text

/-- Whether `part` occurs in the text as it stands. -/
def occursIn (part : Text) : Text → Bool
  | [] => part.isEmpty
  | c :: rest => part.isPrefixOf (c :: rest) || occursIn part rest

/-- Deletes the occurrences of `part` from left to right, without overlaps.
`skip` characters of the occurrence being deleted are still ahead. -/
def deleteFrom (part : Text) : Nat → Text → Text
  | _, [] => []
  | 0, c :: rest =>
    if part.isPrefixOf (c :: rest) then deleteFrom part (part.length - 1) rest
    else c :: deleteFrom part 0 rest
  | skip + 1, _ :: rest => deleteFrom part skip rest

/-- The text without the occurrences of `part` met from left to right. -/
def deleteAll (part t : Text) : Text :=
  deleteFrom part 0 t

theorem occursIn_iff {part t : Text} : occursIn part t = true ↔ part <:+: t := by
  induction t with
  | nil => simp [occursIn]
  | cons c rest ih =>
    simp [occursIn, ih, List.infix_cons_iff]

theorem deleteAll_eq_self {part t : Text} (h : occursIn part t = false) :
    deleteAll part t = t := by
  unfold deleteAll
  induction t with
  | nil => rfl
  | cons c rest ih =>
    simp only [occursIn, Bool.or_eq_false_iff] at h
    simp [deleteFrom, h.1, ih h.2]

end LicenseHeaders.Text

import LicenseHeaders.Text.Occurrence

/-!
# Removing headers from a text

A pass goes through the headers in order and deletes all occurrences of each.
Deleting one header can bring together another, so passes repeat until one
finds nothing.  Empty headers are skipped.  A pass that finds something makes
the text shorter, so there are at most as many passes as the text has
characters, and one more.

* `Deletion` — one occurrence of one header is cut out;
* `Reaches` — any number of such cuts;
* `strip` — the text left in the end, or nothing when no header was found.
-/

namespace LicenseHeaders

/-- Cutting one occurrence of one non-empty header out of a text. -/
inductive Deletion (headers : List Text) : Text → Text → Prop where
  | cut (u h v : Text) (listed : h ∈ headers) (nonempty : h ≠ []) :
      Deletion headers (u ++ h ++ v) (u ++ v)

/-- Cutting headers out of a text any number of times. -/
inductive Reaches (headers : List Text) : Text → Text → Prop where
  | refl (t : Text) : Reaches headers t t
  | step {s t u : Text} : Deletion headers s t → Reaches headers t u → Reaches headers s u

/-- No non-empty header occurs in the text. -/
def HeaderFree (headers : List Text) (t : Text) : Prop :=
  ∀ h ∈ headers, h ≠ [] → ¬ h <:+: t

/-- Deletes the headers in order, and tells whether one was found. -/
def stripPass : List Text → Text → Text × Bool
  | [], t => (t, false)
  | h :: rest, t =>
    if h ≠ [] ∧ Text.occursIn h t then ((stripPass rest (Text.deleteAll h t)).1, true)
    else stripPass rest t

/-- Repeats passes until one finds nothing.  The answer is the text that is
left and whether an earlier pass found something. -/
def stripPasses (headers : List Text) : Nat → Bool → Text → Text × Bool
  | 0, found, t => (t, found)
  | passes + 1, found, t =>
    match stripPass headers t with
    | (t', true) => stripPasses headers passes true t'
    | (t', false) => (t', found)

/-- The text without any header, or nothing when no header occurs in it. -/
def strip (headers : List Text) (t : Text) : Option Text :=
  match stripPasses headers (t.length + 1) false t with
  | (stripped, true) => some stripped
  | (_, false) => none

end LicenseHeaders

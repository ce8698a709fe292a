import LicenseHeaders.Text.Basic

/-!
# Sets of characters in runs

Most classes of characters consist of a few hundred runs of neighbours.  Such a
class is given by its borders in ascending order: the first character of each
run and the first one after it.

* `Runs.contains` — whether a character is in a class: an odd number of borders
  lies at or below it.
-/

namespace LicenseHeaders.Text

/-- A set of characters, by the borders of its runs. -/
structure Runs where
  borders : List Nat
  deriving Repr

/-- Whether a character is in the set. -/
def Runs.contains (r : Runs) (c : Char) : Bool :=
  (r.borders.takeWhile fun border => decide (border ≤ c.toNat)).length % 2 = 1

end LicenseHeaders.Text

import LicenseHeaders.Files.Path
import LicenseHeaders.Selection.Pattern

/-!
# Which names are selected

Selection looks at base names only.  A criterion is a pattern that the name
has to match and a set of names that are never selected; the exclusion is
asked first, so an excluded name is reported as such whatever the pattern.
-/

namespace LicenseHeaders

/-- Why a path is not selected. -/
inductive Rejection where
  | mismatch (pattern : Text)
  | excluded
  deriving DecidableEq, Repr

def Rejection.message : Rejection → String
  | .mismatch pattern => s!"does not match {String.ofList pattern}"
  | .excluded => "excluded name"

/-- A test on base names. -/
inductive NameFilter where
  | pattern (p : Pattern)
  | excluded (names : List Name)

/-- The reason to reject a path, if there is one. -/
def NameFilter.rejection? (path : Path) : NameFilter → Option Rejection
  | .pattern p => if p.accepts path.baseName then none else some (.mismatch p.text)
  | .excluded names => if path.baseName ∈ names then some .excluded else none

/-- The first reason among several filters to reject a path. -/
def firstRejection? (filters : List NameFilter) (path : Path) : Option Rejection :=
  filters.findSome? (·.rejection? path)

/-- Names in their order, each once. -/
def sortedNames (names : List Name) : List Name :=
  (names.mergeSort Text.notAfter).eraseDups

/-- Which names are selected. -/
structure Criteria where
  pattern : Text := ['*', '.', 'p', 'y']
  excluded : List Name := ["__init__.py".toList]
  deriving DecidableEq, Repr

/-- The filters of a criterion, in the order in which they are asked. -/
def Criteria.filters (c : Criteria) : Except Pattern.Fault (List NameFilter) := do
  let pattern ← Pattern.read c.pattern
  return [.excluded (sortedNames c.excluded), .pattern pattern]

end LicenseHeaders

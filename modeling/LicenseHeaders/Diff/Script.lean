/-!
# Edit scripts

An edit script describes how one list of lines becomes another: a sequence of
pieces that are kept, deleted or inserted.  Reading the kept and deleted lines
gives the old list, reading the kept and inserted lines the new one; a script
fits two lists when these readings are the lists.

* `Script.Fits` — the relation between a script and the two lists;
* `old_append`, `new_append` — both readings go through scripts from left to
  right.
-/

namespace LicenseHeaders.Diff

/-- A stretch of lines with one fate. -/
inductive Piece (α : Type) where
  | kept (lines : List α)
  | deleted (lines : List α)
  | inserted (lines : List α)
  deriving DecidableEq, Repr

/-- Pieces in the order of the lines. -/
abbrev Script (α : Type) := List (Piece α)

variable {α : Type}

namespace Piece

def lines : Piece α → List α
  | .kept ls | .deleted ls | .inserted ls => ls

/-- The lines of a piece that belong to the old list. -/
def old : Piece α → List α
  | .kept ls | .deleted ls => ls
  | .inserted _ => []

/-- The lines of a piece that belong to the new list. -/
def new : Piece α → List α
  | .kept ls | .inserted ls => ls
  | .deleted _ => []

end Piece

namespace Script

def old (s : Script α) : List α := s.flatMap Piece.old

def new (s : Script α) : List α := s.flatMap Piece.new

/-- The script turns the one list into the other. -/
def Fits (s : Script α) (before after : List α) : Prop :=
  s.old = before ∧ s.new = after

theorem old_append (s t : Script α) : Script.old (s ++ t) = s.old ++ t.old := by
  simp [Script.old]

theorem new_append (s t : Script α) : Script.new (s ++ t) = s.new ++ t.new := by
  simp [Script.new]

end Script

end LicenseHeaders.Diff

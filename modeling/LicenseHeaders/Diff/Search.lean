import LicenseHeaders.Diff.Script

/-!
# Searching for a short script

The search divides and conquers.  Common lines at both ends are kept.  If one
side is then empty, the other is deleted or inserted as a whole.  Otherwise
both lists are split at a point of a shortest way through the grid of the two
lists, and the halves are treated alike.

The point is found by walking from both corners at once.  After `d` edits the
farthest position on each diagonal `k` (position in the old list less position
in the new one) is known; the two walks meet where their positions on a
diagonal overlap.  Diagonals are visited from `d` down to `-d`, and on equal
progress the step from the lower diagonal is taken.

Where to split decides only which script is found: any split gives a script
that fits, so the search may give up and replace one side by the other.
-/

namespace LicenseHeaders.Diff

variable {α : Type} [DecidableEq α]

/-- The number of equal lines at the beginning of two lists. -/
def commonLength : List α → List α → Nat
  | a :: as, b :: bs => if a = b then commonLength as bs + 1 else 0
  | _, _ => 0

/-- The number of equal lines at the end of two lists. -/
def commonEndLength (as bs : List α) : Nat :=
  commonLength as.reverse bs.reverse

/-- The farthest position in the old list on each diagonal. -/
structure Frontier where
  /-- Diagonal `k` stands at index `k + offset`. -/
  offset : Nat
  reach : Array Nat

namespace Frontier

/-- Diagonals up to `bound` in either direction, with the walk's beginning
before the first line. -/
def start (bound : Nat) : Frontier :=
  ⟨bound + 1, Array.replicate (2 * bound + 3) 0⟩

def reached (f : Frontier) (k : Int) : Nat := f.reach.getD (k + f.offset).toNat 0

def set (f : Frontier) (k : Int) (x : Nat) : Frontier :=
  { f with reach := f.reach.setIfInBounds (k + f.offset).toNat x }

/-- Where the next step on a diagonal begins, after `d` edits. -/
def step (f : Frontier) (d : Nat) (k : Int) : Nat :=
  if k = -d ∨ (k ≠ d ∧ f.reached (k - 1) < f.reached (k + 1)) then f.reached (k + 1)
  else f.reached (k - 1) + 1

end Frontier

/-- The diagonals after `d` edits, from the highest down. -/
def diagonals (d : Nat) : List Int :=
  (List.range (d + 1)).map fun (i : Nat) => (d : Int) - 2 * i

/-- One round of the walk from one corner.  `meets` tells from a diagonal and
the position reached whether the other walk has been met there. -/
def advance (old new : List α) (d : Nat) (meets : Int → Nat → Bool) :
    List Int → Frontier → Frontier × Option ((Nat × Nat) × (Nat × Nat))
  | [], f => (f, none)
  | k :: ks, f =>
    let x := f.step d k
    let y := (x - k : Int).toNat
    let run := commonLength (old.drop x) (new.drop y)
    let f := f.set k (x + run)
    if meets k (x + run) then (f, some ((x, y), (x + run, y + run)))
    else advance old new d meets ks f

/-- Walks from both corners for as many rounds as `rounds` allows, and answers
the point at which they meet. -/
def meetingPoint (old new oldBack newBack : List α) :
    (rounds d : Nat) → (ahead back : Frontier) → Option (Nat × Nat)
  | 0, _, _, _ => none
  | rounds + 1, d, ahead, back =>
    let n := old.length
    let m := new.length
    let delta : Int := (n : Int) - m
    let odd := delta % 2 ≠ 0
    let meetsBack := fun (k : Int) (x : Nat) =>
      odd && decide ((k - delta).natAbs + 1 ≤ d) && decide (x + back.reached (delta - k) ≥ n)
    match advance old new d meetsBack (diagonals d) ahead with
    | (_, some (start, _)) => some start
    | (ahead, none) =>
      let meetsAhead := fun (k : Int) (x : Nat) =>
        !odd && decide ((k - delta).natAbs ≤ d) && decide (x + ahead.reached (delta - k) ≥ n)
      match advance oldBack newBack d meetsAhead (diagonals d) back with
      | (_, some (_, (x, y))) => some (n - x, m - y)
      | (back, none) => meetingPoint old new oldBack newBack rounds (d + 1) ahead back

/-- A point at which to split two lists that differ in their first and last
lines. -/
def splitPoint (old new : List α) : Option (Nat × Nat) :=
  let rounds := (old.length + new.length + 1) / 2 + 1
  meetingPoint old new old.reverse new.reverse rounds 0 (.start rounds) (.start rounds)

/-- A piece, unless it would be empty. -/
def keptPiece (lines : List α) : Script α := if lines.isEmpty then [] else [.kept lines]
def deletedPiece (lines : List α) : Script α := if lines.isEmpty then [] else [.deleted lines]
def insertedPiece (lines : List α) : Script α := if lines.isEmpty then [] else [.inserted lines]

/-- A script from one list to the other, with at most `depth` nested splits. -/
def searchWithin : (depth : Nat) → (old new : List α) → Script α
  | 0, old, new => deletedPiece old ++ insertedPiece new
  | depth + 1, old, new =>
    let first := commonLength old new
    let old' := old.drop first
    let new' := new.drop first
    let last := commonEndLength old' new'
    let oldCore := old'.take (old'.length - last)
    let newCore := new'.take (new'.length - last)
    let core :=
      if oldCore.isEmpty || newCore.isEmpty then deletedPiece oldCore ++ insertedPiece newCore
      else
        match splitPoint oldCore newCore with
        | some (x, y) =>
          searchWithin depth (oldCore.take x) (newCore.take y) ++
            searchWithin depth (oldCore.drop x) (newCore.drop y)
        | none => deletedPiece oldCore ++ insertedPiece newCore
    keptPiece (old.take first) ++ core ++ keptPiece (old'.drop (old'.length - last))

/-- A script from one list to the other. -/
def search (old new : List α) : Script α :=
  searchWithin (old.length + new.length + 1) old new

end LicenseHeaders.Diff

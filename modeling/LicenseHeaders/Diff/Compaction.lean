import LicenseHeaders.Diff.Search

/-!
# Sliding pieces together

A script often has several insertions where one would do, because the lines
between two of them also occur at the end of the second.  An insertion slides
up over kept lines as long as these end like the insertion, past a deletion,
and merges with an insertion it meets; then it slides down in the same manner.
Deletions first, insertions afterwards take their turn from the top.  A
deletion slides past insertions and merges with deletions only.

Every slide keeps what the script reads as the old and as the new list.

* `Cursor` — a script with one piece in focus;
* `compact` — the script with all pieces slid together.
-/

namespace LicenseHeaders.Diff

variable {α : Type} [DecidableEq α]

/-- A piece in focus between the pieces before it, nearest first, and after
it. -/
structure Cursor (α : Type) where
  before : Script α
  focus : Piece α
  after : Script α

/-- Lines as kept lines in front of a script. -/
def keepInFront (lines : List α) : Script α → Script α
  | .kept next :: rest => .kept (lines ++ next) :: rest
  | script => .kept lines :: script

/-- Lines as kept lines behind the nearest piece of a reversed script. -/
def keepBehind (lines : List α) : Script α → Script α
  | .kept previous :: rest => .kept (previous ++ lines) :: rest
  | script => .kept lines :: script

namespace Cursor

/-- The last lines of a list. -/
def lastLines (n : Nat) (lines : List α) : List α := lines.drop (lines.length - n)
def withoutLast (n : Nat) (lines : List α) : List α := lines.take (lines.length - n)

/-- One slide up, if there is one. -/
def slideUp? (c : Cursor α) : Option (Cursor α) :=
  match c.before, c.focus with
  | [], _ => none
  | .kept [] :: before, _ => some { c with before := before }
  | .kept lines :: before, .inserted new =>
    let s := commonEndLength lines new
    if s = 0 then none
    else
      let moved := lastLines s lines
      let left := withoutLast s lines
      some {
        before := if left.isEmpty then before else .kept left :: before
        focus := .inserted (moved ++ withoutLast s new)
        after := keepInFront moved c.after }
  | .kept _ :: _, _ => none
  | .inserted new :: before, .inserted lines =>
    some { c with before := before, focus := .inserted (new ++ lines) }
  | .deleted old :: before, .deleted lines =>
    some { c with before := before, focus := .deleted (old ++ lines) }
  | piece :: before, _ => some { c with before := before, after := piece :: c.after }

/-- One slide down, if there is one. -/
def slideDown? (c : Cursor α) : Option (Cursor α) :=
  match c.after, c.focus with
  | [], _ => none
  | .kept [] :: after, _ => some { c with after := after }
  | .kept lines :: after, .inserted new =>
    let s := commonLength lines new
    if s = 0 then none
    else
      let moved := lines.take s
      let left := lines.drop s
      some {
        before := keepBehind moved c.before
        focus := .inserted (new.drop s ++ moved)
        after := if left.isEmpty then after else .kept left :: after }
  | .kept _ :: _, _ => none
  | .inserted new :: after, .inserted lines =>
    some { c with focus := .inserted (lines ++ new), after := after }
  | .deleted old :: after, .deleted lines =>
    some { c with focus := .deleted (lines ++ old), after := after }
  | piece :: after, _ => some { c with before := piece :: c.before, after := after }

/-- Repeats a slide while there is one, at most `slides` times. -/
def slide (move : Cursor α → Option (Cursor α)) : Nat → Cursor α → Cursor α
  | 0, c => c
  | slides + 1, c =>
    match move c with
    | some c' => slide move slides c'
    | none => c

/-- The lines and pieces of a script: more slides in one direction there are
not. -/
def slideBound (script : Script α) : Nat :=
  script.foldr (fun piece slides => piece.lines.length + 1 + slides) 0

/-- The focus slid up and then down as far as it goes. -/
def settle (c : Cursor α) : Cursor α :=
  let up := c.slide slideUp? (slideBound c.before)
  up.slide slideDown? (slideBound up.after)

end Cursor

/-- Goes down a script and settles the pieces that `chosen` names.  `before`
holds the pieces already passed, nearest first. -/
def settleAll (chosen : Piece α → Bool) : Nat → (before rest : Script α) → Script α
  | 0, before, rest => before.reverse ++ rest
  | _, before, [] => before.reverse
  | turns + 1, before, piece :: after =>
    if chosen piece then
      let c := Cursor.settle ⟨before, piece, after⟩
      settleAll chosen turns (c.focus :: c.before) c.after
    else settleAll chosen turns (piece :: before) after

def Piece.isDeletion : Piece α → Bool
  | .deleted _ => true
  | _ => false

def Piece.isInsertion : Piece α → Bool
  | .inserted _ => true
  | _ => false

/-- More turns than a pass over a script takes. -/
def turnBound (script : Script α) : Nat :=
  (Cursor.slideBound script + 1) * (Cursor.slideBound script + 1)

/-- The script with its deletions and then its insertions slid together. -/
def compact (script : Script α) : Script α :=
  let script := settleAll Piece.isDeletion (turnBound script) [] script
  settleAll Piece.isInsertion (turnBound script) [] script

/-- The fate of one line. -/
inductive Mark where
  | kept
  | deleted
  | inserted
  deriving DecidableEq, Repr

/-- The lines of a script one by one; between kept lines all deleted ones come
before the inserted ones, which are held back in `pending`. -/
def markedLines (pending : List α) : Script α → List (Mark × α)
  | [] => pending.map (Mark.inserted, ·)
  | .kept [] :: rest => markedLines pending rest
  | .kept lines :: rest =>
    pending.map (Mark.inserted, ·) ++ lines.map (Mark.kept, ·) ++ markedLines [] rest
  | .deleted lines :: rest => lines.map (Mark.deleted, ·) ++ markedLines pending rest
  | .inserted lines :: rest => markedLines (pending ++ lines) rest

/-- How one list of lines becomes the other, line by line. -/
def compare (old new : List α) : List (Mark × α) :=
  markedLines [] (compact (search old new))

end LicenseHeaders.Diff

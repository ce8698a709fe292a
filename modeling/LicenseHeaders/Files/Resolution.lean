import LicenseHeaders.Files.Cause
import LicenseHeaders.Files.System

/-!
# From a path to a location

The system follows a path step by step.  Every step but the last has to arrive
at a directory, and whatever step is taken from a directory searches it; a
symbolic link is replaced by the steps of its target, at most forty times in one
resolution.  The three ways to treat the last step are

* `entry` — take the entry itself, also if it is a link;
* `target` — follow a link at the end as well;
* `creation` — as `target`, but the last name need not exist, and a path that
  closes with `/` cannot name a new file.

The answer is a location; whether something exists there is a second question
only for the last name, which is why `locate` answers also for a missing entry
in an existing directory.
-/

namespace LicenseHeaders

/-- One step of a path. -/
inductive PathStep where
  | name (n : Name)
  | here
  | up
  /-- The `/` that closes a path after a name. -/
  | close
  deriving DecidableEq, Repr

/-- How the last step of a path is treated. -/
inductive Access where
  | entry
  | target
  | creation
  deriving DecidableEq, Repr

namespace Path

/-- The steps of a path from its starting directory. -/
def steps (p : Path) : List PathStep :=
  let named := ((Text.splitOn '/' p.text).filter fun piece => piece ≠ []).map fun piece =>
    if piece = ['.'] then PathStep.here
    else if piece = ['.', '.'] then .up
    else .name piece
  match named.getLast? with
  | some (.name _) => if p.text.getLast? = some '/' then named ++ [.close] else named
  | _ => named

end Path

namespace FileSystem

/-- The most bytes a name may have. -/
def nameLimit : Nat := 255

/-- The number of bytes from which on a path is too long. -/
def pathLimit : Nat := 4096

/-- The most links one resolution follows. -/
def linkLimit : Nat := 40

/-- Whether a directory permits a step to be taken from it.  The `/` that closes a
path asks no more than that there is a directory. -/
def permits (fs : FileSystem) (l : Location) (step : PathStep) : Bool :=
  decide (step = .close) || fs.grants .searching l

/-- Follows steps from a location; `onLink` takes over at a link with the
directory that holds it, its target and the steps that remain. -/
def follow (fs : FileSystem) (access : Access)
    (onLink : Location → Path → List PathStep → Except Cause Location) :
    Location → List PathStep → Except Cause Location
  | l, [] => .ok l
  | l, step :: rest =>
    match fs.find? l with
    | none => .error .noSuchEntry
    | some (.file _) => .error .notADirectory
    | some (.link _) => .error .notADirectory
    | some .directory =>
      if fs.permits l step then
        match step with
        | .here => follow fs access onLink l rest
        | .close => follow fs access onLink l rest
        | .up => follow fs access onLink l.dropLast rest
        | .name n =>
          if access = .creation ∧ rest = [.close] then .error .isADirectory
          else if n.byteCount > nameLimit then .error .nameTooLong
          else
            match fs.find? (l ++ [n]) with
            | none => if rest = [] then .ok (l ++ [n]) else .error .noSuchEntry
            | some (.link target) =>
              if rest = [] ∧ access = .entry then .ok (l ++ [n]) else onLink l target rest
            | some (.file _) => follow fs access onLink (l ++ [n]) rest
            | some .directory => follow fs access onLink (l ++ [n]) rest
      else .error .accessDenied

/-- Follows steps through at most `links` links. -/
def followLinks (fs : FileSystem) (access : Access) :
    Nat → Location → List PathStep → Except Cause Location
  | 0 => fs.follow access fun _ _ _ => .error .tooManyLinks
  | links + 1 => fs.follow access fun l target rest =>
      fs.followLinks access links (if target.isAbsolute then [] else l) (target.steps ++ rest)

/-- The location a path leads to. -/
def locate (fs : FileSystem) (access : Access) (p : Path) : Except Cause Location :=
  if '\x00' ∈ p.text then .error .zeroInPath
  else if p.text = [] then .error .noSuchEntry
  else if Text.byteCount p.text ≥ pathLimit then .error .nameTooLong
  else fs.followLinks access linkLimit (if p.isAbsolute then [] else fs.current) p.steps

/-- The location a path leads to, and the entry there. -/
def lookup (fs : FileSystem) (access : Access) (p : Path) : Except Cause (Location × Entry) := do
  let l ← fs.locate access p
  match fs.find? l with
  | some entry => .ok (l, entry)
  | none => .error .noSuchEntry

/-- Whether a path leads to something. -/
def pathExists (fs : FileSystem) (p : Path) : Bool :=
  match fs.lookup .target p with
  | .ok _ => true
  | .error _ => false

/-- Whether a path leads to a directory. -/
def leadsToDirectory (fs : FileSystem) (p : Path) : Bool :=
  match fs.lookup .target p with
  | .ok (_, .directory) => true
  | _ => false

/-- Whether a path leads to a file. -/
def leadsToFile (fs : FileSystem) (p : Path) : Bool :=
  match fs.lookup .target p with
  | .ok (_, .file _) => true
  | _ => false

/-- The location a path leads to if something exists there.

This is what the system answers when it is asked for the path without links.
Two limits of its own are left out.  That question fails also where a file can
be opened, if the path from the root down is itself too long or a directory
above the current one cannot be searched; here it has an answer wherever the
file can be opened.  And it has an answer also for some paths of `pathLimit`
bytes or more, by which no file can be opened; here it has none for them. -/
def canonical? (fs : FileSystem) (p : Path) : Option Location :=
  match fs.lookup .target p with
  | .ok (l, _) => some l
  | .error _ => none

end FileSystem

end LicenseHeaders

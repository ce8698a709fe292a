import LicenseHeaders.Files.Access

/-!
# Further names of a file

A file can be entered in several places.  The table of a file system has a row
for each of them, and `HardLinks` tells which rows are about one file: those
whose locations have the same number.  What is written by one name is read by
every other, so whoever changes a file passes its content on.

* `HardLinks.others` — the further names of the file at a location;
* `HardLinks.carry` — passing on the content of a file that was written.
-/

namespace LicenseHeaders

/-- Gives several files one content.  What is no file stays as it is. -/
def FileSystem.refill (fs : FileSystem) (content : Content) : List Location → FileSystem
  | [] => fs
  | l :: rest =>
    match fs.find? l with
    | some (.file _) => (fs.put l (.file content)).refill content rest
    | _ => fs.refill content rest

/-- The files that have several names.  Locations with the same number are names
of one file; a location without a number is the only name of what is there. -/
structure HardLinks where
  numbers : List (Location × Nat) := []
  deriving DecidableEq, Repr

namespace HardLinks

/-- The number of the file that a location is a name of. -/
def number? (links : HardLinks) (l : Location) : Option Nat :=
  (links.numbers.find? fun row => row.1 = l).map (·.2)

/-- The further names of the file at a location. -/
def others (links : HardLinks) (l : Location) : List Location :=
  (links.numbers.map (·.1)).filter fun k => k ≠ l ∧ links.number? k = links.number? l

/-- Passes the content of a file on to its further names. -/
def share (links : HardLinks) (l : Location) (fs : FileSystem) : FileSystem :=
  match fs.find? l with
  | some (.file content) => fs.refill content (links.others l)
  | _ => fs

/-- Passes on the content of the file that a path leads to. -/
def carry (links : HardLinks) (path : Path) (fs : FileSystem) : FileSystem :=
  match fs.canonical? path with
  | some l => links.share l fs
  | none => fs

end HardLinks

end LicenseHeaders

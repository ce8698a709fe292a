import LicenseHeaders.Files.Resolution

/-!
# Reading, writing and listing

The accesses a run makes to the disk.  Files are read and written whole, apart
from the diff file, to which text is appended.  A new file changes the
directory it is created in.  A failed access leaves the file system as it was.
-/

namespace LicenseHeaders.FileSystem

/-- The text of the file a path leads to. -/
def readText (fs : FileSystem) (p : Path) : Except Cause Text := do
  let (l, entry) ← fs.lookup .target p
  if fs.grants .reading l then
    match entry with
    | .file (.text t) => .ok t
    | .file (.binary _) => .error .notText
    | .directory => .error .isADirectory
    | .link _ => .error .tooManyLinks
  else .error .accessDenied

/-- Puts the content computed from the present one into the file a path leads
to, which is created when it is missing. -/
def modifyFile (fs : FileSystem) (p : Path) (change : Content → Content) :
    Except Cause FileSystem := do
  let l ← fs.locate .creation p
  match fs.find? l with
  | some .directory => .error .isADirectory
  | some (.link _) => .error .tooManyLinks
  | some (.file content) =>
    if fs.grants .writing l then .ok (fs.put l (.file (change content)))
    else .error .accessDenied
  | none =>
    if fs.grants .writing l.dropLast then .ok (fs.put l (.file (change .empty)))
    else .error .accessDenied

/-- Writes a text as the whole content of a file. -/
def writeText (fs : FileSystem) (p : Path) (t : Text) : Except Cause FileSystem :=
  fs.modifyFile p fun _ => .text t

/-- Adds a text at the end of a file. -/
def appendText (fs : FileSystem) (p : Path) (t : Text) : Except Cause FileSystem :=
  fs.modifyFile p fun content => content.append t

/-- The names and kinds in the directory a path leads to, in name order. -/
def list (fs : FileSystem) (p : Path) : Except Cause (List (Name × Kind)) := do
  match ← fs.lookup .target p with
  | (l, .directory) =>
    if fs.grants .reading l then .ok (fs.children l) else .error .accessDenied
  | _ => .error .notADirectory

end LicenseHeaders.FileSystem

import LicenseHeaders.Files.Access

/-!
# What other programs do to the tree

While a run is under way other programs may create, delete and replace
entries.  An `Edit` is one such act.  Parents of a created entry are created
with it, deletion takes a directory with all it holds, and an edit that the
system refuses does nothing.

`changesSince` tells what differs between two states of the same tree.
-/

namespace LicenseHeaders

/-- One act of another program. -/
inductive Edit where
  | create (path : Path) (entry : Entry)
  | delete (path : Path)
  | replace (path : Path) (entry : Entry)

namespace FileSystem

/-- Creates one directory in an existing one. -/
def makeDirectory (fs : FileSystem) (p : Path) : FileSystem :=
  match fs.locate .entry p with
  | .ok l => if (fs.find? l).isNone then fs.put l .directory else fs
  | .error _ => fs

/-- Creates the directories along a path. -/
def makeDirectories (fs : FileSystem) (p : Path) : FileSystem :=
  let components := p.components
  (List.range components.length).foldl
    (fun fs i => fs.makeDirectory (Path.ofComponents (components.take (i + 1)))) fs

/-- The path without its last component. -/
def parentOf (p : Path) : Path :=
  Path.ofComponents p.components.dropLast

/-- Creates an entry and its parents. -/
def create (fs : FileSystem) (p : Path) (entry : Entry) : FileSystem :=
  match entry with
  | .directory => fs.makeDirectories p
  | .file content =>
    let fs := fs.makeDirectories (parentOf p)
    match fs.modifyFile p fun _ => content with
    | .ok fs => fs
    | .error _ => fs
  | .link target =>
    let fs := fs.makeDirectories (parentOf p)
    match fs.locate .entry p with
    | .ok l => if (fs.find? l).isNone then fs.put l (.link target) else fs
    | .error _ => fs

/-- Deletes an entry with all it holds. -/
def delete (fs : FileSystem) (p : Path) : FileSystem :=
  match fs.lookup .entry p with
  | .ok (l, _) => if l = [] then fs else fs.erase l
  | .error _ => fs

/-- The file system after an edit. -/
def apply (fs : FileSystem) : Edit → FileSystem
  | .create p entry => fs.create p entry
  | .delete p => fs.delete p
  | .replace p entry => (fs.delete p).create p entry

/-- The file or link at a location below a directory, by its names from
there. -/
def leaves (fs : FileSystem) (directory : Location) : List (Location × Entry) :=
  fs.entries.filterMap fun (l, entry) =>
    if entry ≠ .directory ∧ directory.isPrefixOf l then some (l.drop directory.length, entry)
    else none

/-- The files and links below a directory that differ from an earlier state,
with what is there now; nothing stands for a deleted entry. -/
def changesSince (fs before : FileSystem) (directory : Location) :
    List (Location × Option Entry) :=
  let old := before.leaves directory
  let new := fs.leaves directory
  let changed := new.filterMap fun (l, entry) =>
    if (old.find? fun e => e.1 = l).map (·.2) = some entry then none else some (l, some entry)
  let deleted := old.filterMap fun (l, _) =>
    if new.any fun e => e.1 = l then none else some (l, none)
  changed ++ deleted

end FileSystem

/-- The most entries an edit adds. -/
def Edit.growth : Edit → Nat
  | .create p _ => p.components.length + 1
  | .delete _ => 0
  | .replace p _ => p.components.length + 1

end LicenseHeaders

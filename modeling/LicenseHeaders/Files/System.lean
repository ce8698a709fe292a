import LicenseHeaders.Files.Content
import LicenseHeaders.Files.Path

/-!
# The file system as a value

A file system is a finite table from locations to entries.  A location is the
list of names that leads from the root to an entry through real directories,
so it is unique, unlike a path, which may pass through links and dots.  Only
directories, files and symbolic links exist.  A file that has several names has
an entry for each of them, and `HardLinks` tells which of them belong together.
A file or directory can deny its content to be read or changed; the content of a
directory is the list of its entries.  A directory can also deny to be searched:
its entries can then be listed, but not reached.

Everything that a run does to the disk is a function on this value.

* `find?_put`, `find?_put_of_ne` — putting an entry is seen at its location
  and nowhere else.
-/

namespace LicenseHeaders

/-- The names from the root down to an entry. -/
abbrev Location := List Name

/-- What is stored at a location. -/
inductive Entry where
  | file (content : Content)
  | directory
  | link (target : Path)
  deriving DecidableEq

/-- What a directory listing tells about an entry. -/
inductive Kind where
  | file
  | directory
  | link
  deriving DecidableEq, Repr

def Entry.kind : Entry → Kind
  | .file _ => .file
  | .directory => .directory
  | .link _ => .link

/-- What can be done with an entry: with its content, and with what a directory
holds. -/
inductive Right where
  | reading
  | writing
  | searching
  deriving DecidableEq, Repr

/-- A table of entries, seen from a current directory. -/
structure FileSystem where
  entries : List (Location × Entry)
  distinct : (entries.map (·.1)).Nodup
  current : Location
  /-- The rights that are denied. -/
  denied : List (Location × Right)
  deriving DecidableEq

namespace FileSystem

/-- The file system that holds only its root, which is the current directory. -/
def empty : FileSystem := ⟨[], by simp, [], []⟩

/-- The entry at a location.  The root is a directory without a table row. -/
def find? (fs : FileSystem) (l : Location) : Option Entry :=
  if l = [] then some .directory
  else (fs.entries.find? fun e => e.1 = l).map (·.2)

def isDirectory (fs : FileSystem) (l : Location) : Bool :=
  match fs.find? l with
  | some .directory => true
  | _ => false

/-- Whether a right is granted at a location. -/
def grants (fs : FileSystem) (right : Right) (l : Location) : Bool :=
  !fs.denied.contains (l, right)

/-- The file system with a right denied at a location. -/
def deny (fs : FileSystem) (right : Right) (l : Location) : FileSystem :=
  { fs with denied := (l, right) :: fs.denied }

/-- The number of entries. -/
def size (fs : FileSystem) : Nat := fs.entries.length

/-- Replaces the entry at a location in its row, or adds a row. -/
def putRow (l : Location) (entry : Entry) :
    List (Location × Entry) → List (Location × Entry)
  | [] => [(l, entry)]
  | row :: rest =>
    if row.1 = l then (l, entry) :: rest else row :: putRow l entry rest

theorem mem_keys_putRow {l k : Location} {entry : Entry} {rows : List (Location × Entry)} :
    k ∈ (putRow l entry rows).map (·.1) ↔ k = l ∨ k ∈ rows.map (·.1) := by
  induction rows with
  | nil => simp [putRow]
  | cons row rest ih =>
    unfold putRow
    split
    · next h => simp [h]
    · simp only [List.map_cons, List.mem_cons, ih]
      constructor
      · rintro (h | h | h) <;> simp [h]
      · rintro (h | h | h) <;> simp [h]

theorem nodup_putRow {l : Location} {entry : Entry} {rows : List (Location × Entry)}
    (h : (rows.map (·.1)).Nodup) : ((putRow l entry rows).map (·.1)).Nodup := by
  induction rows with
  | nil => simp [putRow]
  | cons row rest ih =>
    rw [List.map_cons, List.nodup_cons] at h
    unfold putRow
    split
    · next he => simpa [← he] using h
    · next he =>
      rw [List.map_cons, List.nodup_cons]
      refine ⟨fun hk => ?_, ih h.2⟩
      rcases mem_keys_putRow.1 hk with e | m
      · exact he e
      · exact h.1 m

/-- The file system with an entry put at a location below the root. -/
def put (fs : FileSystem) (l : Location) (entry : Entry) : FileSystem :=
  if l = [] then fs
  else { fs with entries := putRow l entry fs.entries, distinct := nodup_putRow fs.distinct }

/-- The file system without a location and all that lies below it. -/
def erase (fs : FileSystem) (l : Location) : FileSystem :=
  { fs with
    entries := fs.entries.filter fun e => !l.isPrefixOf e.1
    distinct := List.Pairwise.sublist ((List.filter_sublist).map _) fs.distinct
    denied := fs.denied.filter fun d => !l.isPrefixOf d.1 }

/-- The name of a location inside a directory, if it lies directly in it. -/
def nameIn? (directory : Location) (l : Location) : Option Name :=
  match l.getLast? with
  | some n => if l.dropLast = directory then some n else none
  | none => none

/-- The names and kinds in a directory, in the order of the names. -/
def children (fs : FileSystem) (directory : Location) : List (Name × Kind) :=
  let found := fs.entries.filterMap fun e => (nameIn? directory e.1).map fun n => (n, e.2.kind)
  found.mergeSort fun a b => Text.notAfter a.1 b.1

theorem find?_putRow {l k : Location} {entry : Entry} {rows : List (Location × Entry)} :
    ((putRow l entry rows).find? fun e => e.1 = k).map (·.2) =
      if k = l then some entry else (rows.find? fun e => e.1 = k).map (·.2) := by
  induction rows with
  | nil =>
    by_cases h : k = l
    · simp [putRow, h]
    · simp [putRow, h, Ne.symm h]
  | cons row rest ih =>
    unfold putRow
    split
    · next hr =>
      by_cases h : k = l
      · simp [h]
      · simp [h, hr, Ne.symm h]
    · next hr =>
      by_cases h : row.1 = k
      · have hk : k ≠ l := fun e => hr (h.trans e)
        simp [h, hk]
      · rw [List.find?_cons_of_neg (by simpa using h), ih,
          List.find?_cons_of_neg (by simpa using h)]

theorem find?_put {fs : FileSystem} {l : Location} {entry : Entry} (h : l ≠ []) :
    (fs.put l entry).find? l = some entry := by
  simp only [put, if_neg h, find?]
  rw [find?_putRow, if_pos rfl]

theorem find?_put_of_ne {fs : FileSystem} {l k : Location} {entry : Entry} (h : k ≠ l) :
    (fs.put l entry).find? k = fs.find? k := by
  unfold put
  split
  · rfl
  · by_cases hk : k = []
    · simp [find?, hk]
    · simp only [find?, if_neg hk]
      rw [find?_putRow, if_neg h]

end FileSystem

end LicenseHeaders

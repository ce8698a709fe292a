import LicenseHeaders.Event
import LicenseHeaders.Failure
import LicenseHeaders.Files.Access
import LicenseHeaders.Selection.Criteria

/-!
# Walking the roots

A walk visits the trees below its roots and yields the selected files one at a
time.  It is lazy: a root is looked at when the one before is exhausted, and a
directory is listed when the walk moves past its entry in its parent.  What was
listed is not looked up again, so a walk over a tree that changes meanwhile
sees each directory as it was when it was entered.

Directories come depth first with the entries in name order.  Links to
directories are followed at a root only.  A file is selected when it is regular
or a link to a regular file, when no filter rejects its name, and when its
canonical location has not been yielded before; for a file that has vanished,
the path stands in for the location.

* `Walk.step` — one entry is looked at;
* `Walk.next` — steps until a file or an error turns up, or the end;
* `collect` — all files at once, up to the first error;
* `Walk.budget` — more steps than a walk can take in an unchanging tree.
-/

namespace LicenseHeaders

/-- What a walk has listed and not yet looked at. -/
inductive Pending where
  | entry (path : Path) (kind : Kind)
  /-- A directory that could not be listed. -/
  | unlisted (path : Path) (cause : Cause)
  deriving DecidableEq

/-- The state of a walk. -/
structure Walk where
  /-- Roots that have not been entered. -/
  roots : List Path
  /-- Entries in the order in which they will be visited. -/
  pending : List Pending
  /-- What has been yielded. -/
  seen : List (List Path.Component)
  deriving DecidableEq

/-- What looking at one entry brought about. -/
inductive Progress where
  | yielded (path : Path)
  | failed (failure : Failure)
  | moved
  | finished
  deriving DecidableEq

namespace Walk

/-- The entries of a directory on their way into a walk. -/
def listing (fs : FileSystem) (directory : Path) : List Pending :=
  match fs.list directory with
  | .ok entries => entries.map fun (name, kind) => .entry (directory.join name) kind
  | .error cause => [.unlisted directory cause]

/-- What tells whether a file has been yielded before: its location, or its
path when it cannot be resolved.  It is taken to be resolved wherever it can be
opened, and by no path that is too long to open it (see `FileSystem.canonical?`). -/
def identity (fs : FileSystem) (path : Path) : List Path.Component :=
  match fs.canonical? path with
  | some l => .root :: l.map .name
  | none => path.components

def trace (text : String) : Event := .message .trace .walk text

/-- Offers a file to the filters and to the list of what has been seen. -/
def offer (filters : List NameFilter) (fs : FileSystem) (w : Walk) (path : Path) :
    Progress × Walk × List Event :=
  match firstRejection? filters path with
  | some rejection =>
    let text := s!"Skipping: {path.display} ({rejection.message})"
    (.moved, w, [.message .trace .filter text])
  | none =>
    let key := identity fs path
    if key ∈ w.seen then
      (.moved, w, [trace s!"Skipping: {path.display} (already selected)"])
    else (.yielded path, { w with seen := key :: w.seen }, [])

/-- Enters a root. -/
def enter (filters : List NameFilter) (fs : FileSystem) (w : Walk) (root : Path) :
    Progress × Walk × List Event :=
  match fs.lookup .entry root with
  | .error cause => (.failed (.traversal root cause), w, [])
  | .ok (_, .directory) => (.moved, { w with pending := listing fs root }, [])
  | .ok (_, .file _) => offer filters fs w root
  | .ok (_, .link _) =>
    match fs.lookup .target root with
    | .error cause => (.failed (.traversal root cause), w, [])
    | .ok (_, .directory) => (.moved, { w with pending := listing fs root }, [])
    | .ok _ => offer filters fs w root

/-- Looks at the next entry. -/
def step (filters : List NameFilter) (fs : FileSystem) (w : Walk) :
    Progress × Walk × List Event :=
  match w.pending with
  | .unlisted path cause :: rest =>
    (.failed (.traversal path cause), { w with pending := rest }, [])
  | .entry path .directory :: rest =>
    (.moved, { w with pending := listing fs path ++ rest }, [])
  | .entry path .file :: rest => offer filters fs { w with pending := rest } path
  | .entry path .link :: rest =>
    if fs.leadsToFile path then offer filters fs { w with pending := rest } path
    else (.moved, { w with pending := rest }, [])
  | [] =>
    match w.roots with
    | [] => (.finished, w, [])
    | root :: roots =>
      let (progress, w, events) := enter filters fs { w with roots := roots } root
      let scanning := .message .debug .walk s!"Scanning directory: {root.display}"
      (progress, w, scanning :: events)

/-- What `next` answers. -/
inductive Item where
  | file (path : Path)
  | failure (failure : Failure)
  | done
  deriving DecidableEq

/-- Steps until something turns up, at most `steps` times. -/
def nextWithin (filters : List NameFilter) (fs : FileSystem) :
    (steps : Nat) → Walk → List Event → Item × Walk × List Event
  | 0, w, events => (.done, w, events)
  | steps + 1, w, events =>
    match step filters fs w with
    | (.yielded path, w, new) => (.file path, w, events ++ new)
    | (.failed failure, w, new) => (.failure failure, w, events ++ new)
    | (.finished, w, new) => (.done, w, events ++ new)
    | (.moved, w, new) => nextWithin filters fs steps w (events ++ new)

/-- The number of steps a walk has left when the tree does not change.  A root
or a pending entry brings in each entry below it once, and each directory at
most one failure to list it. -/
def budget (w : Walk) (fs : FileSystem) : Nat :=
  (w.roots.length + w.pending.length) * (2 * fs.size + 3) + 1

/-- The next file, failure or the end, with the walk after it. -/
def next (filters : List NameFilter) (fs : FileSystem) (w : Walk) : Item × Walk × List Event :=
  nextWithin filters fs (w.budget fs) w []

/-- A walk over roots, all of which have to lead to directories. -/
def start (fs : FileSystem) (roots : List Path) : Except Failure Walk :=
  match roots.find? fun root => !fs.leadsToDirectory root with
  | some root => .error (.directoryMissing root)
  | none => .ok ⟨roots, [], []⟩

/-- The files a walk still yields, or its first failure. -/
def remaining (filters : List NameFilter) (fs : FileSystem) :
    (items : Nat) → Walk → Except Failure (List Path)
  | 0, _ => .ok []
  | items + 1, w =>
    match next filters fs w with
    | (.done, _, _) => .ok []
    | (.failure failure, _, _) => .error failure
    | (.file path, w, _) => (remaining filters fs items w).map (path :: ·)

end Walk

/-- All selected files below roots, in visiting order. -/
def collect (filters : List NameFilter) (fs : FileSystem) (roots : List Path) :
    Except Failure (List Path) := do
  let w ← Walk.start fs roots
  Walk.remaining filters fs (w.budget fs) w

end LicenseHeaders

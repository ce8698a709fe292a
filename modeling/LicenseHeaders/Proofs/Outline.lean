import LicenseHeaders.Selection.Walk

/-!
# The outline of a file system

The outline of a file system is what is left when every file is emptied: the
directories, the links, the places of the files and the rights.  Following a
path, listing a directory and telling one file from another need nothing else,
so a walk cannot notice what is written into files that exist already.

* `locate_outline`, `list_outline` — paths and listings depend on the outline
  alone;
* `next_outline` — so does a walk;
* `outline_put_file` — a new content for a file leaves the outline as it is.
-/

namespace LicenseHeaders

/-- An entry without what its file holds. -/
def Entry.outline : Entry → Entry
  | .file _ => .file .empty
  | .directory => .directory
  | .link target => .link target

/-- An outline keeps what kind of entry stands where. -/
@[simp] theorem Entry.kind_outline (entry : Entry) : entry.outline.kind = entry.kind := by
  cases entry <;> rfl

namespace FileSystem

/-- The file system with every file emptied. -/
def outline (fs : FileSystem) : FileSystem where
  entries := fs.entries.map fun row => (row.1, row.2.outline)
  distinct := by
    rw [List.map_map]
    exact fs.distinct
  current := fs.current
  denied := fs.denied

/-! ## Looking up -/

@[simp] theorem find?_outline (fs : FileSystem) (l : Location) :
    fs.outline.find? l = (fs.find? l).map Entry.outline := by
  unfold find?
  split
  · rfl
  · simp only [outline, List.find?_map, Option.map_map]
    rfl

@[simp] theorem size_outline (fs : FileSystem) : fs.outline.size = fs.size := by
  simp [size, outline]

@[simp] theorem grants_outline (fs : FileSystem) (right : Right) (l : Location) :
    fs.outline.grants right l = fs.grants right l := rfl

@[simp] theorem children_outline (fs : FileSystem) (directory : Location) :
    fs.outline.children directory = fs.children directory := by
  simp only [children, outline, List.filterMap_map]
  congr 2
  funext row
  simp [Function.comp]

@[simp] theorem permits_outline (fs : FileSystem) (l : Location) (step : PathStep) :
    fs.outline.permits l step = fs.permits l step := rfl

/-- Steps are followed without reading contents. -/
theorem follow_outline (fs : FileSystem) (access : Access)
    (onLink : Location → Path → List PathStep → Except Cause Location)
    (l : Location) (steps : List PathStep) :
    fs.outline.follow access onLink l steps = fs.follow access onLink l steps := by
  induction steps generalizing l with
  | nil => rfl
  | cons step rest ih =>
      simp only [follow, find?_outline, permits_outline, ih]
      cases fs.find? l with
      | none => rfl
      | some entry =>
          cases entry with
          | file => rfl
          | link => rfl
          | directory =>
              cases step with
              | here => rfl
              | up => rfl
              | close => rfl
              | name n =>
                  simp only [Option.map_some, Entry.outline]
                  cases fs.find? (l ++ [n]) with
                  | none => rfl
                  | some entry => cases entry <;> rfl

theorem followLinks_outline (fs : FileSystem) (access : Access) (links : Nat)
    (l : Location) (steps : List PathStep) :
    fs.outline.followLinks access links l steps = fs.followLinks access links l steps := by
  induction links generalizing l steps with
  | zero => exact follow_outline fs access _ l steps
  | succ links ih =>
      rw [followLinks, followLinks, follow_outline]
      simp only [ih]

/-- Where a path leads depends on the outline alone. -/
@[simp] theorem locate_outline (fs : FileSystem) (access : Access) (p : Path) :
    fs.outline.locate access p = fs.locate access p := by
  simp only [locate, followLinks_outline]
  rfl

/-- What a path leads to in the outline is the outline of what it leads to. -/
@[simp] theorem lookup_outline (fs : FileSystem) (access : Access) (p : Path) :
    fs.outline.lookup access p =
      (fs.lookup access p).map fun found => (found.1, found.2.outline) := by
  unfold lookup
  rw [locate_outline]
  cases fs.locate access p with
  | error cause => rfl
  | ok l =>
      simp only [bind, Except.bind, find?_outline]
      cases fs.find? l <;> rfl

/-- Whether a path leads to a directory does not depend on contents. -/
@[simp] theorem leadsToDirectory_outline (fs : FileSystem) (p : Path) :
    fs.outline.leadsToDirectory p = fs.leadsToDirectory p := by
  unfold leadsToDirectory
  rw [lookup_outline]
  rcases fs.lookup .target p with cause | ⟨l, entry⟩
  · rfl
  · cases entry <;> rfl

@[simp] theorem leadsToFile_outline (fs : FileSystem) (p : Path) :
    fs.outline.leadsToFile p = fs.leadsToFile p := by
  unfold leadsToFile
  rw [lookup_outline]
  rcases fs.lookup .target p with cause | ⟨l, entry⟩
  · rfl
  · cases entry <;> rfl

/-- Canonicalizing reads no contents. -/
@[simp] theorem canonical?_outline (fs : FileSystem) (p : Path) :
    fs.outline.canonical? p = fs.canonical? p := by
  unfold canonical?
  rw [lookup_outline]
  cases fs.lookup .target p <;> rfl

/-- Listings depend on the outline alone. -/
@[simp] theorem list_outline (fs : FileSystem) (p : Path) :
    fs.outline.list p = fs.list p := by
  unfold list
  rw [lookup_outline]
  rcases fs.lookup .target p with cause | ⟨l, entry⟩
  · rfl
  · cases entry with
    | directory => simp [Except.map, bind, Except.bind, Entry.outline]
    | file => rfl
    | link => rfl

end FileSystem

/-! ## Walking -/

namespace Walk

variable (filters : List NameFilter) (fs : FileSystem)

@[simp] theorem listing_outline (directory : Path) :
    listing fs.outline directory = listing fs directory := by
  simp [listing]

/-- Files are told apart without reading them. -/
@[simp] theorem identity_outline (path : Path) : identity fs.outline path = identity fs path := by
  simp [identity]

@[simp] theorem offer_outline (w : Walk) (path : Path) :
    offer filters fs.outline w path = offer filters fs w path := by
  simp [offer]

@[simp] theorem enter_outline (w : Walk) (root : Path) :
    enter filters fs.outline w root = enter filters fs w root := by
  simp only [enter, FileSystem.lookup_outline, listing_outline, offer_outline]
  rcases fs.lookup .entry root with cause | ⟨l, entry⟩
  · rfl
  · cases entry with
    | directory => rfl
    | file => rfl
    | link =>
        simp only [Except.map, Entry.outline]
        rcases fs.lookup .target root with cause | ⟨l, entry⟩
        · rfl
        · cases entry <;> rfl

/-- One step of a walk reads no contents. -/
@[simp] theorem step_outline (w : Walk) : step filters fs.outline w = step filters fs w := by
  simp only [step, listing_outline, offer_outline, enter_outline,
    FileSystem.leadsToFile_outline]

@[simp] theorem nextWithin_outline (steps : Nat) (w : Walk) (events : List Event) :
    nextWithin filters fs.outline steps w events = nextWithin filters fs steps w events := by
  induction steps generalizing w events with
  | zero => rfl
  | succ steps ih =>
      rw [nextWithin, nextWithin, step_outline]
      rcases step filters fs w with ⟨progress, w', new⟩
      cases progress <;> simp only [ih]

/-- A walk depends on the outline alone. -/
@[simp] theorem next_outline (w : Walk) : next filters fs.outline w = next filters fs w := by
  simp [next, budget]

/-- With the same outline, a walk goes the same way. -/
theorem next_of_outline_eq {fs gs : FileSystem} (houtline : gs.outline = fs.outline)
    (filters : List NameFilter) (w : Walk) : next filters gs w = next filters fs w := by
  rw [← next_outline, houtline, next_outline]

@[simp] theorem start_outline (roots : List Path) : start fs.outline roots = start fs roots := by
  simp [start]

end Walk

/-! ## Writing into files -/

namespace FileSystem

/-- A file in the place of a file leaves the rows of the outline alone. -/
theorem map_putRow_outline {l : Location} {content : Content} {rows : List (Location × Entry)}
    (hfile : ∃ old, (rows.find? fun row => row.1 = l).map (·.2) = some (.file old)) :
    (putRow l (.file content) rows).map (fun row => (row.1, row.2.outline)) =
      rows.map fun row => (row.1, row.2.outline) := by
  induction rows with
  | nil => simp at hfile
  | cons row rest ih =>
      unfold putRow
      split
      · next hrow =>
        obtain ⟨old, hold⟩ := hfile
        simp only [List.find?_cons_of_pos, hrow, decide_true, Option.map_some,
          Option.some.injEq] at hold
        simp [← hrow, hold, Entry.outline]
      · next hrow =>
        rw [List.find?_cons_of_neg (by simpa using hrow)] at hfile
        rw [List.map_cons, List.map_cons, ih hfile]

/-- **A new content leaves the outline as it is.** -/
theorem outline_put_file {fs : FileSystem} {l : Location} {old : Content} (content : Content)
    (hfile : fs.find? l = some (.file old)) :
    (fs.put l (.file content)).outline = fs.outline := by
  unfold put
  split
  · rfl
  · next hne =>
    rw [find?, if_neg hne] at hfile
    simp only [outline, mk.injEq, and_self, and_true]
    exact map_putRow_outline ⟨old, hfile⟩

theorem grants_of_outline_eq {fs gs : FileSystem} (houtline : gs.outline = fs.outline)
    (right : Right) (l : Location) : gs.grants right l = fs.grants right l := by
  rw [← grants_outline gs, houtline, grants_outline]

/-- File systems with one outline locate every path alike. -/
theorem locate_of_outline_eq {fs gs : FileSystem} (houtline : gs.outline = fs.outline)
    (access : Access) (p : Path) : gs.locate access p = fs.locate access p := by
  rw [← locate_outline gs, houtline, locate_outline]

/-- File systems with one outline resolve every path alike. -/
theorem canonical?_of_outline_eq {fs gs : FileSystem} (houtline : gs.outline = fs.outline)
    (p : Path) : gs.canonical? p = fs.canonical? p := by
  rw [← canonical?_outline gs, houtline, canonical?_outline]

end FileSystem

end LicenseHeaders

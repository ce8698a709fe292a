import LicenseHeaders.Proofs.Coverage

/-!
# Places below overlapping roots

A place below one list of roots can be a place below another list as well: under
the same root at another position (`Visit.under`), or below a directory that the
other list reaches on its own way (`Visit.graft`).  It is then at the same
location, but it can have another path.  As long as nothing of the system gets in
the way, the two paths lead to the same file, and the two lists select the same
files.

* `Unhindered` — no limit of the system and no right to search gets in the way;
* `Unhindered.lookup`, `Unhindered.locate_eq` — places are found where they are,
  and all paths of one place lead to the same place;
* `Overlaps` — roots with others that reach nothing else;
* `Overlaps.selected_iff` — the locations of the files that are selected.
-/

namespace LicenseHeaders.Visit

variable {fs : FileSystem} {roots others : List Path} {v u : Visit} {l k : Location}
  {entry : Entry}

/-! ## The same root at another position -/

/-- The place with the same names below another root. -/
def under (v : Visit) (j : Nat) : Visit := ⟨j, v.names⟩

theorem under_child (v : Visit) (n : Name) (j : Nat) :
    (v.child n).under j = (v.under j).child n := rfl

section

variable {j : Nat} (hroot : roots[v.root]? = others[j]?)

include hroot

/-- The path stays the same below the same root. -/
theorem path_under : (v.under j).path others = v.path roots := by
  rw [path, path, under, List.getD_eq_getElem?_getD, List.getD_eq_getElem?_getD, hroot]

theorem Reached.under (hreached : Reached fs roots v l entry) :
    Reached fs others (v.under j) l entry := by
  induction hreached with
  | root hget hlookup => exact .root (hroot.symm.trans hget) hlookup
  | child _ hentry ih => exact .child (ih hroot) hentry

theorem Open.under (hopen : Open fs roots v) : Open fs others (v.under j) := by
  intro u l hwithin hne hreached
  obtain rfl : j = u.root := hwithin.1
  have hback : others[u.root]? = roots[v.root]? := hroot.symm
  rw [← path_under hback]
  refine hopen (u.under v.root) l ⟨rfl, hwithin.2⟩ (fun hsame => hne ?_) (hreached.under hback)
  have hnames : u.names = v.names := by rw [← hsame, Visit.under]
  exact Visit.ext rfl hnames

end

/-! ## Below a place on another way -/

/-- The place with the same names below another place. -/
def graft (v u : Visit) : Visit := ⟨u.root, u.names ++ v.names⟩

theorem graft_child (v u : Visit) (n : Name) : (v.child n).graft u = (v.graft u).child n := by
  simp only [graft, child, List.append_assoc]

/-- What is below a root is below any place where the directory is reached. -/
theorem Reached.graft (hreached : Reached fs others v l entry) {root : Path}
    (hroot : others[v.root]? = some root) (hlookup : fs.lookup .target root = .ok (k, .directory))
    (hu : Reached fs roots u k .directory) : Reached fs roots (v.graft u) l entry := by
  induction hreached with
  | root hget hlookup' =>
      cases hroot.symm.trans hget
      cases hlookup.symm.trans hlookup'
      rw [Visit.graft, List.append_nil]
      exact hu
  | child _ hentry ih =>
      rw [graft_child]
      exact .child (ih hroot) hentry

/-! ## Places that are found -/

/-- A path leads to a file if it can be resolved and there is a file. -/
theorem leadsToFile_iff {p : Path} :
    fs.leadsToFile p = true ↔
      ∃ l content, fs.canonical? p = some l ∧ fs.find? l = some (.file content) := by
  constructor
  · intro hfile
    unfold FileSystem.leadsToFile at hfile
    split at hfile
    · next l content hlookup =>
      exact ⟨l, content, FileSystem.canonical?_of_lookup hlookup,
        (FileSystem.lookup_eq_ok_iff.mp hlookup).2⟩
    · cases hfile
  · rintro ⟨l, content, hl, hfile⟩
    obtain ⟨entry, hlookup⟩ := FileSystem.lookup_of_canonical? hl
    cases hfile.symm.trans (FileSystem.lookup_eq_ok_iff.mp hlookup).2
    simp only [FileSystem.leadsToFile, hlookup]

/-- Nothing of the system gets in the way to the places below roots: their paths
are short enough, and a link that is refused after too many others goes on to
further links for ever, however many are followed.  What is met can be resolved,
unless it is a link that leads to no file. -/
structure Unhindered (fs : FileSystem) (roots : List Path) : Prop where
  short : ∀ v l entry, Reached fs roots v l entry → Open fs roots v →
    Text.byteCount (v.path roots).text < FileSystem.pathLimit
  endless : ∀ v l n target, Reached fs roots v l .directory → Open fs roots (v.child n) →
    fs.find? (l ++ [n]) = some (.link target) →
      fs.locate .target ((v.child n).path roots) = .error .tooManyLinks →
        ∀ links, fs.followLinks .target links l [.name n] = .error .tooManyLinks
  resolved : ∀ v l entry, Reached fs roots v l entry → Open fs roots v →
    ((∃ target, entry = .link target) → fs.leadsToFile (v.path roots) = true) →
      fs.canonical? (v.path roots) ≠ none

/-- Whatever directory can be listed below roots can be searched as well. -/
def Searchable (fs : FileSystem) (roots : List Path) : Prop :=
  ∀ v l entries, Reached fs roots v l .directory → Open fs roots v →
    fs.list (v.path roots) = .ok entries → fs.grants .searching l = true

/-- The bytes that the names of a location take in a path, at most. -/
def bytes (l : Location) : Nat := (l.map fun n => Text.byteCount n + 1).sum

/-- The names of a place lead from the location of its root to its own. -/
theorem Reached.names_suffix (hreached : Reached fs roots v l entry) : v.names <:+ l := by
  induction hreached with
  | root => exact List.nil_suffix
  | @child v l n entry hparent hentry ih =>
      obtain ⟨base, rfl⟩ := ih
      exact ⟨base, by rw [child_names, List.append_assoc]⟩

/-- A path below a root is not longer than its root and its names, with their
slashes. -/
theorem byteCount_path_le (roots : List Path) (v : Visit) : Text.byteCount (v.path roots).text ≤
    Text.byteCount (roots.getD v.root ⟨[]⟩).text + bytes v.names := by
  obtain ⟨i, names⟩ := v
  induction names using List.reverseRecOn with
  | nil => exact Nat.le_refl _
  | append_singleton names n ih =>
      have hjoin := Path.byteCount_join_le (path roots ⟨i, names⟩) n
      have hchild : path roots ⟨i, names ++ [n]⟩ = (path roots ⟨i, names⟩).join n :=
        path_child roots ⟨i, names⟩ n
      have hbytes : bytes (names ++ [n]) = bytes names + (Text.byteCount n + 1) := by
        rw [bytes, List.map_append, List.sum_append]
        rfl
      rw [hchild]
      dsimp only at ih ⊢
      omega

/-- **A file or a directory is found where it is.** -/
theorem Unhindered.lookup (hnamed : fs.WellNamed) (hunhindered : Unhindered fs roots)
    (hreached : Reached fs roots v l entry) (hopen : Open fs roots v)
    (hplain : ∀ target, entry ≠ .link target) :
    fs.lookup .target (v.path roots) = .ok (l, entry) := by
  have hresolved := hunhindered.resolved v l entry hreached hopen
    fun ⟨target, htarget⟩ => absurd htarget (hplain target)
  obtain ⟨k, hk⟩ := Option.ne_none_iff_exists'.mp hresolved
  obtain ⟨other, hlookup⟩ := FileSystem.lookup_of_canonical? hk
  obtain ⟨hlocate, hother⟩ := FileSystem.lookup_eq_ok_iff.mp hlookup
  obtain rfl : k = l := hreached.locate hnamed hopen hplain hlocate
  cases hreached.find?.symm.trans hother
  exact hlookup

section

variable (hnamed : fs.WellNamed) (hspelled : fs.Spellable)

include hnamed hspelled

/-- What is in a directory is followed from there, by a path that is short enough. -/
theorem Reached.locate_child {n : Name} (hreached : Reached fs roots v l .directory)
    (hentry : fs.find? (l ++ [n]) = some entry) (hopen : Open fs roots (v.child n))
    (hshort : Text.byteCount ((v.child n).path roots).text < FileSystem.pathLimit) :
    ∃ left, fs.locate .target ((v.child n).path roots) =
      fs.followLinks .target left l [.name n] := by
  have hrow := mem_entries_of_find? hentry
  obtain ⟨entries, hlist⟩ := hopen.list_parent hreached
  obtain ⟨m, hlookup, _⟩ := Walk.list_eq_ok hlist
  have hm : m = l := hreached.locate hnamed (hopen.of_within (within_child v n))
    (fun _ => Entry.noConfusion) (FileSystem.lookup_eq_ok_iff.mp hlookup).1
  rw [hm] at hlookup
  rw [path_child] at hshort ⊢
  obtain ⟨left, _, hlocate⟩ := FileSystem.locate_join_eq hlookup
    (hnamed _ hrow n (by simp)) (hspelled _ hrow n (by simp)).1 hshort
  exact ⟨left, hlocate⟩

/-- **What can be listed and searched can be resolved**: a file or a directory is
found where it is. -/
theorem Searchable.lookup (hsearchable : Searchable fs roots)
    (hreached : Reached fs roots v l entry) (hopen : Open fs roots v)
    (hplain : ∀ target, entry ≠ .link target)
    (hshort : Text.byteCount (v.path roots).text < FileSystem.pathLimit) :
    fs.lookup .target (v.path roots) = .ok (l, entry) := by
  cases hreached with
  | @root i root l hget hlookup =>
      rw [path_root hget]
      exact hlookup
  | @child v l n entry hparent hentry =>
      obtain ⟨left, hlocate⟩ := hparent.locate_child hnamed hspelled hentry hopen hshort
      obtain ⟨entries, hlist⟩ := hopen.list_parent hparent
      have hgrants := hsearchable v l entries hparent (hopen.of_within (within_child v n)) hlist
      have hpermits := FileSystem.permits_of_grants hgrants (.name n)
      have hlength := (hspelled _ (mem_entries_of_find? hentry) n (by simp)).2
      have hunclosed : ¬ (Access.target = .creation ∧ ([] : List PathStep) = [.close]) := by simp
      have hfollow : fs.followLinks .target left l [.name n] = .ok (l ++ [n]) := by
        cases left with
        | zero =>
            exact FileSystem.follow_name hparent.find? hpermits hunclosed hlength hentry hplain
        | succ left =>
            exact FileSystem.follow_name hparent.find? hpermits hunclosed hlength hentry hplain
      exact FileSystem.lookup_eq_ok_iff.mpr ⟨hlocate.trans hfollow, hentry⟩

/-- **Small trees without links** have no place to which anything could block the
way, if no directory refuses to be searched. -/
theorem Unhindered.of_small {size : Nat}
    (hroots : ∀ root ∈ roots, Text.byteCount root.text + size < FileSystem.pathLimit)
    (hsize : ∀ row ∈ fs.entries, bytes row.1 ≤ size)
    (hplain : ∀ row ∈ fs.entries, row.2.kind ≠ .link)
    (hsearchable : Searchable fs roots) : Unhindered fs roots := by
  have hshort : ∀ v l entry, Reached fs roots v l entry →
      Text.byteCount (v.path roots).text < FileSystem.pathLimit := by
    intro v l entry hreached
    have hpath := byteCount_path_le roots v
    obtain ⟨root, _, hget, _⟩ := hreached.exists_root
    have hroot := hroots root (List.mem_of_getElem? hget)
    rw [List.getD_eq_getElem?_getD, hget, Option.getD_some] at hpath
    have hnames : bytes v.names ≤ size := by
      cases hreached with
      | root => exact Nat.zero_le size
      | @child v l n entry hparent hentry =>
          have hrow := hsize _ (mem_entries_of_find? hentry)
          obtain ⟨base, hbase⟩ := (hparent.child hentry).names_suffix
          rw [← hbase, bytes, List.map_append, List.sum_append] at hrow
          exact Nat.le_of_add_left_le hrow
    omega
  refine ⟨fun v l entry hreached _ => hshort v l entry hreached, ?_, ?_⟩
  · intro v l n target _ _ hentry
    exact absurd rfl (hplain _ (mem_entries_of_find? hentry))
  · intro v l entry hreached hopen hleads
    by_cases hlink : ∃ target, entry = .link target
    · obtain ⟨k, _, hk, _⟩ := leadsToFile_iff.mp (hleads hlink)
      exact Option.ne_none_iff_exists'.mpr ⟨k, hk⟩
    · have hlookup := hsearchable.lookup hnamed hspelled hreached hopen
        (fun target htarget => hlink ⟨target, htarget⟩) (hshort v l entry hreached)
      exact Option.ne_none_iff_exists'.mpr ⟨l, FileSystem.canonical?_of_lookup hlookup⟩

variable (hunhindered : Unhindered fs roots)

include hunhindered

/-- **All paths of one place lead to the same place.** -/
theorem Unhindered.locate_eq (hv : Reached fs roots v l entry) (hvopen : Open fs roots v)
    (hu : Reached fs roots u l entry) (huopen : Open fs roots u) :
    fs.locate .target (v.path roots) = fs.locate .target (u.path roots) := by
  by_cases hlink : ∃ target, entry = .link target
  · obtain ⟨target, rfl⟩ := hlink
    obtain ⟨v', k, n, rfl, rfl, hvparent⟩ := hv.parent_of_leaf Entry.noConfusion
    obtain ⟨u', k', n', rfl, hplace, huparent⟩ := hu.parent_of_leaf Entry.noConfusion
    obtain ⟨rfl, hname⟩ := List.append_inj' hplace rfl
    obtain rfl : n = n' := (List.cons.inj hname).1
    have hentry := hv.find?
    obtain ⟨a, hva⟩ := hvparent.locate_child hnamed hspelled hentry hvopen
      (hunhindered.short _ _ _ hv hvopen)
    obtain ⟨b, hub⟩ := huparent.locate_child hnamed hspelled hentry huopen
      (hunhindered.short _ _ _ hu huopen)
    have hvend := hunhindered.endless _ _ _ _ hvparent hvopen hentry
    have huend := hunhindered.endless _ _ _ _ huparent huopen hentry
    rw [hva] at hvend ⊢
    rw [hub] at huend ⊢
    -- The path with fewer links to spare does the same with more of them.
    have hspare : ∀ few many, few ≤ many →
        (fs.followLinks .target few k [.name n] = .error .tooManyLinks →
          ∀ links, fs.followLinks .target links k [.name n] = .error .tooManyLinks) →
        fs.followLinks .target few k [.name n] = fs.followLinks .target many k [.name n] := by
      intro few many hle hend
      by_cases hrefused : fs.followLinks .target few k [.name n] = .error .tooManyLinks
      · rw [hrefused, hend hrefused many]
      · exact (FileSystem.followLinks_more hle hrefused).symm
    rcases Nat.le_total a b with hle | hle
    · exact hspare a b hle hvend
    · exact (hspare b a hle huend).symm
  · have hplain : ∀ target, entry ≠ .link target := fun target h => hlink ⟨target, h⟩
    have hvlookup := hunhindered.lookup hnamed hv hvopen hplain
    have hulookup := hunhindered.lookup hnamed hu huopen hplain
    rw [(FileSystem.lookup_eq_ok_iff.mp hvlookup).1, (FileSystem.lookup_eq_ok_iff.mp hulookup).1]

/-- All paths of one place resolve alike. -/
theorem Unhindered.canonical?_eq (hv : Reached fs roots v l entry) (hvopen : Open fs roots v)
    (hu : Reached fs roots u l entry) (huopen : Open fs roots u) :
    fs.canonical? (v.path roots) = fs.canonical? (u.path roots) := by
  have hsame := hunhindered.locate_eq hnamed hspelled hv hvopen hu huopen
  simp only [FileSystem.canonical?, FileSystem.lookup, hsame]

end

/-- The way to a grafted place is open. -/
theorem Open.graft (hnamed : fs.WellNamed) (hunhindered : Unhindered fs roots) {root : Path}
    (hreached : Reached fs others v l entry)
    (hopen : Open fs others v) (hroot : others[v.root]? = some root)
    (hlookup : fs.lookup .target root = .ok (k, .directory))
    (hu : Reached fs roots u k .directory) (huopen : Open fs roots u) :
    Open fs roots (v.graft u) := by
  induction hreached with
  | root =>
      rw [Visit.graft, List.append_nil]
      exact huopen
  | @child v l n entry hparent hentry ih =>
      have hway := ih (hopen.of_within (within_child v n)) hroot
      obtain ⟨entries, hlist⟩ := hopen.list_parent hparent
      obtain ⟨m, hother, _⟩ := Walk.list_eq_ok hlist
      obtain rfl := hparent.locate hnamed (hopen.of_within (within_child v n))
        (fun _ => Entry.noConfusion) (FileSystem.lookup_eq_ok_iff.mp hother).1
      -- The directory can be listed by its other path as well.
      have hown := hunhindered.lookup hnamed (hparent.graft hroot hlookup hu) hway
        (fun _ => Entry.noConfusion)
      have hsame : fs.list ((v.graft u).path roots) = fs.list (v.path others) := by
        simp only [FileSystem.list, hown, hother]
      rw [graft_child]
      exact hway.child (hsame.trans hlist) n

/-! ## Roots that overlap -/

/-- Roots with others that reach nothing else: the roots themselves, and further
directories that are reached from them on open ways. -/
structure Overlaps (fs : FileSystem) (roots others : List Path) : Prop where
  kept : ∀ root ∈ roots, root ∈ others
  added : ∀ root ∈ others, root ∈ roots ∨ ∃ v l, Reached fs roots v l .directory ∧
    Open fs roots v ∧ fs.lookup .target root = .ok (l, .directory)

namespace Overlaps

variable (hoverlaps : Overlaps fs roots others)

include hoverlaps

/-- A place below the roots is a place below the others, under the same root. -/
theorem exists_under (hreached : Reached fs roots v l entry) :
    ∃ j : Nat, roots[v.root]? = others[j]? := by
  obtain ⟨root, _, hget, _⟩ := hreached.exists_root
  obtain ⟨j, hj⟩ := List.mem_iff_getElem?.mp
    (hoverlaps.kept root (List.mem_of_getElem? hget))
  exact ⟨j, hget.trans hj.symm⟩

/-- Where nothing gets in the way of the others, nothing does of the roots. -/
theorem unhindered (hunhindered : Unhindered fs others) : Unhindered fs roots where
  short := by
    intro v l entry hreached hopen
    obtain ⟨j, hj⟩ := hoverlaps.exists_under hreached
    have hshort := hunhindered.short _ l entry (hreached.under hj) (hopen.under hj)
    rwa [path_under hj] at hshort
  endless := by
    intro v l n target hreached hopen hentry
    obtain ⟨j, hj⟩ := hoverlaps.exists_under hreached
    have hj' : roots[(v.child n).root]? = others[j]? := hj
    have hendless := hunhindered.endless (v.under j) l n target (hreached.under hj)
      (hopen.under hj') hentry
    rwa [← under_child, path_under hj'] at hendless
  resolved := by
    intro v l entry hreached hopen
    obtain ⟨j, hj⟩ := hoverlaps.exists_under hreached
    have hresolved := hunhindered.resolved _ l entry (hreached.under hj) (hopen.under hj)
    rwa [path_under hj] at hresolved

/-- **A place below the others** is at the location of a place below the roots. -/
theorem exists_twin (hnamed : fs.WellNamed) (hunhindered : Unhindered fs others)
    (hreached : Reached fs others v l entry) (hopen : Open fs others v) :
    ∃ u, Reached fs roots u l entry ∧ Open fs roots u := by
  obtain ⟨root, _, hget, _⟩ := hreached.exists_root
  rcases hoverlaps.added root (List.mem_of_getElem? hget) with hkept | ⟨u, k, hu, huopen, hlookup⟩
  · obtain ⟨j, hj⟩ := List.mem_iff_getElem?.mp hkept
    exact ⟨_, hreached.under (hget.trans hj.symm), hopen.under (hget.trans hj.symm)⟩
  · exact ⟨_, hreached.graft hget hlookup hu,
      hopen.graft hnamed (hoverlaps.unhindered hunhindered) hreached hget hlookup hu huopen⟩

end Overlaps

/-! ## Files that are selected -/

variable {criteria : Criteria} {pattern : Pattern}

/-- The location of a file that is selected. -/
def Selected (fs : FileSystem) (roots : List Path) (criteria : Criteria) (pattern : Pattern)
    (l : Location) : Prop :=
  ∃ v, Eligible fs roots criteria pattern v ∧ Open fs roots v ∧
    fs.canonical? (v.path roots) = some l

/-- The base name of a place is the last name of its location. -/
theorem Reached.baseName_eq (hnamed : fs.WellNamed) (hreached : Reached fs roots v l entry)
    (hopen : Open fs roots v) (hleaf : entry ≠ .directory) :
    ∃ k, l = k ++ [(v.path roots).baseName] := by
  obtain ⟨u, k, n, rfl, rfl, hparent⟩ := hreached.parent_of_leaf hleaf
  obtain ⟨entries, hlist⟩ := hopen.list_parent hparent
  obtain ⟨m, hlookup, _⟩ := Walk.list_eq_ok hlist
  have hne := (FileSystem.locate_eq_ok_iff.mp (FileSystem.lookup_eq_ok_iff.mp hlookup).1).2.1
  have hname : ProperName n := hnamed _ (mem_entries_of_find? hreached.find?) n (by simp)
  refine ⟨k, ?_⟩
  rw [path_child, Path.baseName_join hne hname]

/-- A place is eligible below the same root at any position. -/
theorem Eligible.under {j : Nat} (hroot : roots[v.root]? = others[j]?)
    (heligible : Eligible fs roots criteria pattern v) :
    Eligible fs others criteria pattern (v.under j) where
  regular := by
    obtain ⟨l, entry, hreached, hregular⟩ := heligible.regular
    exact ⟨l, entry, hreached.under hroot, by rwa [path_under hroot]⟩
  unexcluded := by
    rw [path_under hroot]
    exact heligible.unexcluded
  matching := by
    rw [path_under hroot]
    exact heligible.matching

/-- **Whether a place is eligible depends on its location alone.** -/
theorem Eligible.of_same_place (hnamed : fs.WellNamed) (hspelled : fs.Spellable)
    (hunhindered : Unhindered fs roots)
    (heligible : Eligible fs roots criteria pattern v) (hvopen : Open fs roots v)
    (hv : Reached fs roots v l entry) (hu : Reached fs roots u l entry)
    (huopen : Open fs roots u) : Eligible fs roots criteria pattern u := by
  obtain ⟨k, other, hreached, hleaf⟩ := heligible.leaf
  obtain rfl := hreached.entry_unique hv
  obtain ⟨i, hvname⟩ := hv.baseName_eq hnamed hvopen hleaf
  obtain ⟨i', huname⟩ := hu.baseName_eq hnamed huopen hleaf
  have hname : (u.path roots).baseName = (v.path roots).baseName :=
    (List.cons.inj (List.append_inj' (huname.symm.trans hvname) rfl).2).1
  have hsame := hunhindered.canonical?_eq hnamed hspelled hv hvopen hu huopen
  refine ⟨⟨l, other, hu, ?_⟩, hname ▸ heligible.unexcluded, hname ▸ heligible.matching⟩
  obtain ⟨m, entry, hm, hregular⟩ := heligible.regular
  obtain rfl := hm.entry_unique hv
  refine hregular.imp_right ?_
  rintro ⟨hlink, hfile⟩
  refine ⟨hlink, ?_⟩
  rw [leadsToFile_iff, hsame] at hfile
  exact leadsToFile_iff.mpr hfile

/-- **Roots that overlap select the same files.** -/
theorem Overlaps.selected_iff (hoverlaps : Overlaps fs roots others) (hnamed : fs.WellNamed)
    (hspelled : fs.Spellable) (hunhindered : Unhindered fs others) :
    Selected fs others criteria pattern l ↔ Selected fs roots criteria pattern l := by
  constructor
  · rintro ⟨v, heligible, hopen, hl⟩
    obtain ⟨k, entry, hreached, _⟩ := heligible.leaf
    obtain ⟨u, hu, huopen⟩ := hoverlaps.exists_twin hnamed hunhindered hreached hopen
    obtain ⟨j, hj⟩ := hoverlaps.exists_under hu
    have hmoved := heligible.of_same_place hnamed hspelled hunhindered hopen hreached (hu.under hj)
      (huopen.under hj)
    have hsame := hunhindered.canonical?_eq hnamed hspelled hreached hopen (hu.under hj)
      (huopen.under hj)
    have hback : others[(u.under j).root]? = roots[u.root]? := hj.symm
    have hown : Eligible fs roots criteria pattern ((u.under j).under u.root) :=
      hmoved.under hback
    refine ⟨u, hown, huopen, ?_⟩
    rw [← path_under hj, ← hsame, hl]
  · rintro ⟨v, heligible, hopen, hl⟩
    obtain ⟨k, entry, hreached, _⟩ := heligible.leaf
    obtain ⟨j, hj⟩ := hoverlaps.exists_under hreached
    exact ⟨v.under j, heligible.under hj, hopen.under hj, by rwa [path_under hj]⟩

end LicenseHeaders.Visit

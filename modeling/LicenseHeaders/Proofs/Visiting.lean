import LicenseHeaders.Proofs.NameOrder
import LicenseHeaders.Proofs.Termination

/-!
# Places below the roots

A place below a root is given by the root and the names that lead down from it.
It is reached when all that lies in between is real directories.  Places come in
the order of their roots, and below one root depth first, with the entries of a
directory in the order of the bytes of their names: that is the lexicographic
order of the names.

* `lookup_entry_of_directory` — a root is a directory or a link to one;
* `reached_child_iff` — what is reached in a directory;
* `precedes_child` — all that is below one entry comes before all that is below
  a later one;
* `Reached.locate` — a place is found by its path where it is, if the directories
  on the way can be listed.
-/

namespace LicenseHeaders.FileSystem

variable {fs : FileSystem} {access : Access}
variable {onLink onLink' : Location → Path → List PathStep → Except Cause Location}

/-! ## The entry itself -/

/-- Following a path to its entry ends where following it to its target ends, or
at a link before. -/
theorem follow_entry {l r : Location} {steps : List PathStep}
    (hlink : ∀ l target rest, onLink l target rest = .ok r → ∃ k, onLink' l target rest = .ok k ∧
      (k = r ∨ ∃ target, fs.find? k = some (.link target)))
    (hok : fs.follow .target onLink l steps = .ok r) :
    ∃ k, fs.follow .entry onLink' l steps = .ok k ∧
      (k = r ∨ ∃ target, fs.find? k = some (.link target)) := by
  induction steps generalizing l with
  | nil =>
      rw [follow, Except.ok.injEq] at hok
      exact ⟨l, rfl, .inl hok⟩
  | cons step rest ih =>
      have hopen : ¬ (Access.entry = .creation ∧ rest = [.close]) := fun h => Access.noConfusion h.1
      obtain ⟨hdir, hpermits, ⟨hstay, hrest⟩ | ⟨rfl, hrest⟩ | ⟨n, rfl, hlength, hcase⟩⟩ :=
        follow_cons_ok hok
      · rcases hstay with rfl | rfl
        · rw [follow_here hdir hpermits]
          exact ih hrest
        · rw [follow_close hdir]
          exact ih hrest
      · rw [follow_up hdir hpermits]
        exact ih hrest
      · rcases hcase with ⟨hnone, rfl, rfl⟩ | ⟨target, hfound, ⟨_, haccess, _⟩ | ⟨_, hlinked⟩⟩ |
          ⟨entry, hfound, hplain, hrest⟩
        · refine ⟨l ++ [n], ?_, .inl rfl⟩
          simp only [follow, hdir, hpermits, if_true, if_neg hopen,
            if_neg (Nat.not_lt.mpr hlength), hnone]
        · cases haccess
        · -- A link is the entry itself when it comes last.
          by_cases hlast : rest = []
          · subst hlast
            refine ⟨l ++ [n], ?_, .inr ⟨target, hfound⟩⟩
            simp only [follow, hdir, hpermits, if_true, if_neg hopen,
              if_neg (Nat.not_lt.mpr hlength), hfound, and_self]
          · rw [follow_link hdir hpermits hopen hlength hfound (fun h => hlast h.1)]
            exact hlink l target rest hlinked
        · rw [follow_name hdir hpermits hopen hlength hfound hplain]
          exact ih hrest

/-- **A path that leads to a directory** is that directory or a link. -/
theorem lookup_entry_of_directory {p : Path} {l : Location}
    (hlookup : fs.lookup .target p = .ok (l, .directory)) :
    ∃ k entry, fs.lookup .entry p = .ok (k, entry) ∧
      (entry = .directory ∨ ∃ target, entry = .link target) := by
  obtain ⟨hlocate, hdir⟩ := lookup_eq_ok_iff.mp hlookup
  obtain ⟨hzero, hempty, hshort, hfollow⟩ := locate_eq_ok_iff.mp hlocate
  have hentry : ∀ links l r steps, fs.followLinks .target links l steps = .ok r →
      ∃ k, fs.followLinks .entry links l steps = .ok k ∧
        (k = r ∨ ∃ target, fs.find? k = some (.link target)) := by
    intro links
    induction links with
    | zero => exact fun l r steps => follow_entry fun _ _ _ hlinked => by cases hlinked
    | succ links ih => exact fun l r steps => follow_entry fun _ _ _ hlinked => ih _ _ _ hlinked
  obtain ⟨k, hk, hcase⟩ := hentry _ _ _ _ hfollow
  have hlocate' : fs.locate .entry p = .ok k := locate_eq_ok_iff.mpr ⟨hzero, hempty, hshort, hk⟩
  rcases hcase with rfl | ⟨target, hlink⟩
  · exact ⟨k, _, lookup_eq_ok_iff.mpr ⟨hlocate', hdir⟩, .inl rfl⟩
  · exact ⟨k, _, lookup_eq_ok_iff.mpr ⟨hlocate', hlink⟩, .inr ⟨target, rfl⟩⟩

end LicenseHeaders.FileSystem

namespace LicenseHeaders

/-- A place below a root: the number of the root, and the names from there. -/
@[ext] structure Visit where
  root : Nat
  names : List Name
  deriving DecidableEq

namespace Visit

/-- The path of a place. -/
def path (roots : List Path) (v : Visit) : Path :=
  v.names.foldl Path.join (roots.getD v.root ⟨[]⟩)

/-- A place directly below another one. -/
def child (v : Visit) (n : Name) : Visit := ⟨v.root, v.names ++ [n]⟩

/-- A place at or below another one. -/
def Within (u v : Visit) : Prop := u.root = v.root ∧ v.names <+: u.names

/-- **The order of visiting**: by root, then depth first by the bytes of names. -/
def Before (v u : Visit) : Prop :=
  v.root < u.root ∨ v.root = u.root ∧ List.Lex Name.Below v.names u.names

/-- All that is at or below one place comes before all that is at or below
another. -/
def Precedes (v u : Visit) : Prop := ∀ p q : Visit, p.Within v → q.Within u → p.Before q

/-- A place that is reached, with its location and the entry there: from a root,
which can be a link to a directory, through real directories only. -/
inductive Reached (fs : FileSystem) (roots : List Path) : Visit → Location → Entry → Prop where
  | root {i : Nat} {root : Path} {l : Location} (hroot : roots[i]? = some root)
      (hlookup : fs.lookup .target root = .ok (l, .directory)) :
      Reached fs roots ⟨i, []⟩ l .directory
  | child {v : Visit} {l : Location} {n : Name} {entry : Entry}
      (hparent : Reached fs roots v l .directory) (hentry : fs.find? (l ++ [n]) = some entry) :
      Reached fs roots (v.child n) (l ++ [n]) entry

/-- All directories that are reached can be listed. -/
def Listable (fs : FileSystem) (roots : List Path) : Prop :=
  ∀ v l, Reached fs roots v l .directory → ∃ entries, fs.list (v.path roots) = .ok entries

@[simp] theorem child_root (v : Visit) (n : Name) : (v.child n).root = v.root := rfl
@[simp] theorem child_names (v : Visit) (n : Name) : (v.child n).names = v.names ++ [n] := rfl

/-- The path of a child is that of its parent with its name. -/
@[simp] theorem path_child (roots : List Path) (v : Visit) (n : Name) :
    (v.child n).path roots = (v.path roots).join n := by
  rw [path, path, child_names, child_root, List.foldl_append]
  rfl

/-- The path of a root is that root. -/
theorem path_root {roots : List Path} {i : Nat} {root : Path} (hget : roots[i]? = some root) :
    path roots ⟨i, []⟩ = root := by
  rw [path, List.foldl_nil, List.getD_eq_getElem?_getD, hget, Option.getD_some]

/-! ## Places within places -/

theorem Within.refl (v : Visit) : v.Within v := ⟨rfl, List.prefix_rfl⟩

theorem Within.trans {u v w : Visit} (huv : u.Within v) (hvw : v.Within w) : u.Within w :=
  ⟨huv.1.trans hvw.1, hvw.2.trans huv.2⟩

theorem within_child (v : Visit) (n : Name) : (v.child n).Within v :=
  ⟨rfl, List.prefix_append _ _⟩

/-- What is within a place is the place itself or within one directly below. -/
theorem within_iff {q v : Visit} : q.Within v ↔ q = v ∨ ∃ n, q.Within (v.child n) := by
  constructor
  · rintro ⟨hroot, rest, hnames⟩
    cases rest with
    | nil =>
        rw [List.append_nil] at hnames
        exact .inl (Visit.ext hroot hnames.symm)
    | cons n rest =>
        exact .inr ⟨n, hroot, rest, by rw [child_names, List.append_assoc]; exact hnames⟩
  · rintro (rfl | ⟨n, hwithin⟩)
    · exact Within.refl q
    · exact hwithin.trans (within_child v n)

/-! ## The order -/

/-- Places within two places are in the order of these. -/
theorem Precedes.mono {v v' u u' : Visit} (hprecedes : v.Precedes u) (hv : v'.Within v)
    (hu : u'.Within u) : v'.Precedes u' :=
  fun p q hp hq => hprecedes p q (hp.trans hv) (hq.trans hu)

/-- **Depth first**: all that is below one entry comes before all that is below a
later one. -/
theorem precedes_child (v : Visit) {n m : Name} (hbelow : Name.Below n m) :
    (v.child n).Precedes (v.child m) := by
  rintro p q ⟨hp, s, hs⟩ ⟨hq, t, ht⟩
  have hnames : List.Lex Name.Below (v.names ++ n :: s) (v.names ++ m :: t) :=
    List.Lex.append_left _ (.rel hbelow) _
  rw [List.append_cons, List.append_cons v.names m t] at hnames
  rw [child_names] at hs ht
  exact .inr ⟨hp.trans hq.symm, hs ▸ ht ▸ hnames⟩

/-! ## What is reached -/

variable {fs : FileSystem} {roots : List Path}

/-- What is reached is found at its location. -/
theorem Reached.find? {v : Visit} {l : Location} {entry : Entry}
    (hreached : Reached fs roots v l entry) : fs.find? l = some entry := by
  cases hreached with
  | root _ hlookup => exact (FileSystem.lookup_eq_ok_iff.mp hlookup).2
  | child _ hentry => exact hentry

/-- **What is reached in a directory** is what is found there. -/
theorem reached_child_iff {v : Visit} {n : Name} {k : Location} {entry : Entry} :
    Reached fs roots (v.child n) k entry ↔
      ∃ l, Reached fs roots v l .directory ∧ k = l ++ [n] ∧ fs.find? k = some entry := by
  constructor
  · intro hreached
    generalize hu : v.child n = u at hreached
    cases hreached with
    | root => simp [child] at hu
    | @child w l m entry hparent hentry =>
        obtain ⟨hroot, hnames⟩ := Visit.mk.inj hu
        obtain ⟨hinit, hlast⟩ := List.append_inj' hnames rfl
        obtain rfl : v = w := Visit.ext hroot hinit
        obtain rfl : n = m := (List.cons.inj hlast).1
        exact ⟨l, hparent, rfl, hentry⟩
  · rintro ⟨l, hparent, rfl, hentry⟩
    exact .child hparent hentry

/-- What is no directory is reached in one. -/
theorem Reached.parent_of_leaf {v : Visit} {l : Location} {entry : Entry}
    (hreached : Reached fs roots v l entry) (hleaf : entry ≠ .directory) :
    ∃ (u : Visit) (k : Location) (n : Name), v = u.child n ∧ l = k ++ [n] ∧
      Reached fs roots u k .directory := by
  cases hreached with
  | root => exact absurd rfl hleaf
  | @child u k n _ hparent _ => exact ⟨u, k, n, rfl, rfl, hparent⟩

/-- A root is reached when it leads to a directory. -/
theorem reached_root_iff {i : Nat} {l : Location} {entry : Entry} :
    Reached fs roots ⟨i, []⟩ l entry ↔
      ∃ root, roots[i]? = some root ∧ fs.lookup .target root = .ok (l, .directory) ∧
        entry = .directory := by
  constructor
  · intro hreached
    generalize hu : (⟨i, []⟩ : Visit) = u at hreached
    cases hreached with
    | root hroot hlookup =>
        cases hu
        exact ⟨_, hroot, hlookup, rfl⟩
    | child => simp [child] at hu
  · rintro ⟨root, hroot, hlookup, rfl⟩
    exact .root hroot hlookup

/-- A place is reached at one location only. -/
theorem Reached.unique {v : Visit} {l k : Location} {entry other : Entry}
    (hl : Reached fs roots v l entry) (hk : Reached fs roots v k other) : l = k := by
  induction hl generalizing k other with
  | root hroot hlookup =>
      obtain ⟨root, hroot', hlookup', _⟩ := reached_root_iff.mp hk
      cases hroot.symm.trans hroot'
      cases hlookup.symm.trans hlookup'
      rfl
  | child _ _ ih =>
      obtain ⟨k', hparent, rfl, _⟩ := reached_child_iff.mp hk
      rw [ih hparent]

/-- A place has one entry. -/
theorem Reached.entry_unique {v : Visit} {l k : Location} {entry other : Entry}
    (hl : Reached fs roots v l entry) (hk : Reached fs roots v k other) : entry = other := by
  have hfound := hl.find?
  rw [hl.unique hk, hk.find?] at hfound
  exact (Option.some.inj hfound).symm

/-- The way to a place that is reached is reached as well. -/
theorem Reached.of_within {q v : Visit} {k : Location} {entry : Entry}
    (hreached : Reached fs roots q k entry) (hwithin : q.Within v) :
    ∃ l other, Reached fs roots v l other := by
  induction hreached generalizing v with
  | @root i root l hroot hlookup =>
      obtain ⟨hroots, hnames⟩ := hwithin
      have hnil : v.names = [] := List.prefix_nil.mp hnames
      obtain rfl : v = ⟨i, []⟩ := Visit.ext hroots.symm hnil
      exact ⟨l, _, .root hroot hlookup⟩
  | @child u l n entry hparent hentry ih =>
      obtain ⟨hroots, hnames⟩ := hwithin
      rcases List.prefix_concat_iff.mp hnames with hsame | hprefix
      · obtain rfl : v = u.child n := Visit.ext hroots.symm hsame
        exact ⟨_, _, .child hparent hentry⟩
      · exact ih ⟨hroots, hprefix⟩

/-- What is reached lies below a root that leads to a directory. -/
theorem Reached.exists_root {v : Visit} {l : Location} {entry : Entry}
    (hreached : Reached fs roots v l entry) :
    ∃ root k, roots[v.root]? = some root ∧ fs.lookup .target root = .ok (k, .directory) := by
  obtain ⟨k, _, hfirst⟩ := hreached.of_within (v := ⟨v.root, []⟩) ⟨rfl, List.nil_prefix⟩
  obtain ⟨root, hget, hlookup, _⟩ := reached_root_iff.mp hfirst
  exact ⟨root, k, hget, hlookup⟩

/-- Nothing is reached below a place that is no directory. -/
theorem eq_of_within {q v : Visit} {k l : Location} {entry other : Entry}
    (hq : Reached fs roots q k other) (hv : Reached fs roots v l entry)
    (hleaf : entry ≠ .directory) (hwithin : q.Within v) : q = v := by
  rcases within_iff.mp hwithin with hsame | ⟨n, hbelow⟩
  · exact hsame
  · obtain ⟨_, _, hchild⟩ := hq.of_within hbelow
    obtain ⟨l', hdirectory, _, _⟩ := reached_child_iff.mp hchild
    exact absurd (hv.entry_unique hdirectory) hleaf

/-! ## Listings -/

/-- Where something is found below the root, there is a row for it. -/
theorem mem_entries_of_find? {l : Location} {n : Name} {entry : Entry}
    (hfind : fs.find? (l ++ [n]) = some entry) : (l ++ [n], entry) ∈ fs.entries := by
  rw [FileSystem.find?, if_neg (by simp)] at hfind
  obtain ⟨row, hrow, rfl⟩ := Option.map_eq_some_iff.mp hfind
  have hkey : row.1 = l ++ [n] := by simpa using List.find?_some hrow
  rw [← hkey]
  exact List.mem_of_find?_eq_some hrow

/-- What is in a directory is in its listing. -/
theorem mem_children_of_find? {l : Location} {n : Name} {entry : Entry}
    (hfind : fs.find? (l ++ [n]) = some entry) : (n, entry.kind) ∈ fs.children l :=
  FileSystem.mem_children_iff.mpr ⟨entry, mem_entries_of_find? hfind, rfl⟩

/-! ## The way to a place -/

/-- The way to a place is open when all directories on it can be listed. -/
def Open (fs : FileSystem) (roots : List Path) (v : Visit) : Prop :=
  ∀ u l, v.Within u → u ≠ v → Reached fs roots u l .directory →
    ∃ entries, fs.list (u.path roots) = .ok entries

theorem open_root (fs : FileSystem) (roots : List Path) (i : Nat) : Open fs roots ⟨i, []⟩ := by
  rintro ⟨j, names⟩ l ⟨hroot, hnames⟩ hne
  exact absurd (Visit.ext hroot.symm (List.prefix_nil.mp hnames)) hne

/-- **The way into a directory** that can be listed is open if the way to the
directory is. -/
theorem Open.child {v : Visit} (hopen : Open fs roots v) {entries : List (Name × Kind)}
    (hlist : fs.list (v.path roots) = .ok entries) (n : Name) : Open fs roots (v.child n) := by
  intro u l hwithin hne hreached
  by_cases hsame : u = v
  · exact ⟨entries, hsame ▸ hlist⟩
  · refine hopen u l ?_ hsame hreached
    rcases List.prefix_concat_iff.mp hwithin.2 with hlast | hprefix
    · exact absurd (Visit.ext hwithin.1.symm hlast) hne
    · exact ⟨hwithin.1, hprefix⟩

/-- The way to a place is open when the way to one within it is. -/
theorem Open.of_within {u v : Visit} (hopen : Open fs roots v) (hwithin : v.Within u) :
    Open fs roots u := by
  intro w l hw hne hreached
  refine hopen w l (hwithin.trans hw) ?_ hreached
  rintro rfl
  exact hne (Visit.ext hwithin.1 (hw.2.eq_of_length_le hwithin.2.length_le))

/-- The directory that holds a place can be listed when the way there is open. -/
theorem Open.list_parent {v : Visit} {n : Name} {l : Location} (hopen : Open fs roots (v.child n))
    (hreached : Reached fs roots v l .directory) :
    ∃ entries, fs.list (v.path roots) = .ok entries := by
  refine hopen v l (within_child v n) (fun hsame => ?_) hreached
  have hlength := congrArg (fun v => v.names.length) hsame
  simp at hlength

/-- **A place is found where it is** when the way there is open and it can be
followed at all; a link leads on from there. -/
theorem Reached.locate (hnamed : fs.WellNamed) {v : Visit} {l k : Location} {entry : Entry}
    (hreached : Reached fs roots v l entry) (hopen : Open fs roots v)
    (hplain : ∀ target, entry ≠ .link target)
    (hlocate : fs.locate .target (v.path roots) = .ok k) : k = l := by
  induction hreached generalizing k with
  | @root i root l hroot hlookup =>
      rw [path_root hroot, (FileSystem.lookup_eq_ok_iff.mp hlookup).1] at hlocate
      exact (Except.ok.inj hlocate).symm
  | @child v l n entry hparent hentry ih =>
      obtain ⟨entries, hlist⟩ := hopen.list_parent hparent
      obtain ⟨m, hlookup, _⟩ := Walk.list_eq_ok hlist
      obtain rfl := ih (hopen.of_within (within_child v n)) (fun _ => Entry.noConfusion)
        (FileSystem.lookup_eq_ok_iff.mp hlookup).1
      have hname : ProperName n :=
        hnamed _ (mem_entries_of_find? hentry) n (by simp)
      rw [path_child] at hlocate
      exact FileSystem.locate_join hlookup hname hentry hplain hlocate

end Visit

end LicenseHeaders

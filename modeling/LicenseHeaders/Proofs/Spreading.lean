import LicenseHeaders.Proofs.Creation
import LicenseHeaders.Proofs.Sharing

/-!
# Modifying a file that has several names

A file that is modified is created when it is missing, and has its new content
under all of its names.  A file that is new has no further names, because only
files have any.

* `FileSystem.Beside` — a file system in which certain files may have changed;
* `HardLinks.Spread` — the names of certain files;
* `HardLinks.carry_modified` — what modifying a file by its path comes to;
* `HardLinks.Filed` — only files have further names;
* `HardLinks.Holds.modified` — names that agree keep agreeing.
-/

namespace LicenseHeaders

/-! ## Beside some files -/

namespace FileSystem

/-- A file system that differs from another one in the contents of some files
only. -/
structure Beside (own : Location → Prop) (fs gs : FileSystem) : Prop where
  outline : gs.outline = fs.outline
  same : ∀ l, ¬ own l → gs.find? l = fs.find? l

namespace Beside

variable {own : Location → Prop} {fs gs hs : FileSystem}

theorem refl (own : Location → Prop) (fs : FileSystem) : Beside own fs fs := ⟨rfl, fun _ _ => rfl⟩

theorem of_eq (heq : gs = fs) : Beside own fs gs := heq ▸ refl own fs

/-- Changes beside a diff file add up. -/
theorem trans (hfirst : Beside own fs gs) (hthen : Beside own gs hs) : Beside own fs hs where
  outline := hthen.outline.trans hfirst.outline
  same := fun l hl => (hthen.same l hl).trans (hfirst.same l hl)

/-- One of these files is given a content. -/
theorem put_own {l : Location} {old : Content} (hown : own l) (content : Content)
    (hold : fs.find? l = some (.file old)) : Beside own fs (fs.put l (.file content)) where
  outline := outline_put_file content hold
  same := fun _ hk => find?_put_of_ne fun hkl => hk (hkl ▸ hown)

/-- A file is given a content on both sides. -/
theorem put (hbeside : Beside own fs gs) {l : Location} {old : Content} (content : Content)
    (hold : fs.find? l = some (.file old)) :
    Beside own (fs.put l (.file content)) (gs.put l (.file content)) where
  outline := by
    obtain ⟨other, hother⟩ := file_of_outline_eq hbeside.outline hold
    rw [outline_put_file content hother, outline_put_file content hold, hbeside.outline]
  same := by
    intro k hk
    by_cases hkl : k = l
    · subst hkl
      have hne := ne_nil_of_file hold
      rw [find?_put hne, find?_put hne]
    · rw [find?_put_of_ne hkl, find?_put_of_ne hkl, hbeside.same k hk]

/-- Files are given new contents on both sides. -/
theorem rewrite (hbeside : Beside own fs gs) {contents : List (Location × Text)}
    (hfiles : ∀ row ∈ contents, ∃ old, fs.find? row.1 = some (.file old)) :
    Beside own (fs.rewrite contents) (gs.rewrite contents) := by
  induction contents generalizing fs gs with
  | nil => exact hbeside
  | cons row rest ih =>
      obtain ⟨old, hold⟩ := hfiles row List.mem_cons_self
      refine ih (hbeside.put (.text row.2) hold) fun other hother => ?_
      obtain ⟨content, hcontent⟩ := hfiles other (List.mem_cons_of_mem _ hother)
      exact file_of_outline_eq (outline_put_file _ hold) hcontent

end Beside

end FileSystem

namespace HardLinks

open FileSystem (Beside)

variable {links : HardLinks} {own : Location → Prop} {fs written : FileSystem} {p : Path}
  {change : Content → Content} {l : Location}

/-! ## The names of certain files -/

/-- A location is a name of one of certain files. -/
def Spread (links : HardLinks) (own : Location → Prop) (l : Location) : Prop :=
  ∃ k, own k ∧ links.Names k l

/-! ## Modifying a file -/

/-- Passing on a content changes contents only. -/
theorem outline_carry (links : HardLinks) (p : Path) (fs : FileSystem) :
    (links.carry p fs).outline = fs.outline := by
  unfold carry
  split
  · exact outline_share links _ fs
  · rfl

/-- **A file is modified where its path leads**, under all of its names. -/
theorem carry_modified (links : HardLinks) (hmodify : fs.modifyFile p change = .ok written) :
    ∃ l old, fs.locate .creation p = .ok l ∧
      (fs.find? l = none ∨ fs.find? l = some (.file old)) ∧
      links.carry p written = links.write fs l (change old) := by
  obtain ⟨l, old, hlocate, hplace, rfl⟩ := FileSystem.modifyFile_eq_ok hmodify
  have hnew : fs.find? l = none ∨ fs.find? l = some (.file old) := hplace.imp_left And.left
  have hne : l ≠ [] := FileSystem.ne_nil_of_place hnew
  refine ⟨l, old, hlocate, hnew, ?_⟩
  -- The path leads to what has just been put there.
  have hcreation := FileSystem.locate_creation_put (change old) hlocate
    (hnew.imp_right fun hold => ⟨old, hold⟩)
  have hlookup := FileSystem.lookup_eq_ok_iff.mpr
    ⟨FileSystem.locate_of_creation hcreation, FileSystem.find?_put hne⟩
  simp only [carry, FileSystem.canonical?_of_lookup hlookup, write]

/-- A file that has been modified is where its path leads, and what is no name of it has
been left alone. -/
theorem located_modified (links : HardLinks) (hmodify : fs.modifyFile p change = .ok written) :
    ∃ l old, (links.carry p written).locate .creation p = .ok l ∧
      (links.carry p written).find? l = some (.file (change old)) ∧
      ∀ k, ¬ links.Names l k → (links.carry p written).find? k = fs.find? k := by
  obtain ⟨l, old, hlocate, hnew, hwritten⟩ := links.carry_modified hmodify
  rw [hwritten]
  refine ⟨l, old, ?_, find?_write_self (FileSystem.ne_nil_of_place hnew),
    fun _ => find?_write_of_not_names⟩
  rw [write, FileSystem.locate_of_outline_eq (outline_share links l _)]
  exact FileSystem.locate_creation_put _ hlocate (hnew.imp_right fun hold => ⟨old, hold⟩)

/-- Modifying a file spoils no name. -/
theorem wellNamed_modified (links : HardLinks) (hnamed : fs.WellNamed)
    (hmodify : fs.modifyFile p change = .ok written) : (links.carry p written).WellNamed :=
  (hnamed.modifyFile hmodify).of_outline (outline_carry links p written)

/-- Files of certain ones that are written change them alone, under all of their
names. -/
theorem beside_write {content old : Content} (hown : own l)
    (hold : fs.find? l = some (.file old)) :
    Beside (links.Spread own) fs (links.write fs l content) where
  outline := links.outline_write hold
  same := fun _ hk => find?_write_of_not_names fun hnames => hk ⟨l, hown, hnames⟩

/-! ## New files -/

/-- Only files have further names. -/
def Filed (links : HardLinks) (fs : FileSystem) : Prop :=
  ∀ l n, links.number? l = some n → ∃ content, fs.find? l = some (.file content)

/-- Without further names none is that of anything else. -/
theorem filed_none (fs : FileSystem) : ({} : HardLinks).Filed fs :=
  fun _ _ hn => by cases hn

/-- A file has no further names before it is created. -/
theorem Filed.number?_eq_none (hfiled : links.Filed fs) (hl : fs.find? l = none) :
    links.number? l = none := by
  by_contra hnumbered
  obtain ⟨n, hn⟩ := Option.ne_none_iff_exists'.mp hnumbered
  obtain ⟨content, hcontent⟩ := hfiled l n hn
  cases hl.symm.trans hcontent

/-- A file that is created is the only name of what is written. -/
theorem Holds.create {content : Content} (hholds : links.Holds fs)
    (hl : links.number? l = none) : links.Holds (links.write fs l content) := by
  have halone : ∀ j k, k ∈ links.others j → ¬ links.Names l j ∧ ¬ links.Names l k := by
    intro j k hother
    obtain ⟨_, n, hj, hk⟩ := mem_others_iff.mp hother
    have hapart : ∀ i, links.number? i = some n → ¬ links.Names l i := by
      rintro i hi (rfl | hfurther)
      · cases hl.symm.trans hi
      · obtain ⟨_, m, hm, _⟩ := mem_others_iff.mp hfurther
        cases hl.symm.trans hm
    exact ⟨hapart j hj, hapart k hk⟩
  constructor
  · intro j k hother old hj
    obtain ⟨hfirst, hsecond⟩ := halone j k hother
    rw [find?_write_of_not_names hfirst] at hj
    rw [find?_write_of_not_names hsecond]
    exact hholds.content j k hother old hj
  · intro j k hother right
    have hgrants : ∀ i, (links.write fs l content).grants right i = fs.grants right i := by
      intro i
      rw [HardLinks.write, FileSystem.grants_of_outline_eq (outline_share links l _),
        FileSystem.grants, FileSystem.denied_put, FileSystem.grants]
    rw [hgrants, hgrants]
    exact hholds.rights j k hother right

/-- **Names that agree keep agreeing** when a file is modified or created. -/
theorem Holds.modified (hholds : links.Holds fs) (hfiled : links.Filed fs)
    (hmodify : fs.modifyFile p change = .ok written) : links.Holds (links.carry p written) := by
  obtain ⟨l, old, _, hnone | hold, hwritten⟩ := links.carry_modified hmodify
  · exact hwritten ▸ hholds.create (hfiled.number?_eq_none hnone)
  · exact hwritten ▸ hholds.write hold

end HardLinks

end LicenseHeaders

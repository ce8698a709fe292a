import LicenseHeaders.Proofs.Rewriting
import LicenseHeaders.Run.DiffOutput

/-!
# Writing a file that has several names

All names of a file are changed together, and nothing else is
(`find?_write_of_names`, `find?_write_of_not_names`).  A walk does not notice
it (`outline_write`).  Files whose names agree keep names that agree, and no
file comes to be changed that could not be read and written from the beginning.

* `HardLinks.Holds` — the names of a file have its content and its rights;
* `FileSystem.Worked` — what has changed could be worked on, and still can.
-/

namespace LicenseHeaders

namespace FileSystem

variable {fs : FileSystem} {content : Content}

/-- Refilling files changes contents only. -/
theorem outline_refill (fs : FileSystem) (content : Content) (ls : List Location) :
    (fs.refill content ls).outline = fs.outline := by
  induction ls generalizing fs with
  | nil => rfl
  | cons l rest ih =>
      rw [refill]
      split
      · next old hold => rw [ih, outline_put_file content hold]
      · exact ih fs

/-- Refilling leaves all other locations alone. -/
theorem find?_refill_of_not_mem {ls : List Location} {k : Location} (hk : k ∉ ls) :
    (fs.refill content ls).find? k = fs.find? k := by
  induction ls generalizing fs with
  | nil => rfl
  | cons l rest ih =>
      rw [List.mem_cons, not_or] at hk
      rw [refill]
      split
      · rw [ih hk.2, find?_put_of_ne hk.1]
      · exact ih hk.2

/-- A file that is refilled holds the new content. -/
theorem find?_refill_of_mem {ls : List Location} {k : Location} {old : Content} (hk : k ∈ ls)
    (hold : fs.find? k = some (.file old)) :
    (fs.refill content ls).find? k = some (.file content) := by
  induction ls generalizing fs old with
  | nil => cases hk
  | cons l rest ih =>
      rw [refill]
      by_cases hrest : k ∈ rest
      · split
        · next other hother =>
          obtain ⟨held, hheld⟩ := file_of_outline_eq (outline_put_file content hother) hold
          exact ih hrest hheld
        · exact ih hrest hold
      · obtain rfl : k = l := (List.mem_cons.mp hk).resolve_right hrest
        simp only [hold]
        rw [find?_refill_of_not_mem hrest, find?_put (ne_nil_of_file hold)]

end FileSystem

namespace HardLinks

variable {links : HardLinks} {fs gs : FileSystem} {l k : Location}

/-! ## Names -/

/-- A location is a name of the file at another one. -/
def Names (links : HardLinks) (l k : Location) : Prop := k = l ∨ k ∈ links.others l

/-- The others of a name have the same number. -/
theorem mem_others_iff :
    k ∈ links.others l ↔ k ≠ l ∧ ∃ n, links.number? l = some n ∧ links.number? k = some n := by
  have hnumbered : k ∈ links.numbers.map (·.1) ↔ ∃ n, links.number? k = some n := by
    rw [← Option.isSome_iff_exists, number?, Option.isSome_map, List.find?_isSome]
    simp [List.mem_map]
  unfold others
  rw [List.mem_filter, hnumbered, decide_eq_true_eq]
  constructor
  · rintro ⟨⟨n, hk⟩, hne, hsame⟩
    exact ⟨hne, n, hsame ▸ hk, hk⟩
  · rintro ⟨hne, n, hl, hk⟩
    exact ⟨⟨n, hk⟩, hne, hk.trans hl.symm⟩

theorem Names.symm (hnames : links.Names l k) : links.Names k l := by
  rcases hnames with rfl | hother
  · exact .inl rfl
  · obtain ⟨hne, n, hl, hk⟩ := mem_others_iff.mp hother
    exact .inr (mem_others_iff.mpr ⟨hne.symm, n, hk, hl⟩)

theorem Names.trans {j : Location} (hfirst : links.Names l k) (hthen : links.Names k j) :
    links.Names l j := by
  rcases hfirst with rfl | hfirst
  · exact hthen
  rcases hthen with rfl | hthen
  · exact .inr hfirst
  obtain ⟨_, n, hl, hk⟩ := mem_others_iff.mp hfirst
  obtain ⟨_, m, hk', hj⟩ := mem_others_iff.mp hthen
  obtain rfl : n = m := Option.some.inj (hk.symm.trans hk')
  by_cases hne : j = l
  · exact .inl hne
  · exact .inr (mem_others_iff.mpr ⟨hne, n, hl, hj⟩)

/-- Without further names a file has the one name that it is at. -/
theorem names_none_iff : ({} : HardLinks).Names l k ↔ k = l :=
  or_iff_left (List.not_mem_nil : k ∉ [])

/-! ## One file -/

/-- Gives a file a content, under all of its names. -/
def write (links : HardLinks) (fs : FileSystem) (l : Location) (content : Content) :
    FileSystem :=
  links.share l (fs.put l (.file content))

/-- Without further names nothing is passed on. -/
theorem share_none (l : Location) (fs : FileSystem) : ({} : HardLinks).share l fs = fs := by
  unfold share
  split <;> rfl

theorem write_none (fs : FileSystem) (l : Location) (content : Content) :
    ({} : HardLinks).write fs l content = fs.put l (.file content) :=
  share_none l _

@[simp] theorem carry_none (path : Path) (fs : FileSystem) :
    ({} : HardLinks).carry path fs = fs := by
  unfold carry
  split
  · exact share_none _ fs
  · rfl

@[simp] theorem carry_diff_none (d : DiffOutput) (fs : FileSystem) :
    d.carry ({} : HardLinks) fs = fs := by
  unfold DiffOutput.carry
  split
  · exact carry_none _ fs
  · rfl

/-- Sharing a content changes contents only. -/
theorem outline_share (links : HardLinks) (l : Location) (fs : FileSystem) :
    (links.share l fs).outline = fs.outline := by
  unfold share
  split
  · exact FileSystem.outline_refill fs _ _
  · rfl

section

variable {content old : Content}

/-- Writing to a file, by whichever name, changes contents only. -/
theorem outline_write (links : HardLinks) (hold : fs.find? l = some (.file old)) :
    (links.write fs l content).outline = fs.outline := by
  rw [write, outline_share, FileSystem.outline_put_file _ hold]

/-- Sharing a content leaves all but the further names alone. -/
theorem find?_share_of_not_mem (hk : k ∉ links.others l) :
    (links.share l fs).find? k = fs.find? k := by
  unfold share
  split
  · exact FileSystem.find?_refill_of_not_mem hk
  · rfl

/-- **What has another name is left alone.** -/
theorem find?_write_of_not_names (hk : ¬ links.Names l k) :
    (links.write fs l content).find? k = fs.find? k := by
  rw [Names, not_or] at hk
  rw [write, find?_share_of_not_mem hk.2, FileSystem.find?_put_of_ne hk.1]

/-- A file holds what has been written. -/
theorem find?_write_self (hl : l ≠ []) :
    (links.write fs l content).find? l = some (.file content) := by
  rw [write, find?_share_of_not_mem fun hself => (mem_others_iff.mp hself).1 rfl,
    FileSystem.find?_put hl]

/-! ## Names that agree -/

/-- The names of a file have its content and its rights. -/
structure Holds (links : HardLinks) (fs : FileSystem) : Prop where
  content : ∀ l, ∀ k ∈ links.others l, ∀ content, fs.find? l = some (.file content) →
    fs.find? k = some (.file content)
  rights : ∀ l, ∀ k ∈ links.others l, ∀ right, fs.grants right k = fs.grants right l

/-- Without further names there is nothing to agree. -/
theorem holds_none (fs : FileSystem) : ({} : HardLinks).Holds fs where
  content := fun _ _ hk => by cases hk
  rights := fun _ _ hk => by cases hk

/-- The names of files agree if those in the table do and nothing is denied for them. -/
theorem Holds.of_numbers
    (hcontent : ∀ l ∈ links.numbers.map (·.1), ∀ k ∈ links.others l, fs.find? k = fs.find? l)
    (hdenied : ∀ d ∈ fs.denied, d.1 ∉ links.numbers.map (·.1)) : links.Holds fs := by
  have hnumbered : ∀ {l k}, k ∈ links.others l → k ∈ links.numbers.map (·.1) :=
    fun hk => (List.mem_filter.mp hk).1
  have hback : ∀ {l k}, k ∈ links.others l → l ∈ links.others k := fun {l k} hk =>
    (Names.symm (.inr hk)).resolve_left (mem_others_iff.mp hk).1.symm
  have hgranted : ∀ l ∈ links.numbers.map (·.1), ∀ right, fs.grants right l = true := by
    intro l hl right
    have hnot : (l, right) ∉ fs.denied := fun hmem => hdenied _ hmem hl
    simpa [FileSystem.grants] using hnot
  constructor
  · intro l k hk content hl
    rw [hcontent l (hnumbered (hback hk)) k hk, hl]
  · intro l k hk right
    rw [hgranted k (hnumbered hk), hgranted l (hnumbered (hback hk))]

/-- All names of a file have its content. -/
theorem Holds.find? (hholds : links.Holds fs) (hnames : links.Names l k) {content : Content}
    (hl : fs.find? l = some (.file content)) : fs.find? k = some (.file content) := by
  rcases hnames with rfl | hother
  · exact hl
  · exact hholds.content l k hother content hl

/-- All names of a file have its rights. -/
theorem Holds.grants (hholds : links.Holds fs) (hnames : links.Names l k) (right : Right) :
    fs.grants right k = fs.grants right l := by
  rcases hnames with rfl | hother
  · rfl
  · exact hholds.rights l k hother right

/-- **What is written by one name is read by all of them.** -/
theorem find?_write_of_names (hholds : links.Holds fs) (hold : fs.find? l = some (.file old))
    (hk : links.Names l k) : (links.write fs l content).find? k = some (.file content) := by
  have hl : l ≠ [] := FileSystem.ne_nil_of_file hold
  rcases hk with rfl | hother
  · exact find?_write_self hl
  · unfold write share
    rw [FileSystem.find?_put hl]
    dsimp only
    have hheld : (fs.put l (.file content)).find? k = some (.file old) := by
      rw [FileSystem.find?_put_of_ne (mem_others_iff.mp hother).1]
      exact hholds.content _ _ hother _ hold
    exact FileSystem.find?_refill_of_mem hother hheld

/-- **Names that agree keep agreeing** when one of them is written. -/
theorem Holds.write (hholds : links.Holds fs) (hold : fs.find? l = some (.file old)) :
    links.Holds (links.write fs l content) where
  content := by
    intro j k hother content' hj
    by_cases hnames : links.Names l j
    · rw [find?_write_of_names hholds hold hnames] at hj
      rw [find?_write_of_names hholds hold (hnames.trans (.inr hother)), hj]
    · have hapart : ¬ links.Names l k := fun hk =>
        hnames (hk.trans (Names.symm (.inr hother)))
      rw [find?_write_of_not_names hnames] at hj
      rw [find?_write_of_not_names hapart]
      exact hholds.content j k hother content' hj
  rights := by
    intro j k hother right
    have houtline : (links.write fs l content).outline = fs.outline := links.outline_write hold
    have hgrants := FileSystem.grants_of_outline_eq houtline
    rw [hgrants, hgrants]
    exact hholds.rights j k hother right

end

/-! ## Several files -/

/-- Gives files texts, one after the other, under all of their names. -/
def rewrite (links : HardLinks) (fs : FileSystem) (contents : List (Location × Text)) :
    FileSystem :=
  contents.foldl (fun fs row => links.write fs row.1 (.text row.2)) fs

@[simp] theorem rewrite_nil (links : HardLinks) (fs : FileSystem) : links.rewrite fs [] = fs := rfl

theorem rewrite_singleton (links : HardLinks) (fs : FileSystem) (row : Location × Text) :
    links.rewrite fs [row] = links.write fs row.1 (.text row.2) := rfl

/-- A file is written where its path leads, and its content is passed on from there. -/
theorem carry_put (links : HardLinks) (content : Content) {path : Path} {old : Content}
    (hl : fs.canonical? path = some l) (hold : fs.find? l = some (.file old)) :
    links.carry path (fs.put l (.file content)) = links.write fs l content := by
  have hleads : (fs.put l (.file content)).canonical? path = some l := by
    rw [FileSystem.canonical?_of_outline_eq (FileSystem.outline_put_file _ hold), hl]
  simp only [carry, hleads, write]

/-- Without further names, only the files themselves are given their texts. -/
@[simp] theorem rewrite_none (fs : FileSystem) (contents : List (Location × Text)) :
    ({} : HardLinks).rewrite fs contents = fs.rewrite contents := by
  unfold rewrite FileSystem.rewrite write
  simp only [share_none]

end HardLinks

/-! ## Files that are worked on -/

namespace FileSystem

variable {before after fs gs : FileSystem} {l : Location}

/-- A file that holds a text, which can be read and replaced. -/
structure Workable (fs : FileSystem) (l : Location) : Prop where
  text : ∃ t, fs.find? l = some (.file (.text t))
  readable : fs.grants .reading l = true
  writable : fs.grants .writing l = true

/-- Whether a file can be worked on depends on its entry and the outline. -/
theorem Workable.congr (houtline : gs.outline = fs.outline) (hsame : gs.find? l = fs.find? l)
    (hworkable : fs.Workable l) : gs.Workable l where
  text := hsame ▸ hworkable.text
  readable := by rw [grants_of_outline_eq houtline, hworkable.readable]
  writable := by rw [grants_of_outline_eq houtline, hworkable.writable]

/-- Names of one file are all workable or none is. -/
theorem Workable.names {links : HardLinks} (hholds : links.Holds fs) {k : Location}
    (hnames : links.Names l k) (hworkable : fs.Workable l) : fs.Workable k where
  text := by
    obtain ⟨t, ht⟩ := hworkable.text
    exact ⟨t, hholds.find? hnames ht⟩
  readable := by rw [hholds.grants hnames, hworkable.readable]
  writable := by rw [hholds.grants hnames, hworkable.writable]

/-- **What has changed could be worked on**, and still can. -/
structure Worked (before after : FileSystem) : Prop where
  outline : after.outline = before.outline
  files : ∀ l, after.find? l = before.find? l ∨ before.Workable l ∧ after.Workable l

theorem Worked.refl (fs : FileSystem) : fs.Worked fs := ⟨rfl, fun _ => .inl rfl⟩

/-- Work on files adds up. -/
theorem Worked.trans (hfirst : before.Worked fs) (hthen : fs.Worked after) :
    before.Worked after where
  outline := hthen.outline.trans hfirst.outline
  files := by
    intro l
    rcases hfirst.files l with hsame | ⟨hbefore, hnow⟩ <;>
      rcases hthen.files l with hkept | ⟨hnow', hafter⟩
    · exact .inl (hkept.trans hsame)
    · exact .inr ⟨hnow'.congr hfirst.outline.symm hsame.symm, hafter⟩
    · exact .inr ⟨hbefore, hnow.congr hthen.outline hkept⟩
    · exact .inr ⟨hbefore, hafter⟩

/-- A workable file is worked on under all of its names. -/
theorem Workable.worked_write {links : HardLinks} (hholds : links.Holds fs)
    (hworkable : fs.Workable l) (t : Text) : fs.Worked (links.write fs l (.text t)) := by
  obtain ⟨old, ht⟩ := hworkable.text
  have houtline : (links.write fs l (.text t)).outline = fs.outline := links.outline_write ht
  refine ⟨houtline, fun k => ?_⟩
  by_cases hnames : links.Names l k
  · have hk := hworkable.names hholds hnames
    refine .inr ⟨hk, ⟨_, HardLinks.find?_write_of_names hholds ht hnames⟩, ?_, ?_⟩
    · rw [grants_of_outline_eq houtline, hk.readable]
    · rw [grants_of_outline_eq houtline, hk.writable]
  · exact .inl (HardLinks.find?_write_of_not_names hnames)

end FileSystem

end LicenseHeaders

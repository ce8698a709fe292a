import LicenseHeaders.Files.Edit
import LicenseHeaders.Proofs.Directories

/-!
# Creating a file

A path can be followed in order to write, and then the last name need not exist.
What is written at the place it leads to is seen from every path, this one
included: it leads to the file that was created for it, so what is written later
by the same path is added to that file and creates no other one.

* `modifyFile_eq_ok` — a file is modified at the place its path leads to;
* `locate_creation_put` — a path leads to the file that was created for it;
* `WellNamed.modifyFile` — a file is created with a proper name;
* `WellNamed.apply` — and so is all that other programs create.
-/

namespace LicenseHeaders

namespace FileSystem

variable {fs gs written : FileSystem} {p : Path} {l r : Location}

/-- **A file is modified at the place its path leads to**, and an empty one is
when there is none. -/
theorem modifyFile_eq_ok {change : Content → Content}
    (hmodify : fs.modifyFile p change = .ok written) :
    ∃ l old, fs.locate .creation p = .ok l ∧
      (fs.find? l = none ∧ old = .empty ∨ fs.find? l = some (.file old)) ∧
      written = fs.put l (.file (change old)) := by
  unfold modifyFile at hmodify
  cases hlocate : fs.locate .creation p with
  | error cause =>
      rw [hlocate] at hmodify
      cases hmodify
  | ok l =>
      simp only [hlocate, bind, Except.bind] at hmodify
      refine ⟨l, ?_⟩
      split at hmodify
      · cases hmodify
      · cases hmodify
      · next old hold =>
        split at hmodify
        · exact ⟨old, rfl, .inr hold, (Except.ok.inj hmodify).symm⟩
        · cases hmodify
      · next hnone =>
        split at hmodify
        · exact ⟨.empty, rfl, .inl ⟨hnone, rfl⟩, (Except.ok.inj hmodify).symm⟩
        · cases hmodify

/-- The place of a file or of a new entry is not the top of the file system. -/
theorem ne_nil_of_place {old : Content}
    (hplace : fs.find? l = none ∨ fs.find? l = some (.file old)) : l ≠ [] := by
  rintro rfl
  rcases hplace with hnone | hfile
  · simp [find?] at hnone
  · simp [find?] at hfile

/-- Putting an entry leaves the current directory where it is. -/
@[simp] theorem current_put (fs : FileSystem) (l : Location) (entry : Entry) :
    (fs.put l entry).current = fs.current := by
  unfold put
  split <;> rfl

@[simp] theorem denied_put (fs : FileSystem) (l : Location) (entry : Entry) :
    (fs.put l entry).denied = fs.denied := by
  unfold put
  split <;> rfl

/-- What is permitted depends on the rights that are denied. -/
theorem permits_congr (hdenied : gs.denied = fs.denied) (l : Location) (step : PathStep) :
    gs.permits l step = fs.permits l step := by
  simp only [permits, grants, hdenied]

/-! ## Following a path again -/

section

variable {onLink onLink' : Location → Path → List PathStep → Except Cause Location}

/-- A new file is not followed to a closing `/`. -/
theorem follow_name_open {n : Name} {rest : List PathStep} {access : Access}
    (hok : fs.follow access onLink l (.name n :: rest) = .ok r) :
    ¬ (access = .creation ∧ rest = [.close]) := by
  intro hclosed
  obtain ⟨hdir, hpermits, _⟩ := follow_cons_ok hok
  simp only [follow, hdir, hpermits, if_true, if_pos hclosed] at hok
  cases hok

variable (hdenied : gs.denied = fs.denied)
  (hkept : ∀ k entry, fs.find? k = some entry → gs.find? k = some entry)
  (hplain : ∀ target, gs.find? r ≠ some (.link target))

include hdenied hkept hplain

/-- Where steps led before, they lead when more is there, if no link is put at
the end. -/
theorem follow_again {steps : List PathStep}
    (hlink : ∀ l target rest, onLink l target rest = .ok r → onLink' l target rest = .ok r)
    (hok : fs.follow .creation onLink l steps = .ok r) :
    gs.follow .creation onLink' l steps = .ok r := by
  induction steps generalizing l with
  | nil => exact hok
  | cons step rest ih =>
      obtain ⟨hfound, hpermitted, ⟨hstay, hrest⟩ | ⟨hup, hrest⟩ | ⟨n, hname, hlength, hcase⟩⟩ :=
        follow_cons_ok hok
      · have hdir := hkept _ _ hfound
        have hpermits := (permits_congr hdenied l step).trans hpermitted
        rcases hstay with hstay | hstay
        · rw [hstay, follow_here hdir (hstay ▸ hpermits)]
          exact ih hrest
        · rw [hstay, follow_close hdir]
          exact ih hrest
      · have hpermits := (permits_congr hdenied l step).trans hpermitted
        rw [hup, follow_up (hkept _ _ hfound) (hup ▸ hpermits)]
        exact ih hrest
      · have hdir := hkept _ _ hfound
        subst hname
        have hpermits := (permits_congr hdenied l (.name n)).trans hpermitted
        have hopen := follow_name_open hok
        rcases hcase with ⟨_, hlast, hr⟩ | ⟨target, hentry, ⟨_, hasked, _⟩ | ⟨hasked, hlinked⟩⟩ |
          ⟨entry, hentry, hunlinked, hrest⟩
        · -- The name was new; it still is, or the file is there by now.
          subst hlast hr
          cases hnow : gs.find? (l ++ [n]) with
          | none =>
              simp [follow, hdir, hpermits, Nat.not_lt.mpr hlength, hnow]
          | some entry =>
              refine follow_name hdir hpermits hopen hlength hnow fun target htarget => ?_
              exact hplain target (hnow.trans (congrArg some htarget))
        · cases hasked
        · rw [follow_link hdir hpermits hopen hlength (hkept _ _ hentry) hasked]
          exact hlink l target rest hlinked
        · rw [follow_name hdir hpermits hopen hlength (hkept _ _ hentry) hunlinked]
          exact ih hrest

/-- What has been located for creation is located again, whatever stands there
since. -/
theorem followLinks_again {links : Nat} {steps : List PathStep}
    (hok : fs.followLinks .creation links l steps = .ok r) :
    gs.followLinks .creation links l steps = .ok r := by
  induction links generalizing l steps with
  | zero => exact follow_again hdenied hkept hplain (fun _ _ _ hlinked => by cases hlinked) hok
  | succ links ih => exact follow_again hdenied hkept hplain (fun _ _ _ hlinked => ih hlinked) hok

/-- A path leads where it led before, when more is there by now. -/
theorem locate_again (hcurrent : gs.current = fs.current)
    (hok : fs.locate .creation p = .ok r) : gs.locate .creation p = .ok r := by
  obtain ⟨hzero, hempty, hshort, hfollow⟩ := locate_eq_ok_iff.mp hok
  have hagain := followLinks_again hdenied hkept hplain hfollow
  rw [← hcurrent] at hagain
  exact locate_eq_ok_iff.mpr ⟨hzero, hempty, hshort, hagain⟩

end

/-- **A path leads to the file that was created for it.** -/
theorem locate_creation_put (content : Content) (hlocate : fs.locate .creation p = .ok l)
    (hnew : fs.find? l = none ∨ ∃ old, fs.find? l = some (.file old)) :
    (fs.put l (.file content)).locate .creation p = .ok l := by
  rcases hnew with hnone | ⟨old, hold⟩
  · have hne : l ≠ [] := by
      rintro rfl
      simp [find?] at hnone
    have hkept : ∀ k entry, fs.find? k = some entry →
        (fs.put l (.file content)).find? k = some entry := by
      intro k entry hentry
      have hkl : k ≠ l := by
        rintro rfl
        cases hnone.symm.trans hentry
      rw [find?_put_of_ne hkl, hentry]
    refine locate_again (denied_put fs l _) hkept (fun target hlinked => ?_)
      (current_put fs l _) hlocate
    rw [find?_put hne] at hlinked
    cases hlinked
  · rw [locate_of_outline_eq (outline_put_file content hold), hlocate]

end FileSystem

/-! ## Proper names -/

namespace Path

/-- A piece holds no separator. -/
theorem not_mem_of_mem_splitOn {separator : Char} {t piece : Text}
    (hpiece : piece ∈ Text.splitOn separator t) : separator ∉ piece := by
  induction t generalizing piece with
  | nil =>
      rw [Text.splitOn, List.mem_singleton] at hpiece
      simp [hpiece]
  | cons c rest ih =>
      rw [Text.splitOn] at hpiece
      by_cases hc : c = separator
      · rw [if_pos hc, List.mem_cons] at hpiece
        rcases hpiece with rfl | hpiece
        · simp
        · exact ih hpiece
      · rw [if_neg hc] at hpiece
        cases hpieces : Text.splitOn separator rest with
        | nil => exact absurd hpieces (Text.splitOn_ne_nil separator rest)
        | cons first pieces =>
            rw [hpieces] at hpiece ih
            rcases List.mem_cons.mp hpiece with rfl | hpiece
            · have hfirst := ih List.mem_cons_self
              simp [Ne.symm hc, hfirst]
            · exact ih (List.mem_cons_of_mem _ hpiece)

/-- A path only takes steps to proper names. -/
theorem properName_of_mem_steps {p : Path} {n : Name} (hstep : .name n ∈ p.steps) :
    ProperName n := by
  have hopen : .name n ∈ p.openSteps := by
    rcases p.steps_cases with hsteps | hsteps
    · rwa [hsteps] at hstep
    · simpa [hsteps] using hstep
  obtain ⟨piece, hpiece, hname⟩ := List.mem_map.mp hopen
  obtain ⟨hsplit, hne⟩ := List.mem_filter.mp hpiece
  split at hname
  · cases hname
  · next hhere =>
    split at hname
    · cases hname
    · next hup =>
      cases hname
      exact ⟨of_decide_eq_true hne, hhere, hup, not_mem_of_mem_splitOn hsplit⟩

/-- A path that is not empty takes a step, unless it is the root. -/
theorem steps_ne_nil {p : Path} (hp : p.text ≠ []) (hrelative : p.isAbsolute = false) :
    p.steps ≠ [] := by
  have hopen : p.openSteps ≠ [] := by
    intro hnone
    rw [openSteps, List.map_eq_nil_iff, List.filter_eq_nil_iff] at hnone
    cases htext : p.text with
    | nil => exact hp htext
    | cons c rest =>
        have hc : c ≠ '/' := by
          rintro rfl
          simp [isAbsolute, htext] at hrelative
        rw [htext, Text.splitOn, if_neg hc] at hnone
        cases hpieces : Text.splitOn '/' rest with
        | nil => exact Text.splitOn_ne_nil '/' rest hpieces
        | cons piece pieces =>
            rw [hpieces] at hnone
            simpa using hnone _ List.mem_cons_self
  rcases p.steps_cases with hsteps | hsteps
  · rwa [hsteps]
  · simp [hsteps]

end Path

namespace FileSystem

variable {fs written : FileSystem} {p : Path} {l r : Location}

/-- All names on the way to an entry are proper. -/
theorem WellNamed.of_find? (hnamed : fs.WellNamed) {entry : Entry}
    (hfound : fs.find? l = some entry) : ∀ n ∈ l, ProperName n := by
  by_cases hroot : l = []
  · subst hroot
    exact List.forall_mem_nil _
  · rw [find?, if_neg hroot] at hfound
    obtain ⟨row, hrow, _⟩ := Option.map_eq_some_iff.mp hfound
    have hkey : row.1 = l := by simpa using List.find?_some hrow
    exact hkey ▸ hnamed row (List.mem_of_find?_eq_some hrow)

section

variable {access : Access} {onLink : Location → Path → List PathStep → Except Cause Location}

/-- Steps to proper names lead to a place with proper names, if they begin in one
where they do not begin in a directory. -/
theorem WellNamed.of_follow (hnamed : fs.WellNamed) {steps : List PathStep}
    (hlink : ∀ l target rest, fs.find? l = some .directory →
      (∀ n, .name n ∈ rest → ProperName n) → onLink l target rest = .ok r → ∀ n ∈ r, ProperName n)
    (hsteps : ∀ n, .name n ∈ steps → ProperName n) (hl : steps = [] → ∀ n ∈ l, ProperName n)
    (hok : fs.follow access onLink l steps = .ok r) : ∀ n ∈ r, ProperName n := by
  induction steps generalizing l with
  | nil =>
      cases hok
      exact hl rfl
  | cons step rest ih =>
      have hrest : ∀ n, .name n ∈ rest → ProperName n :=
        fun n hn => hsteps n (List.mem_cons_of_mem _ hn)
      obtain ⟨hdir, _, ⟨_, hgoes⟩ | ⟨_, hgoes⟩ | ⟨n, hname, _, hcase⟩⟩ := follow_cons_ok hok
      · exact ih hrest (fun _ => hnamed.of_find? hdir) hgoes
      · exact ih hrest (fun _ n hn => hnamed.of_find? hdir n (List.dropLast_subset l hn)) hgoes
      · have hnext : ∀ m ∈ l ++ [n], ProperName m := by
          intro m hm
          rcases List.mem_append.mp hm with hbefore | hlast
          · exact hnamed.of_find? hdir m hbefore
          · rw [List.mem_singleton.mp hlast]
            exact hsteps n (hname ▸ List.mem_cons_self)
        rcases hcase with ⟨_, _, rfl⟩ | ⟨target, _, ⟨_, _, rfl⟩ | ⟨_, hlinked⟩⟩ | ⟨_, _, _, hgoes⟩
        · exact hnext
        · exact hnext
        · exact hlink l target rest hdir hrest hlinked
        · exact ih hrest (fun _ => hnext) hgoes

/-- Steps with proper names lead to locations with proper names. -/
theorem WellNamed.of_followLinks (hnamed : fs.WellNamed) {links : Nat} {steps : List PathStep}
    (hsteps : ∀ n, .name n ∈ steps → ProperName n) (hl : steps = [] → ∀ n ∈ l, ProperName n)
    (hok : fs.followLinks access links l steps = .ok r) : ∀ n ∈ r, ProperName n := by
  induction links generalizing l steps with
  | zero =>
      refine hnamed.of_follow (fun _ _ _ _ _ hlinked => ?_) hsteps hl hok
      cases hlinked
  | succ links ih =>
      refine hnamed.of_follow (fun l target rest hdir hrest hlinked => ?_) hsteps hl hok
      refine ih (fun n hn => ?_) (fun _ => ?_) hlinked
      · rcases List.mem_append.mp hn with htarget | hn
        · exact Path.properName_of_mem_steps htarget
        · exact hrest n hn
      · split
        · exact List.forall_mem_nil _
        · exact hnamed.of_find? hdir

end

/-- A path leads to places with proper names only. -/
theorem WellNamed.of_locate (hnamed : fs.WellNamed) {access : Access}
    (hlocate : fs.locate access p = .ok l) : ∀ n ∈ l, ProperName n := by
  obtain ⟨_, hp, _, hfollow⟩ := locate_eq_ok_iff.mp hlocate
  refine hnamed.of_followLinks (fun n => Path.properName_of_mem_steps) (fun hsteps => ?_) hfollow
  split
  · exact List.forall_mem_nil _
  · next hrelative => exact absurd hsteps (Path.steps_ne_nil hp (Bool.eq_false_iff.mpr hrelative))

/-- Which names are proper does not depend on contents. -/
theorem WellNamed.of_outline {gs : FileSystem} (hnamed : fs.WellNamed)
    (houtline : gs.outline = fs.outline) : gs.WellNamed := by
  have hentries : ∀ disk : FileSystem,
      disk.entries.map (·.1) = disk.outline.entries.map (·.1) := by
    intro disk
    rw [outline, List.map_map]
    rfl
  intro row hrow n hn
  have hkey : row.1 ∈ fs.entries.map (·.1) := by
    rw [hentries, ← houtline, ← hentries]
    exact List.mem_map_of_mem hrow
  obtain ⟨other, hother, hsame⟩ := List.mem_map.mp hkey
  exact hnamed other hother n (hsame ▸ hn)

/-- An entry at a location with proper names spoils no name. -/
theorem WellNamed.put (hnamed : fs.WellNamed) (hl : ∀ n ∈ l, ProperName n) (entry : Entry) :
    (fs.put l entry).WellNamed := by
  intro row hrow n hn
  unfold FileSystem.put at hrow
  split at hrow
  · exact hnamed row hrow n hn
  · rcases mem_keys_putRow.mp (List.mem_map_of_mem hrow) with hnew | hold
    · exact hl n (hnew ▸ hn)
    · obtain ⟨other, hother, hkey⟩ := List.mem_map.mp hold
      exact hnamed other hother n (hkey ▸ hn)

/-- **A file is created with a proper name.** -/
theorem WellNamed.modifyFile (hnamed : fs.WellNamed) {change : Content → Content}
    (hmodify : fs.modifyFile p change = .ok written) : written.WellNamed := by
  obtain ⟨l, old, hlocate, _, rfl⟩ := modifyFile_eq_ok hmodify
  exact hnamed.put (hnamed.of_locate hlocate) _

/-! ## Edits -/

theorem WellNamed.makeDirectory (hnamed : fs.WellNamed) (p : Path) :
    (fs.makeDirectory p).WellNamed := by
  unfold FileSystem.makeDirectory
  split
  · next l hlocate =>
    split
    · exact hnamed.put (hnamed.of_locate hlocate) _
    · exact hnamed
  · exact hnamed

theorem WellNamed.makeDirectories (hnamed : fs.WellNamed) (p : Path) :
    (fs.makeDirectories p).WellNamed := by
  unfold FileSystem.makeDirectories
  dsimp only
  generalize List.range p.components.length = counts
  induction counts generalizing fs with
  | nil => exact hnamed
  | cons i rest ih => exact ih (hnamed.makeDirectory _)

/-- Nothing that is created has an improper name. -/
theorem WellNamed.create (hnamed : fs.WellNamed) (p : Path) (entry : Entry) :
    (fs.create p entry).WellNamed := by
  have hparents := hnamed.makeDirectories (parentOf p)
  cases entry with
  | directory => exact hnamed.makeDirectories p
  | file content =>
      rw [FileSystem.create]
      split
      · next hmodify => exact hparents.modifyFile hmodify
      · exact hparents
  | link target =>
      rw [FileSystem.create]
      split
      · next l hlocate =>
        split
        · exact hparents.put (hparents.of_locate hlocate) _
        · exact hparents
      · exact hparents

theorem WellNamed.delete (hnamed : fs.WellNamed) (p : Path) : (fs.delete p).WellNamed := by
  unfold FileSystem.delete
  split
  · split
    · exact hnamed
    · intro row hrow
      exact hnamed row (List.mem_filter.mp hrow).1
  · exact hnamed

/-- **Whatever other programs do**, all names stay proper. -/
theorem WellNamed.apply (hnamed : fs.WellNamed) (edit : Edit) : (fs.apply edit).WellNamed := by
  cases edit with
  | create p entry => exact hnamed.create p entry
  | delete p => exact hnamed.delete p
  | replace p entry => exact (hnamed.delete p).create p entry

end FileSystem

end LicenseHeaders

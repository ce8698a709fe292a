import LicenseHeaders.Proofs.Locations
import LicenseHeaders.Proofs.Overlap
import LicenseHeaders.Proofs.Resuming

/-!
# Runs over roots that overlap

Runs that keep going, over roots and over others that reach nothing else, do the
same from the same file system, as long as nothing of the system gets in the way.
They meet the files of the same locations, in another order and by other
paths, and what becomes of a file depends on its location alone.

A directory that cannot be listed is the one thing that is not met once: each
root above it has a failure of its own.  So the numbers of failures differ by
what the single roots add, and agree when there is nothing to add.

* `Covers.mem_places_iff`, `Covers.places_perm` — the locations that walks meet;
* `run_overlapping` — the file systems and the reports of the two runs.
-/

namespace LicenseHeaders

open Visit

variable {fs : FileSystem} {roots others : List Path} {criteria : Criteria} {pattern : Pattern}
  {items : List (Except Failure Path)}

/-! ## Locations -/

/-- A file that is eligible is found by its path. -/
theorem Visit.Eligible.exists_file (hnamed : fs.WellNamed)
    (hunhindered : Unhindered fs roots) {v : Visit}
    (heligible : Eligible fs roots criteria pattern v) (hopen : Open fs roots v) :
    ∃ l content, fs.canonical? (v.path roots) = some l ∧ fs.find? l = some (.file content) := by
  obtain ⟨l, entry, hreached, ⟨content, rfl⟩ | ⟨_, hleads⟩⟩ := heligible.regular
  · have hlookup := hunhindered.lookup hnamed hreached hopen fun _ => Entry.noConfusion
    exact ⟨l, content, FileSystem.canonical?_of_lookup hlookup, hreached.find?⟩
  · exact leadsToFile_iff.mp hleads

namespace Walk

section

variable (hnamed : fs.WellNamed) (hunhindered : Unhindered fs roots)
  (hcovers : Covers fs roots criteria pattern (fun _ => True) [] items)

include hnamed hunhindered hcovers

/-- What a walk meets can be resolved. -/
theorem Covers.resolved : Resolved fs items := by
  intro path hpath
  obtain ⟨v, rfl, heligible, hopen⟩ := hcovers.files path hpath
  obtain ⟨l, _, hl, _⟩ := heligible.exists_file hnamed hunhindered hopen
  exact Option.ne_none_iff_exists'.mpr ⟨l, hl⟩

/-- There is a file where a walk meets one. -/
theorem Covers.file_of_mem_places {l : Location} (hl : l ∈ places fs items) :
    ∃ content, fs.find? l = some (.file content) := by
  obtain ⟨path, hpath, hplace⟩ := mem_places.mp hl
  obtain ⟨v, rfl, heligible, hopen⟩ := hcovers.files path hpath
  obtain ⟨k, content, hk, hfile⟩ := heligible.exists_file hnamed hunhindered hopen
  have hsame : k = l := Option.some.inj (hk.symm.trans hplace)
  exact ⟨content, hsame ▸ hfile⟩

/-- **A walk meets the files that are selected**, each at its location. -/
theorem Covers.mem_places_iff {l : Location} :
    l ∈ places fs items ↔ Selected fs roots criteria pattern l := by
  constructor
  · intro hl
    obtain ⟨path, hpath, hplace⟩ := mem_places.mp hl
    obtain ⟨v, rfl, heligible, hopen⟩ := hcovers.files path hpath
    exact ⟨v, heligible, hopen, hplace⟩
  · rintro ⟨v, heligible, hopen, hl⟩
    rcases hcovers.complete v heligible hopen trivial with hnone | ⟨path, hpath, hsame⟩
    · cases hnone
    · have hresolved := hcovers.resolved hnamed hunhindered path hpath
      obtain ⟨k, hk⟩ := Option.ne_none_iff_exists'.mp hresolved
      have hidentity : identity fs path = identity fs (v.path roots) := hsame
      rw [identity_of_canonical? hk, identity_of_canonical? hl] at hidentity
      have hname : Function.Injective Path.Component.name := fun _ _ => Path.Component.name.inj
      have hkl : k = l := List.map_injective_iff.mpr hname (List.cons.inj hidentity).2
      exact mem_places.mpr ⟨path, hpath, hkl ▸ hk⟩

end

/-- **Walks over roots that overlap meet the same locations**, each of them once. -/
theorem Covers.places_perm {visited : List (Except Failure Path)}
    (hcovers : Covers fs roots criteria pattern (fun _ => True) [] items)
    (hother : Covers fs others criteria pattern (fun _ => True) [] visited)
    (hapart : items.Pairwise (Apart fs)) (hotherApart : visited.Pairwise (Apart fs))
    (hnamed : fs.WellNamed) (hspelled : fs.Spellable) (hoverlaps : Overlaps fs roots others)
    (hunhindered : Unhindered fs others) : (places fs visited).Perm (places fs items) := by
  have hway := hoverlaps.unhindered hunhindered
  refine (List.perm_ext_iff_of_nodup (nodup_places hotherApart) (nodup_places hapart)).mpr ?_
  intro l
  rw [hother.mem_places_iff hnamed hunhindered, hcovers.mem_places_iff hnamed hway,
    hoverlaps.selected_iff hnamed hspelled hunhindered]

/-- Where all directories can be listed, a walk meets no failure. -/
theorem Covers.failures_eq_nil (hlistable : Listable fs roots)
    (hcovers : Covers fs roots criteria pattern (fun _ => True) [] items) :
    Walk.failures items = [] := by
  refine List.filterMap_eq_nil_iff.mpr fun item hitem => ?_
  cases item with
  | ok path => rfl
  | error failure =>
      obtain ⟨v, l, cause, _, hreached, _, hlist⟩ := hcovers.failures failure hitem
      obtain ⟨entries, hentries⟩ := hlistable v l hreached
      cases hlist.symm.trans hentries

end Walk

/-- Where all directories below the others can be listed, all below the roots can. -/
theorem Visit.Overlaps.listable (hoverlaps : Overlaps fs roots others)
    (hlistable : Listable fs others) : Listable fs roots := by
  intro v l hreached
  obtain ⟨j, hj⟩ := hoverlaps.exists_under hreached
  obtain ⟨entries, hlist⟩ := hlistable _ l (hreached.under hj)
  exact ⟨entries, by rwa [path_under hj] at hlist⟩

/-! ## Reports -/

/-- A report is about the file at a location. -/
def Report.Concerns (fs : FileSystem) (report : Report) (l : Location) : Prop :=
  ∃ file ∈ report.files, fs.canonical? file.path = some l ∧
    ∃ content, fs.find? l = some (.file content)

/-- **What the reports of two runs have in common**, the first over roots and the
second over others that reach nothing else. -/
structure Report.Agrees (filters : List NameFilter) (fs : FileSystem) (roots others : List Path)
    (report other : Report) : Prop where
  /-- They are about the same files. -/
  files : ∀ l, other.Concerns fs l ↔ report.Concerns fs l
  /-- They count the same number of changed files. -/
  changed : other.changedCount = report.changedCount
  /-- The numbers of files, and of those that failed, differ by the directories that
  cannot be listed, which count for each single root. -/
  scanned : other.scannedCount + (roots.map (Walk.failing filters fs)).sum =
    report.scannedCount + (others.map (Walk.failing filters fs)).sum
  failed : other.failedCount + (roots.map (Walk.failing filters fs)).sum =
    report.failedCount + (others.map (Walk.failing filters fs)).sum
  /-- They agree when all directories can be listed, and when the roots are only put
  in another order. -/
  counts : Listable fs others ∨ others.Perm roots →
    other.scannedCount = report.scannedCount ∧ other.failedCount = report.failedCount

namespace Engine.Completed

open Plan Walk

variable {e : Engine} {operation : Operation} {before after after' : FileSystem}
  {walk walk' : Walk} {report other : Report} {calls calls' : List WriteCall}

section

variable (hdone : e.Completed operation roots before walk report after calls)
  (hundisturbed : e.detector.edits = []) (hnamed : before.WellNamed)

include hdone hundisturbed hnamed

/-- A completed run has met what there is to meet. -/
theorem covers (hfilters : e.filters =
      [.excluded (sortedNames e.criteria.excluded), .pattern pattern]) :
    Covers before roots e.criteria pattern (fun _ => True) [] (e.items before roots walk) := by
  have hmeets := hdone.meets hundisturbed hnamed
  obtain ⟨hroots, rfl⟩ := directories_of_start hdone.start
  exact covers_meets hnamed hroots hfilters hmeets

/-- A completed run has met the failures below each of its roots. -/
theorem length_failures : (failures (e.items before roots walk)).length =
    (roots.map (failing e.filters before)).sum := by
  have hmeets := hdone.meets hundisturbed hnamed
  obtain ⟨_, rfl⟩ := directories_of_start hdone.start
  exact length_failures_meets hnamed hmeets

end

/-- A report is about the files at the locations that the walk meets. -/
theorem concerns_iff (hdone : e.Completed operation roots before walk report after calls)
    (hnamed : before.WellNamed) (hunhindered : Unhindered before roots)
    (hcovers : Covers before roots criteria pattern (fun _ => True) [] (e.items before roots walk))
    {l : Location} :
    report.Concerns before l ↔ l ∈ places before (e.items before roots walk) := by
  constructor
  · rintro ⟨file, hfile, hl, content, hcontent⟩
    rw [hdone.files] at hfile
    obtain ⟨item, hitem, rfl⟩ := List.mem_map.mp hfile
    rw [path_entry] at hl
    cases item with
    | ok path => exact mem_places.mpr ⟨path, hitem, hl⟩
    | error failure =>
        obtain ⟨path, cause, rfl, hdirectory⟩ := hcovers.directory_of_failure hnamed hitem
        cases hcontent.symm.trans (hdirectory l hl)
  · intro hl
    obtain ⟨path, hpath, hplace⟩ := mem_places.mp hl
    refine ⟨e.entry operation before (.ok path), ?_, ?_, ?_⟩
    · rw [hdone.files]
      exact List.mem_map_of_mem hpath
    · rw [path_entry]
      exact hplace
    · exact hcovers.file_of_mem_places hnamed hunhindered hl

/-- **Completed runs over roots that overlap** end in the same file system, and
their reports agree. -/
theorem overlapping (hdone : e.Completed operation roots before walk report after calls)
    (hother : e.Completed operation others before walk' other after' calls')
    (hundisturbed : e.detector.edits = []) (hcriteria : e.criteria.filters = .ok e.filters)
    (hnamed : before.WellNamed) (hspelled : before.Spellable)
    (hoverlaps : Overlaps before roots others) (hunhindered : Unhindered before others) :
    after' = after ∧ Report.Agrees e.filters before roots others report other := by
  obtain ⟨pattern, _, hfilters⟩ := pattern_of_filters hcriteria
  have hcovers := hdone.covers hundisturbed hnamed hfilters
  have hcovers' := hother.covers hundisturbed hnamed hfilters
  have hway := hoverlaps.unhindered hunhindered
  have hresolved := hcovers.resolved hnamed hway
  have hresolved' := hcovers'.resolved hnamed hunhindered
  have hfailures := hdone.length_failures hundisturbed hnamed
  have hfailures' := hother.length_failures hundisturbed hnamed
  have hplaces := hcovers.places_perm hcovers' hdone.handled.apart hother.handled.apart hnamed
    hspelled hoverlaps hunhindered
  have hcontents : (e.newContents operation before (e.items before others walk')).Perm
      (e.newContents operation before (e.items before roots walk)) := by
    rw [newContents_eq hresolved, newContents_eq hresolved']
    exact hplaces.filterMap _
  have hscanned := hdone.scannedCount_eq hresolved
  have hscanned' := hother.scannedCount_eq hresolved'
  have hfailed := hdone.failedCount_eq hresolved
  have hfailed' := hother.failedCount_eq hresolved'
  have hlength := hplaces.length_eq
  have hcount := hplaces.countP_eq fun l => (e.fate operation before l).isNone
  refine ⟨?_, ?_, ?_, ?_, ?_, ?_⟩
  · rw [hother.fs, hdone.fs]
    refine FileSystem.rewrite_perm hcontents (nodup_newContents hother.handled.apart) ?_
    intro row hrow
    obtain ⟨item, _, hnew⟩ := List.mem_filterMap.mp hrow
    exact file_of_newContent? hnew
  · intro l
    rw [hother.concerns_iff hnamed hunhindered hcovers',
      hdone.concerns_iff hnamed hway hcovers]
    exact hplaces.mem_iff
  · rw [hother.changedCount_eq, hdone.changedCount_eq]
    exact hcontents.length_eq
  · omega
  · omega
  · intro hcase
    have hsame : (failures (e.items before others walk')).length =
        (failures (e.items before roots walk)).length := by
      rcases hcase with hlistable | hperm
      · rw [hcovers'.failures_eq_nil hlistable,
          hcovers.failures_eq_nil (hoverlaps.listable hlistable)]
      · rw [hfailures, hfailures']
        exact (hperm.map _).sum_eq
    omega

end Engine.Completed

/-! ## Runs -/

/-- **Roots may be given in any order, repeated, and with others below them.**  A run
that keeps going, over roots and over others that reach nothing else, ends in the
same file system, as long as nothing of the system gets in the way.  The reports
are about the same files and agree in their counts, but for directories that cannot
be listed; only synchronizing without a header fails, and does so for both. -/
theorem run_overlapping {plan : Plan} {filters : List NameFilter} {w : World}
    (operation : Operation) (hplain : plan.Plain) (hkeep : plan.keepGoing = true)
    (hfilters : plan.criteria.filters = .ok filters) (hnamed : w.fs.WellNamed)
    (hspelled : w.fs.Spellable) (hroots : ∀ root ∈ roots, w.fs.leadsToDirectory root = true)
    (hoverlaps : Overlaps w.fs roots others) (hunhindered : Unhindered w.fs others) :
    (plan.run operation others w).2.fs = (plan.run operation roots w).2.fs ∧
      if operation = .synchronize ∧ plan.headers.isEmpty = true then
        (plan.run operation roots w).1 = .error .noHeader ∧
          (plan.run operation others w).1 = .error .noHeader
      else
        ∃ report other, (plan.run operation roots w).1 = .ok report ∧
          (plan.run operation others w).1 = .ok other ∧
          report.Agrees filters w.fs roots others other := by
  have hothers : ∀ root ∈ others, w.fs.leadsToDirectory root = true := by
    intro root hroot
    rcases hoverlaps.added root hroot with hkept | ⟨v, l, _, _, hlookup⟩
    · exact hroots root hkept
    · simp only [FileSystem.leadsToDirectory, hlookup]
  obtain ⟨e, hengine⟩ : ∃ e : Engine, e.filters = filters ∧ e.toPlan = plan :=
    ⟨{ plan with filters := filters }, rfl, rfl⟩
  obtain ⟨rfl, rfl⟩ := hengine
  have hrun : ∀ roots, e.toPlan.run operation roots w =
      e.run operation roots (w.tellAll e.warnings) := fun roots =>
    Plan.run_eq (Plan.engine_eq_ok_iff.mpr ⟨hfilters, rfl⟩) operation roots w
  rw [hrun roots, hrun others]
  by_cases hheaders : operation = .synchronize ∧ e.headers.isEmpty = true
  · rw [Engine.run_of_headerless roots _ hheaders, Engine.run_of_headerless others _ hheaders,
      if_pos hheaders]
    exact ⟨rfl, rfl, rfl⟩
  · obtain ⟨report, after, _, hreport, hdone, _⟩ := Engine.run_of_lenient
      (w := w.tellAll e.warnings) hplain hkeep (Walk.start_of_directories hroots) hheaders
    obtain ⟨other, after', _, hother, hdone', _⟩ := Engine.run_of_lenient
      (w := w.tellAll e.warnings) hplain hkeep (Walk.start_of_directories hothers) hheaders
    obtain ⟨hafter, hagrees⟩ := hdone.overlapping hdone' hplain.undisturbed hfilters hnamed
      hspelled hoverlaps hunhindered
    rw [hreport, hother, if_neg hheaders]
    exact ⟨hafter, report, other, rfl, rfl, hagrees⟩

namespace Sample

/-- A directory in a directory, with one text. -/
def nested : FileSystem where
  entries := [([['w']], .directory), ([['w'], ['s']], .directory),
    ([['w'], ['s'], ['a']], .file (.text ['(', ')', 'x']))]
  distinct := by decide
  current := []
  denied := []

def outer : Path := ⟨['w']⟩
def inner : Path := ⟨['w', '/', 's']⟩

/-- The inner directory is reached from the outer one. -/
theorem overlaps_nested : Overlaps nested [outer] [inner, outer] where
  kept := by simp
  added := by
    intro root hroot
    rcases List.mem_cons.mp hroot with rfl | hrest
    · have houter : Reached nested [outer] ⟨0, []⟩ [['w']] .directory := .root rfl (by decide)
      have hlist : nested.list (path [outer] ⟨0, []⟩) = .ok [(['s'], .directory)] := by
        decide +kernel
      have hopen := (open_root nested [outer] 0).child hlist ['s']
      exact .inr ⟨_, _, houter.child (by decide), hopen, by decide⟩
    · exact .inl hrest

/-- Nothing gets in the way in the sample. -/
theorem unhindered_nested : Unhindered nested [inner, outer] := by
  have hroots : ∀ root ∈ [inner, outer], Text.byteCount root.text + 6 < FileSystem.pathLimit := by
    decide
  exact Unhindered.of_small (by decide) (by decide) hroots (by decide) (by decide)
    fun _ _ _ _ _ _ => rfl

/-- A run that removes the pair of brackets and keeps going. -/
def strip (fs : FileSystem) (roots : List Path) : Except Failure Report × World :=
  plan.lenient.run .remove roots { fs := fs }

end Sample

/-- The text in the inner directory is met once, below either root. -/
theorem run_overlapping_sample :
    Sample.plan.lenient.Plain ∧ Sample.plan.lenient.keepGoing = true ∧
      Sample.plan.lenient.criteria.filters = .ok Sample.filters ∧ Sample.nested.WellNamed ∧
      Sample.nested.Spellable ∧
      (∀ root ∈ [Sample.outer], Sample.nested.leadsToDirectory root = true) ∧
      Overlaps Sample.nested [Sample.outer] [Sample.inner, Sample.outer] ∧
      Unhindered Sample.nested [Sample.inner, Sample.outer] ∧
      (Sample.strip Sample.nested [Sample.inner, Sample.outer]).2.fs =
        (Sample.strip Sample.nested [Sample.outer]).2.fs ∧
      ∃ report other, (Sample.strip Sample.nested [Sample.outer]).1 = .ok report ∧
        (Sample.strip Sample.nested [Sample.inner, Sample.outer]).1 = .ok other ∧
        report.Agrees Sample.filters Sample.nested [Sample.outer] [Sample.inner, Sample.outer]
          other := by
  have hplain : Sample.plan.lenient.Plain := ⟨rfl, rfl, rfl, rfl⟩
  have hfilters : Sample.plan.lenient.criteria.filters = .ok Sample.filters := by cbv
  have hnamed : Sample.nested.WellNamed := by decide
  have hspelled : Sample.nested.Spellable := by decide
  have hroots : ∀ root ∈ [Sample.outer], Sample.nested.leadsToDirectory root = true := by decide
  obtain ⟨hfs, hreports⟩ := run_overlapping (w := { fs := Sample.nested }) .remove hplain rfl
    hfilters hnamed hspelled hroots Sample.overlaps_nested Sample.unhindered_nested
  rw [if_neg (fun h => Operation.noConfusion h.1)] at hreports
  obtain ⟨report, other, hreport, hother, hagrees⟩ := hreports
  exact ⟨hplain, rfl, hfilters, hnamed, hspelled, hroots, Sample.overlaps_nested,
    Sample.unhindered_nested, hfs, report, other, hreport, hother, hagrees⟩

namespace Sample

/-- The outer directory cannot be listed. -/
def barred : FileSystem := nested.deny .reading [['w']]

/-- The inner directory can be listed, but not searched. -/
def shut : FileSystem := nested.deny .searching [['w'], ['s']]

/-- The inner directory, by another path. -/
def aside : Path := ⟨['.', '/', 'w', '/', 's']⟩

/-- A link leads to the directory that holds it, and another one out of the inner
directory to the one text. -/
def winding : FileSystem where
  entries := [([['j']], .link ⟨['.']⟩), ([['o']], .file (.text ['(', ')', 'x'])),
    ([['w']], .directory), ([['w'], ['s']], .directory),
    ([['w'], ['s'], ['b']], .link ⟨['.', '.', '/', '.', '.', '/', 'o']⟩)]
  distinct := by decide
  current := []
  denied := []

/-- The outer directory, by a path with as many links as the system follows. -/
def coil : Path := ⟨(List.replicate FileSystem.linkLimit ['j', '/']).flatten ++ ['w']⟩

end Sample

/-- **Roots that overlap are not alike without conditions.**  A directory that cannot
be listed fails once for each root above it, and bars the way to what is below it
only from above.  In a directory that can be listed but not searched, a file cannot
be resolved, and fails once for each of its paths.  A path with many links leaves
none for the links that it leads to. -/
theorem overlapping_runs_can_differ :
    (Reached Sample.barred [Sample.outer] ⟨0, [['s']]⟩ [['w'], ['s']] .directory ∧
      (Sample.strip Sample.barred [Sample.outer]).1.map Report.scannedCount = .ok 1 ∧
      (Sample.strip Sample.barred [Sample.outer, Sample.outer]).1.map Report.scannedCount = .ok 2 ∧
      (Sample.strip Sample.barred [Sample.outer]).1.map Report.failedCount = .ok 1 ∧
      (Sample.strip Sample.barred [Sample.outer, Sample.outer]).1.map Report.failedCount = .ok 2 ∧
      (Sample.strip Sample.barred [Sample.outer, Sample.inner]).2.fs ≠
        (Sample.strip Sample.barred [Sample.outer]).2.fs) ∧
    (Reached Sample.shut [Sample.outer] ⟨0, [['s']]⟩ [['w'], ['s']] .directory ∧
      Sample.shut.lookup .target Sample.aside = .ok ([['w'], ['s']], .directory) ∧
      (Sample.strip Sample.shut [Sample.outer]).1.map Report.scannedCount = .ok 1 ∧
      (Sample.strip Sample.shut [Sample.outer, Sample.aside]).1.map Report.scannedCount = .ok 2 ∧
      (Sample.strip Sample.shut [Sample.outer]).1.map Report.failedCount = .ok 1 ∧
      (Sample.strip Sample.shut [Sample.outer, Sample.aside]).1.map Report.failedCount = .ok 2) ∧
    Reached Sample.winding [Sample.coil] ⟨0, [['s']]⟩ [['w'], ['s']] .directory ∧
      (Sample.strip Sample.winding [Sample.coil, Sample.inner]).2.fs ≠
        (Sample.strip Sample.winding [Sample.coil]).2.fs := by
  have hbarred : Reached Sample.barred [Sample.outer] ⟨0, []⟩ [['w']] .directory :=
    .root rfl (by decide)
  have hshut : Reached Sample.shut [Sample.outer] ⟨0, []⟩ [['w']] .directory :=
    .root rfl (by decide)
  have hwinding : Reached Sample.winding [Sample.coil] ⟨0, []⟩ [['w']] .directory :=
    .root rfl (by decide +kernel)
  refine ⟨⟨hbarred.child (by decide), ?_, ?_, ?_, ?_, ?_⟩,
    ⟨hshut.child (by decide), ?_, ?_, ?_, ?_, ?_⟩, hwinding.child (by decide), ?_⟩
  · decide +kernel
  · decide +kernel
  · decide +kernel
  · decide +kernel
  · decide +kernel
  · decide +kernel
  · decide +kernel
  · decide +kernel
  · decide +kernel
  · decide +kernel
  · decide +kernel

end LicenseHeaders

import LicenseHeaders.Proofs.FailFast
import LicenseHeaders.Proofs.Selection

/-!
# A run meets what collecting finds

Collecting goes through the walk at once, before anything is written.  A run
takes the same walk item by item and writes files in between, also through links.
Both find the same files in the same order, because a walk sees the outline only:
which entries there are, where links lead and how files are told apart.  So
whoever collects while the run is under way finds them too.

* `collect_of_outline_eq` — collecting depends on the outline alone;
* `exists_collect` — collecting succeeds where all directories can be listed;
* `run_meets_collected` — a run and collecting side by side.
-/

namespace LicenseHeaders

namespace Walk

@[simp] theorem remaining_outline (filters : List NameFilter) (fs : FileSystem) (items : Nat)
    (w : Walk) : remaining filters fs.outline items w = remaining filters fs items w := by
  induction items generalizing w with
  | zero => rfl
  | succ items ih =>
      rw [remaining, remaining, next_outline]
      rcases next filters fs w with ⟨item, w', events⟩
      cases item <;> simp only [ih]

end Walk

/-- Collecting reads no contents. -/
theorem collect_outline (filters : List NameFilter) (fs : FileSystem) (roots : List Path) :
    collect filters fs.outline roots = collect filters fs roots := by
  simp [collect, Walk.budget]

/-- Collecting depends on the outline alone. -/
theorem collect_of_outline_eq {fs gs : FileSystem} (houtline : gs.outline = fs.outline)
    (filters : List NameFilter) (roots : List Path) :
    collect filters gs roots = collect filters fs roots := by
  rw [← collect_outline filters gs, houtline, collect_outline]

section

variable {fs : FileSystem} {roots : List Path} {criteria : Criteria} {filters : List NameFilter}

/-- **Collecting succeeds** where all directories can be listed, and answers what a
walk meets. -/
theorem exists_collect {pattern : Pattern} (hnamed : fs.WellNamed)
    (hfilters : filters = [.excluded (sortedNames criteria.excluded), .pattern pattern])
    (hroots : ∀ root ∈ roots, fs.leadsToDirectory root = true)
    (hlistable : Visit.Listable fs roots) :
    ∃ paths, collect filters fs roots = .ok paths ∧
      Walk.Meets filters fs ⟨roots, [], []⟩ (paths.map .ok) := by
  obtain ⟨items, hmeets⟩ := Walk.exists_meets filters hnamed ⟨roots, [], []⟩
  have htracks := Walk.tracks_start fs roots
  obtain ⟨visits, rfl, _⟩ := htracks.chosen hnamed hroots hfilters hmeets
    (htracks.quiet hnamed hroots hfilters hmeets hlistable)
  have hpaths : (visits.map (Visit.path roots)).map Except.ok =
      visits.map fun v => (.ok (v.path roots) : Except Failure Path) := List.map_map
  refine ⟨visits.map (Visit.path roots), ?_, hpaths ▸ hmeets⟩
  exact (collect_eq_ok_iff hnamed).mpr ⟨_, Walk.start_of_directories hroots, hpaths ▸ hmeets⟩

/-- Where collecting succeeds, all directories can be listed. -/
theorem listable_of_collect {pattern : Pattern} {paths : List Path} (hnamed : fs.WellNamed)
    (hfilters : filters = [.excluded (sortedNames criteria.excluded), .pattern pattern])
    (hroots : ∀ root ∈ roots, fs.leadsToDirectory root = true)
    (hcollect : collect filters fs roots = .ok paths) : Visit.Listable fs roots := by
  obtain ⟨walk, hwalk, hmeets⟩ := (collect_eq_ok_iff hnamed).mp hcollect
  obtain rfl : ⟨roots, [], []⟩ = walk :=
    Except.ok.inj ((Walk.start_of_directories hroots).symm.trans hwalk)
  have hquiet : ∀ failure, .error failure ∉ paths.map (Except.ok (ε := Failure)) := by simp
  exact fun v l hreached => (Walk.tracks_start fs roots).listed hnamed hroots hfilters hmeets hquiet
    hreached (.inl (Nat.zero_le _))

end

/-- **A run that answers its items** answers each by a line about its path, and is
seen by no walk. -/
theorem Engine.handleAll_paths {e : Engine} (hquiet : e.toPlan.Quiet) {operation : Operation}
    {items : Nat} {walk : Walk} {w u : World} {files : List FileReport}
    (hrun : e.handleAll operation items walk [] w = (.ok files, u)) :
    u.fs.outline = w.fs.outline ∧
      files.map (·.path) = (Walk.survey e.filters w.fs items walk).map Plan.subject := by
  have hbegin : w.fs.outline = w.fs.outline ∧ ([] : List FileReport).map (·.path) =
      ([] : List (Except Failure Path)).map Plan.subject := ⟨rfl, rfl⟩
  have hthrough := e.handleAll_invariant (fun _ => True)
    (fun handled files _ v => v.fs.outline = w.fs.outline ∧
      files.map (·.path) = handled.map Plan.subject)
    (fun hinv => Walk.next_of_outline_eq hinv.1 e.filters _)
    (fun _ hinv => hinv)
    (fun {_ _ _ _ v _ item _} events hinv _ _ hhandle => by
      obtain ⟨hanswer, hdeed⟩ := handle_reply operation hquiet item (v.tellAll events)
      rw [hhandle] at hanswer hdeed
      obtain rfl := Plan.eq_line_of_reply hanswer.symm
      refine ⟨hdeed.outline.trans hinv.1, ?_⟩
      rw [List.map_append, List.map_append, hinv.2, List.map_singleton, List.map_singleton,
        Plan.path_line])
    items hbegin (fun _ _ => trivial) hrun
  rw [List.nil_append] at hthrough
  obtain ⟨_, hthrough⟩ := hthrough
  exact hthrough

/-- **A run meets what collecting finds**, also where files have further names.  Let
all directories below the roots be listable.  Then collecting succeeds, a run that
keeps going returns a report if it has the header it needs, and the files of a
report that any run returns are those that collecting finds before the run, in the
same order.  After any number of files the run has the first entries of that
report, and collecting finds the same files in the tree as it is then. -/
theorem run_meets_collected {plan : Plan} {pattern : Pattern} {operation : Operation}
    {roots : List Path} {w : World} (hnamed : w.fs.WellNamed) (hquiet : plan.Quiet)
    (hpattern : Pattern.read plan.criteria.pattern = .ok pattern)
    (hroots : ∀ root ∈ roots, w.fs.leadsToDirectory root = true)
    (hlistable : Visit.Listable w.fs roots) :
    ∃ filters paths, plan.criteria.filters = .ok filters ∧
      collect filters w.fs roots = .ok paths ∧
      (plan.keepGoing = true → ¬ (operation = .synchronize ∧ plan.headers.isEmpty = true) →
        ∃ report w', plan.run operation roots w = (.ok report, w')) ∧
      ∀ report w', plan.run operation roots w = (.ok report, w') →
        report.files.map (·.path) = paths ∧
          ∀ k ≤ paths.length, ∃ halfway,
            ({ plan with filters } : Engine).handleAll operation k ⟨roots, [], []⟩ []
                (w.tellAll ({ plan with filters } : Engine).warnings) =
              (.ok (report.files.take k), halfway) ∧
            collect filters halfway.fs roots = .ok paths := by
  have hfilters := Walk.filters_of_pattern hpattern
  generalize hlist : [NameFilter.excluded _, NameFilter.pattern pattern] = filters at hfilters
  obtain ⟨paths, hcollect, hmeets⟩ := exists_collect hnamed hlist.symm hroots hlistable
  have hengine : plan.engine = .ok { plan with filters } :=
    Plan.engine_eq_ok_iff.mpr ⟨hfilters, rfl⟩
  have hstart := Walk.start_of_directories hroots
  set e : Engine := { plan with filters }
  set told := w.tellAll e.warnings
  have hitems : e.items w.fs roots ⟨roots, [], []⟩ = paths.map .ok :=
    (Engine.items_meets (e := e) hquiet.undisturbed hnamed hstart).unique hmeets
  rw [Plan.run_eq hengine]
  refine ⟨filters, paths, hfilters, hcollect, fun hkeep hheaders => ?_,
    fun report w' hrun => ?_⟩
  · obtain ⟨files, u, hall⟩ := Engine.handleAll_of_keepGoing (e := e) hkeep operation
      (e.budget w.fs roots) ⟨roots, [], []⟩ [] told
    obtain ⟨w', hrun, _⟩ := Engine.run_of_files (e := e) (w := told) hstart hheaders hall
    exact ⟨_, w', hrun⟩
  · obtain ⟨walk, u, hwalk, _, hall, _⟩ := Engine.run_eq_ok hrun
    obtain rfl : ⟨roots, [], []⟩ = walk := Except.ok.inj (hstart.symm.trans hwalk)
    obtain ⟨_, hpaths⟩ := Engine.handleAll_paths hquiet hall
    have hfound : report.files.map (·.path) = paths :=
      calc report.files.map (·.path)
          = (paths.map .ok).map Plan.subject := hpaths.trans (congrArg _ hitems)
        _ = paths := by simp [Function.comp_def, Plan.subject]
    refine ⟨hfound, fun k hk => ?_⟩
    rw [← List.nil_append report.files] at hall
    rw [← hfound, List.length_map] at hk
    obtain ⟨halfway, hhalfway⟩ := Engine.handleAll_take hall hk
    obtain ⟨houtline, _⟩ := Engine.handleAll_paths hquiet hhalfway
    exact ⟨halfway, hhalfway, (collect_of_outline_eq houtline filters roots).trans hcollect⟩

/-- A directory with a link to a text outside of it, a text, and a link to that
text which comes first. -/
def Sample.linked : FileSystem where
  entries := [([['w']], .directory),
    ([['x']], .file (.text ['(', ')', 'x'])),
    ([['w'], ['a']], .link ⟨['.', '.', '/', 'x']⟩),
    ([['w'], ['b']], .link ⟨['c']⟩),
    ([['w'], ['c']], .file (.text ['(', ')', 'y']))]
  distinct := by decide
  current := []
  denied := []

/-- Both texts are written through links, before the walk comes to the second
text itself. -/
theorem run_meets_collected_sample :
    Sample.linked.WellNamed ∧ Sample.plan.lenient.Quiet ∧
      Pattern.read Sample.plan.lenient.criteria.pattern = .ok ⟨['*'], [.anyText]⟩ ∧
      (∀ root ∈ Sample.roots, Sample.linked.leadsToDirectory root = true) ∧
      Visit.Listable Sample.linked Sample.roots ∧
      ∃ report w', Sample.plan.lenient.run .remove Sample.roots { fs := Sample.linked } =
          (.ok report, w') ∧
        report.files.map (·.path) = [⟨['w', '/', 'a']⟩, ⟨['w', '/', 'b']⟩] := by
  have hnamed : Sample.linked.WellNamed := by decide
  have hquiet : Sample.plan.lenient.Quiet := ⟨rfl, rfl⟩
  have hpattern : Pattern.read Sample.plan.lenient.criteria.pattern =
      .ok ⟨['*'], [.anyText]⟩ := by cbv
  have hroots : ∀ root ∈ Sample.roots, Sample.linked.leadsToDirectory root = true := by decide
  have hcollect : collect Sample.filters Sample.linked Sample.roots =
      .ok [⟨['w', '/', 'a']⟩, ⟨['w', '/', 'b']⟩] := by cbv
  have hfilters : Sample.plan.lenient.criteria.filters = .ok Sample.filters := by cbv
  have hlistable := listable_of_collect hnamed
    (Except.ok.inj (hfilters.symm.trans (Walk.filters_of_pattern hpattern))) hroots hcollect
  obtain ⟨filters, paths, hread, hpaths, hreturns, hmeets⟩ :=
    @run_meets_collected _ _ .remove _ { fs := Sample.linked } hnamed hquiet hpattern hroots
      hlistable
  obtain rfl := Except.ok.inj (hfilters.symm.trans hread)
  obtain rfl := Except.ok.inj (hcollect.symm.trans hpaths)
  obtain ⟨report, w', hrun⟩ := hreturns rfl fun hheaders => Operation.noConfusion hheaders.1
  exact ⟨hnamed, hquiet, hpattern, hroots, hlistable, report, w', hrun, (hmeets report w' hrun).1⟩

end LicenseHeaders

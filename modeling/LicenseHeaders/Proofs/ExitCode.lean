import LicenseHeaders.Proofs.Commands
import LicenseHeaders.Proofs.DiffFile
import LicenseHeaders.Proofs.DryRun
import LicenseHeaders.Proofs.Pointwise
import LicenseHeaders.Proofs.Precedence
import LicenseHeaders.Proofs.TargetState

/-!
# What an exit code tells

A command that has nothing to complain about before its run and comes to a
report takes a course through a few file systems: the one with its diff file
emptied, the one its run leaves, and the one with its report written.  It exits
with success exactly when it takes such a course and nothing in its report has
failed.

* `Request.Takes` — the course of a command;
* `execute_of_takes`, `takes_or_fails` — courses and exit codes;
* `Request.Leaves` — what a command leaves behind that takes a course;
* `exit_code_tells_tree` — both together.
-/

namespace LicenseHeaders

/-- The stations of a command that comes to a report. -/
structure Course where
  settings : SelectionSettings
  texts : List Text
  /-- The file system when the diff file has been emptied. -/
  ready : FileSystem
  report : Report
  /-- The file system when the run is over. -/
  after : FileSystem
  /-- The file system when the report has been written. -/
  final : FileSystem

namespace Request

/-- The report is written to its file, under all of its names, if one is wanted. -/
def Writes (r : Request) (timing : Timing) (links : HardLinks) (report : Report)
    (after final : FileSystem) : Prop :=
  match r.options.report with
  | none => final = after
  | some path => ∃ written,
    after.writeReport path { report with timing := timing } = .ok written ∧
      final = links.carry path written

/-- **A command takes a course**: its current directory is there; it loads settings
that make a valid selection with its options, and its headers; its diff file can
be emptied; its roots lead to directories; its run returns a report; and the
report can be written. -/
structure Takes (r : Request) (environment : Environment) (timing : Timing) (links : HardLinks)
    (fs : FileSystem) (c : Course) : Prop where
  sound : r.options.Sound environment fs c.settings c.texts
  emptied : r.options.emptyDiff links fs = .ok c.ready
  roots : ∀ root ∈ r.options.directories, c.ready.leadsToDirectory root = true
  ran : ∃ w, (r.options.planWith links c.settings c.texts).run r.operation r.options.directories
      { fs := c.ready } = (.ok c.report, w) ∧ w.fs = c.after
  written : r.Writes timing links c.report c.after c.final

variable {r : Request} {environment : Environment} {timing : Timing} {links : HardLinks}
  {fs : FileSystem}

/-! ## Performing -/

/-- A command with a plan returns the report of its run. -/
theorem perform_eq_ok_iff {plan : Plan} {w v w' : World} {report : Report}
    (hplan : r.options.plan environment links w = (.ok plan, v)) :
    r.perform environment links w = (.ok report, w') ↔
      plan.run r.operation r.options.directories v = (.ok report, w') := by
  have hperform : r.perform environment links w =
      (Task.ofStep Trouble.ofFailure plan.start >>= fun engine =>
        Task.ofStep (Trouble.whileTrying r.operation.attempt)
          (engine.run r.operation r.options.directories)) v := Task.bind_of_ok hplan
  rw [hperform, Plan.run, Task.bind_apply]
  unfold Task.ofStep
  rcases plan.start v with ⟨answer, u⟩
  cases answer with
  | error failure =>
      dsimp only
      constructor <;> intro hfailed <;> cases hfailed
  | ok engine =>
      dsimp only
      rcases engine.run r.operation r.options.directories u with ⟨answer, u'⟩
      cases answer with
      | error failure =>
          dsimp only
          constructor <;> intro hfailed <;> cases hfailed
      | ok other =>
          dsimp only
          constructor <;> intro hreturned <;> cases hreturned <;> rfl

/-- Nobody interferes with the runs of commands. -/
theorem undisturbed (r : Request) (links : HardLinks) (settings : SelectionSettings)
    (texts : List Text) : (r.options.planWith links settings texts).detector.edits = [] := rfl

/-- **A command that performs takes a course**, if its report can be written. -/
theorem takes_of_perform {report : Report} {w' : World} {final : FileSystem}
    (hperform : r.perform environment links { fs := fs } = (.ok report, w'))
    (hwrites : r.Writes timing links report w'.fs final) :
    ∃ c, r.Takes environment timing links fs c ∧ c.report = report ∧ c.final = final := by
  obtain ⟨trouble, v, hplan, _⟩ |
      ⟨settings, texts, hsound, ⟨failure, v, hplan, _⟩ | ⟨v, hplan, hinit⟩⟩ :=
    r.options.plan_cases environment links { fs := fs }
  · cases (Task.bind_of_error hplan).symm.trans hperform
  · cases (Task.bind_of_error hplan).symm.trans hperform
  have hrun := (perform_eq_ok_iff hplan).mp hperform
  obtain ⟨e, _, _, hran⟩ := Plan.run_eq_ok hrun
  obtain ⟨walk, _, hstart, _⟩ := Engine.run_eq_ok hran
  obtain ⟨answer, u, u', hu, hu', hfs⟩ :=
    (Plan.run_agrees (w := v) (v := { fs := v.fs }) r.operation (r.undisturbed links settings texts)
      r.options.directories rfl).split
  obtain ⟨rfl, rfl⟩ := Prod.mk.inj (hu.symm.trans hrun)
  rw [hfs] at hwrites
  exact ⟨⟨settings, texts, v.fs, report, u'.fs, final⟩,
    ⟨hsound, hinit, (Walk.directories_of_start hstart).1, ⟨u', hu', rfl⟩, hwrites⟩, rfl, rfl⟩

/-- **A command that takes a course performs.** -/
theorem Takes.perform {c : Course} (htakes : r.Takes environment timing links fs c) :
    ∃ w', r.perform environment links { fs := fs } = (.ok c.report, w') ∧ w'.fs = c.after := by
  obtain ⟨w, hrun, hafter⟩ := htakes.ran
  obtain ⟨trouble, _, _, _, hfault⟩ |
      ⟨settings, texts, hsound, ⟨failure, v, _, hinit⟩ | ⟨v, hplan, hinit⟩⟩ :=
    r.options.plan_cases environment links { fs := fs }
  · exact absurd hfault (htakes.sound.not_fault trouble)
  · cases htakes.emptied.symm.trans hinit
  obtain rfl : c.settings = settings :=
    Except.ok.inj (htakes.sound.loaded.symm.trans hsound.loaded)
  obtain rfl : c.texts = texts := Except.ok.inj (htakes.sound.headers.symm.trans hsound.headers)
  have hready : c.ready = v.fs := Except.ok.inj (htakes.emptied.symm.trans hinit)
  obtain ⟨answer, u, u', hu, hu', hfs⟩ :=
    (Plan.run_agrees (w := v) (v := { fs := c.ready }) r.operation
      (r.undisturbed links c.settings c.texts) r.options.directories hready.symm).split
  obtain ⟨rfl, rfl⟩ := Prod.mk.inj (hu'.symm.trans hrun)
  exact ⟨u, (perform_eq_ok_iff hplan).mpr hu, hfs.trans hafter⟩

/-! ## Concluding -/

/-- A report that is written is the end of a command, and says how it exits. -/
theorem conclude_of_writes {report : Report} {w : World} {final : FileSystem}
    (hwrites : r.Writes timing links report w.fs final) :
    ∃ told, r.conclude environment timing links (.ok report, w) =
      ⟨if report.hasFailures then 1 else 0, told, final⟩ := by
  unfold Writes at hwrites
  unfold conclude saveReport
  cases hreport : r.options.report with
  | none =>
      rw [hreport] at hwrites
      rw [hwrites]
      exact ⟨_, rfl⟩
  | some path =>
      rw [hreport] at hwrites
      obtain ⟨written, hwritten, rfl⟩ := hwrites
      simp only [hwritten]
      exact ⟨_, rfl⟩

/-- A report is written, or the command ends in trouble. -/
theorem writes_or_fails (r : Request) (environment : Environment) (timing : Timing)
    (links : HardLinks) (report : Report) (w : World) :
    (∃ final, r.Writes timing links report w.fs final) ∨
      (r.conclude environment timing links (.ok report, w)).exitCode = 1 := by
  unfold Writes conclude saveReport
  cases r.options.report with
  | none => exact .inl ⟨w.fs, rfl⟩
  | some path =>
      dsimp only
      cases w.fs.writeReport path { report with timing := timing } with
      | error failure => exact .inr rfl
      | ok written => exact .inl ⟨_, written, rfl, rfl⟩

end Request

section

variable {environment : Environment} {timing : Timing} {links : HardLinks} {fs : FileSystem}
  {arguments : List Text} {request : Request}
  (hrequest : Request.ofArguments arguments = .ok request)

include hrequest

/-- **The exit code of a course** says whether something in its report has failed. -/
theorem execute_of_takes {c : Course} (htakes : request.Takes environment timing links fs c) :
    ∃ told, execute environment timing fs arguments links =
      ⟨if c.report.hasFailures then 1 else 0, told, c.final⟩ := by
  obtain ⟨w', hperform, hafter⟩ := htakes.perform
  have hwrites := htakes.written
  rw [← hafter] at hwrites
  unfold execute
  rw [hrequest]
  dsimp only
  rw [hperform]
  exact Request.conclude_of_writes hwrites

/-- **Without a course a command exits with a failure.** -/
theorem takes_or_fails (environment : Environment) (timing : Timing) (links : HardLinks)
    (fs : FileSystem) :
    (∃ c, request.Takes environment timing links fs c) ∨
      (execute environment timing fs arguments links).exitCode = 1 := by
  unfold execute
  rw [hrequest]
  dsimp only
  cases hperform : request.perform environment links { fs := fs } with
  | mk answer w' =>
      cases answer with
      | error trouble => exact .inr rfl
      | ok report =>
          rcases request.writes_or_fails environment timing links report w' with
            ⟨final, hwrites⟩ | hfails
          · obtain ⟨c, htakes, _⟩ := Request.takes_of_perform hperform hwrites
            exact .inl ⟨c, htakes⟩
          · exact .inr hfails

end

/-! ## What a course leaves behind -/

/-- A report without failures has no entry that failed. -/
theorem Report.hasFailures_eq_false_iff {report : Report} :
    report.hasFailures = false ↔ ∀ file ∈ report.files, file.action ≠ .failed := by
  rw [hasFailures, failedCount, failed, decide_eq_false_iff_not, Nat.not_lt, Nat.le_zero,
    List.length_eq_zero_iff, List.filter_eq_nil_iff]
  simp

namespace Options

variable {o : Options} {links : HardLinks} {fs emptied : FileSystem}

/-- **The diff file is there when it has been emptied**, and nothing but its names has
been changed. -/
theorem opens_of_emptied (hemptied : o.emptyDiff links fs = .ok emptied) :
    o.diffOutput.Opens emptied ∧
      ∀ l, ¬ links.Spread (o.diffOutput.Owns emptied) l → emptied.find? l = fs.find? l := by
  obtain ⟨hunsaved, rfl⟩ | ⟨saved, written, hsaved, hwrite, rfl⟩ := emptyDiff_eq_ok hemptied
  · refine ⟨?_, fun _ _ => rfl⟩
    rintro l ⟨other, hother, _⟩
    cases hunsaved.symm.trans hother
  · obtain ⟨k, _, hplace, hfile, hkept⟩ := links.located_modified hwrite
    refine ⟨?_, fun l hl => hkept l fun hnames => hl ⟨k, ⟨saved, hsaved, hplace⟩, hnames⟩⟩
    rintro l ⟨other, hother, hl⟩
    obtain rfl : saved = other := Option.some.inj (hsaved.symm.trans hother)
    obtain rfl : l = k := Except.ok.inj (hl.symm.trans hplace)
    exact ⟨_, hfile⟩

/-- Emptying the diff file spoils no name. -/
theorem wellNamed_of_emptied (hnamed : fs.WellNamed)
    (hemptied : o.emptyDiff links fs = .ok emptied) : emptied.WellNamed := by
  obtain ⟨_, rfl⟩ | ⟨_, _, _, hwrite, rfl⟩ := emptyDiff_eq_ok hemptied
  · exact hnamed
  · exact links.wellNamed_modified hnamed hwrite

/-- Names agree when the diff file has been emptied, if only files have further
names. -/
theorem holds_of_emptied (hholds : links.Holds fs) (hfiled : links.Filed fs)
    (hemptied : o.emptyDiff links fs = .ok emptied) : links.Holds emptied := by
  obtain ⟨_, rfl⟩ | ⟨_, _, _, hwrite, rfl⟩ := emptyDiff_eq_ok hemptied
  · exact hholds
  · exact hholds.modified hfiled hwrite

end Options

namespace Request

/-- The files that a command writes for itself, under all of their names: the diff
file and the report. -/
def Owns (r : Request) (links : HardLinks) (fs : FileSystem) : Location → Prop :=
  links.Spread fun l => ∃ path,
    (r.options.savedDiff = some path ∨ r.options.report = some path) ∧
      fs.locate .creation path = .ok l

/-- **What a command leaves behind** that takes a course.  If it writes no file of
its own and nothing has failed, it has done what the operation does by itself,
for the loaded headers and the selection of the command; a dry run has done
nothing.  And in any real run all lines of the report are right, whatever has
failed: the selected files that have not failed are in their target state,
but for the command's own files.  Files can have several names, which have one
content and one set of rights. -/
structure Leaves (r : Request) (environment : Environment) (links : HardLinks) (fs : FileSystem)
    (c : Course) (left : FileSystem) : Prop where
  plain : r.options.savedDiff = none → r.options.report = none → r.options.dryRun = false →
    c.report.hasFailures = false → ∀ keepGoing, ∃ w,
      Plan.run
          { headers := ⟨c.texts⟩, criteria := r.options.selection environment fs, links, keepGoing }
        r.operation r.options.directories { fs := fs } = (.ok c.report, w) ∧ w.fs = left
  dry : r.options.savedDiff = none → r.options.report = none → r.options.dryRun = true → left = fs
  brought : fs.WellNamed → links.Holds fs → links.Filed fs → r.options.dryRun = false →
    ∃ filters walk items, (r.options.selection environment fs).filters = .ok filters ∧
      Walk.start c.ready r.options.directories = .ok walk ∧
      Walk.Meets filters c.ready walk items ∧
      List.Forall₂ (Brought (r.options.planWith links c.settings c.texts) r.operation fs c.ready
        left (r.Owns links c.ready) items) items c.report.files

variable {r : Request} {environment : Environment} {timing : Timing} {links : HardLinks}
  {fs : FileSystem} {c : Course}

namespace Takes

variable (htakes : r.Takes environment timing links fs c)

include htakes

/-- Without a diff file nothing is changed before the run. -/
theorem ready_eq (hunsaved : r.options.savedDiff = none) : c.ready = fs := by
  obtain ⟨_, hsame⟩ | ⟨saved, _, hsaved, _⟩ := Options.emptyDiff_eq_ok htakes.emptied
  · exact hsame
  · cases hunsaved.symm.trans hsaved

/-- Without a report nothing is changed behind the run. -/
theorem final_eq (hunreported : r.options.report = none) : c.final = c.after := by
  have hwritten := htakes.written
  unfold Writes at hwritten
  rwa [hunreported] at hwritten

/-- The report is written to one file. -/
theorem find?_final {l : Location} (hl : ¬ r.Owns links c.ready l)
    (houtline : c.after.outline = c.ready.outline) : c.final.find? l = c.after.find? l := by
  have hwritten := htakes.written
  unfold Writes at hwritten
  split at hwritten
  · rw [hwritten]
  · next path hreport =>
    obtain ⟨written, hwrites, hfinal⟩ := hwritten
    unfold FileSystem.writeReport at hwrites
    split at hwrites
    · next _ hwrite =>
      cases hwrites
      obtain ⟨k, old, hlocate, _, hput⟩ := links.carry_modified hwrite
      rw [FileSystem.locate_of_outline_eq houtline] at hlocate
      rw [hfinal, hput]
      exact HardLinks.find?_write_of_not_names fun hnames =>
        hl ⟨k, ⟨path, .inr hreport, hlocate⟩, hnames⟩
    · cases hwrites

/-- A command selects by the settings that its options override. -/
theorem criteria_eq :
    (r.options.planWith links c.settings c.texts).criteria = r.options.selection environment fs :=
  Options.criteria_merge htakes.sound.loaded

/-- **A command without files of its own** that fails nowhere does what the
operation does by itself. -/
theorem plain (hunsaved : r.options.savedDiff = none) (hreal : r.options.dryRun = false)
    (hunfailed : c.report.hasFailures = false) (keepGoing : Bool) :
    ∃ w, Plan.run
        { headers := ⟨c.texts⟩, criteria := r.options.selection environment fs, links, keepGoing }
      r.operation r.options.directories { fs := fs } = (.ok c.report, w) ∧ w.fs = c.after := by
  obtain ⟨w, hrun, hafter⟩ := htakes.ran
  obtain ⟨e, hengine, hplan, hran⟩ := Plan.run_eq_ok hrun
  rw [htakes.ready_eq hunsaved] at hran
  set alone : Plan :=
    { headers := ⟨c.texts⟩, criteria := r.options.selection environment fs, links, keepGoing }
  have hfilters : alone.criteria.filters = .ok e.filters := by
    have hfilters := (Plan.engine_eq_ok_iff.mp hengine).1
    rwa [htakes.criteria_eq] at hfilters
  have halone : alone.engine = .ok { alone with filters := e.filters } :=
    Plan.engine_eq_ok_iff.mpr ⟨hfilters, rfl⟩
  have hmirrors : e.Mirrors { alone with filters := e.filters } := by
    rw [show e = { e.toPlan with filters := e.filters } from rfl, hplan]
    exact ⟨rfl, rfl, rfl, hreal.symm, rfl⟩
  obtain ⟨v, hgoes, hfs⟩ := Engine.run_of_unfailed hmirrors (hplan ▸ ⟨rfl, hunsaved⟩) ⟨rfl, rfl⟩
    (w := World.tellAll { fs := fs } e.warnings)
    (v := World.tellAll { fs := fs } ({ alone with filters := e.filters } : Engine).warnings) rfl
    hran (Report.hasFailures_eq_false_iff.mp hunfailed)
  exact ⟨v, (Plan.run_eq halone _ _ _).trans hgoes, hfs.trans hafter⟩

/-- **A dry run changes nothing** but files of its own. -/
theorem dry (hunsaved : r.options.savedDiff = none) (hdry : r.options.dryRun = true) :
    c.after = fs := by
  obtain ⟨w, hrun, hafter⟩ := htakes.ran
  obtain ⟨e, _, hplan, hran⟩ := Plan.run_eq_ok hrun
  have hquiet : e.toPlan.Quiet := hplan ▸ ⟨rfl, hunsaved⟩
  have hedry : e.dryRun = true := by
    rw [hplan]
    exact hdry
  have hidle := Engine.run_of_dry hquiet hedry r.operation r.options.directories
    (World.tellAll { fs := c.ready } e.warnings)
  rw [hran] at hidle
  rw [← hafter, hidle.fs, ← htakes.ready_eq hunsaved]
  rfl

/-- **In a real run every line of the report is right**, whatever has failed. -/
theorem brought (hnamed : fs.WellNamed) (hholds : links.Holds fs) (hfiled : links.Filed fs)
    (hreal : r.options.dryRun = false) :
    ∃ filters walk items, (r.options.selection environment fs).filters = .ok filters ∧
      Walk.start c.ready r.options.directories = .ok walk ∧
      Walk.Meets filters c.ready walk items ∧
      List.Forall₂ (Brought (r.options.planWith links c.settings c.texts) r.operation fs c.ready
        c.final (r.Owns links c.ready) items) items c.report.files := by
  obtain ⟨w, hrun, hafter⟩ := htakes.ran
  obtain ⟨e, hengine, hplan, hran⟩ := Plan.run_eq_ok hrun
  obtain ⟨hopens, hkept⟩ := Options.opens_of_emptied htakes.emptied
  have hdiff : e.diff = r.options.diffOutput := by rw [hplan]; rfl
  have hlinks : e.links = links := by rw [hplan]; rfl
  have hpure : e.detector.edits = [] := by rw [hplan]; rfl
  have hverbatim : e.detector.present = verbatim := by rw [hplan]; rfl
  have hwrites : e.dryRun = false := by rw [hplan]; exact hreal
  obtain ⟨walk, hstart, houtline, hlines⟩ := Engine.run_brings hpure hverbatim hwrites
    (hdiff ▸ hopens) (hlinks ▸ Options.holds_of_emptied hholds hfiled htakes.emptied) hran
  rw [World.tellAll_fs] at houtline hlines
  rw [hafter] at houtline hlines
  have hfilters := (Plan.engine_eq_ok_iff.mp hengine).1
  rw [htakes.criteria_eq] at hfilters
  refine ⟨e.filters, walk, e.items c.ready r.options.directories walk, hfilters, hstart,
    Engine.items_meets hpure (Options.wellNamed_of_emptied hnamed htakes.emptied) hstart, ?_⟩
  -- The diff file is one of the command's own files.
  have hwider : ∀ l, e.DiffAt c.ready l → r.Owns links c.ready l := by
    rintro l ⟨k, ⟨saved, hsaved, hlocate⟩, hnames⟩
    rw [hdiff] at hsaved
    exact ⟨k, ⟨saved, .inl hsaved, hlocate⟩, hlinks ▸ hnames⟩
  have hbefore : ∀ l, ¬ r.Owns links c.ready l → c.ready.find? l = fs.find? l :=
    fun l hl => hkept l fun hspread => hl (hwider l (by rwa [Engine.DiffAt, hlinks, hdiff]))
  rw [← hplan]
  exact hlines.imp fun _ _ hline =>
    hline.of_apart hwider hbefore fun l hl => htakes.find?_final hl houtline

/-- What a command leaves behind that takes a course. -/
theorem leaves : r.Leaves environment links fs c c.final where
  plain := fun hunsaved hunreported hreal hunfailed keepGoing => by
    rw [htakes.final_eq hunreported]
    exact htakes.plain hunsaved hreal hunfailed keepGoing
  dry := fun hunsaved hunreported hdry => by
    rw [htakes.final_eq hunreported, htakes.dry hunsaved hdry]
  brought := htakes.brought

end Takes

end Request

/-- **Success means that the tree is in the requested state.**  A command exits with
success exactly if it takes a course and nothing in its report has failed; in
every other case it exits with a failure.  What it leaves behind is what its
course says: without files of its own a success is the operation itself, or
nothing in a dry run; and a real run that comes to a report has brought every
selected file that has not failed to its target state. -/
theorem exit_code_tells_tree {arguments : List Text} {request : Request}
    (hrequest : Request.ofArguments arguments = .ok request) (environment : Environment)
    (timing : Timing) (links : HardLinks) (fs : FileSystem) :
    ((execute environment timing fs arguments links).exitCode = 0 ↔
        ∃ c, request.Takes environment timing links fs c ∧ c.report.hasFailures = false) ∧
      ((execute environment timing fs arguments links).exitCode ≠ 0 →
        (execute environment timing fs arguments links).exitCode = 1) ∧
      ∀ c, request.Takes environment timing links fs c →
        (execute environment timing fs arguments links).exitCode =
            (if c.report.hasFailures then 1 else 0) ∧
          request.Leaves environment links fs c
            (execute environment timing fs arguments links).fs := by
  have hcourse : ∀ c, request.Takes environment timing links fs c →
      (execute environment timing fs arguments links).exitCode =
        (if c.report.hasFailures then 1 else 0) ∧
      (execute environment timing fs arguments links).fs = c.final := by
    intro c htakes
    obtain ⟨told, hexecute⟩ := execute_of_takes hrequest htakes
    rw [hexecute]
    exact ⟨rfl, rfl⟩
  have hcases := takes_or_fails hrequest environment timing links fs
  refine ⟨⟨fun hsuccess => ?_, ?_⟩, fun hfailed => ?_, fun c htakes => ?_⟩
  · rcases hcases with ⟨c, htakes⟩ | hone
    · refine ⟨c, htakes, ?_⟩
      by_contra hfailures
      rw [Bool.not_eq_false] at hfailures
      have hcode := (hcourse c htakes).1
      rw [hsuccess, hfailures] at hcode
      cases hcode
    · rw [hsuccess] at hone
      cases hone
  · rintro ⟨c, htakes, hunfailed⟩
    rw [(hcourse c htakes).1, hunfailed]
    rfl
  · rcases hcases with ⟨c, htakes⟩ | hone
    · have hcode := (hcourse c htakes).1
      split at hcode
      · exact hcode
      · exact absurd hcode hfailed
    · exact hone
  · rw [(hcourse c htakes).2]
    exact ⟨(hcourse c htakes).1, htakes.leaves⟩

namespace Sample

/-- A header, and a directory with a file that is no text and two files that begin
with the header. -/
def mixed : FileSystem where
  entries := [([['h']], .file (.text ['a'])),
    ([['w']], .directory),
    ([['w'], ['a']], .file (.binary ⟨⟨#[255]⟩, by decide⟩)),
    ([['w'], ['b']], .file (.text ['a', 'y'])),
    ([['w'], ['c']], .file (.text ['a', 'z']))]
  distinct := by decide
  current := []
  denied := []

/-- The same when the two files have other contents. -/
def holding (b c : Text) : FileSystem :=
  (mixed.put [['w'], ['b']] (.file (.text b))).put [['w'], ['c']] (.file (.text c))

/-- A command that removes the header from all files of the directory. -/
def sweeping (more : List String) : List Text :=
  (["remove", "-l", "h", "-d", "w", "-p", "*", "--keep-going"] ++ more).map String.toList

/-- What such a command asks for. -/
def sweep (dryRun : Bool) (savedDiff report : Option Path) : Request where
  operation := .remove
  options := {
    licenses := [⟨['h']⟩]
    directories := [⟨['w']⟩]
    pattern := some ['*']
    keepGoing := true
    dryRun, savedDiff, report }

/-- The engine that does it. -/
def sweeper (dryRun : Bool) (savedDiff : Option Path) : Engine where
  headers := ⟨[['a']]⟩
  criteria := { pattern := ['*'] }
  diff := { saved := savedDiff }
  dryRun := dryRun
  keepGoing := true
  filters := [.excluded ["__init__.py".toList], .pattern ⟨['*'], [.anyText]⟩]

/-- The line about the file that is no text. -/
def unread : FileReport :=
  ⟨⟨['w', '/', 'a']⟩, .failed,
    some "Failed to read w/a: stream did not contain valid UTF-8".toList⟩

/-- The report of such a command. -/
def sweepReport (dryRun : Bool) (b : Action) : Report where
  operation := .remove
  dryRun := dryRun
  files := [unread, ⟨⟨['w', '/', 'b']⟩, b, none⟩, ⟨⟨['w', '/', 'c']⟩, .stripped, none⟩]

/-- The course of such a command, from what handling each of the files comes to. -/
theorem sweep_takes {dryRun : Bool} {savedDiff report : Option Path} (mid : FileSystem)
    {ready after final : FileSystem} {b : Action}
    (hemptied : (sweep dryRun savedDiff report).options.emptyDiff {} mixed = .ok ready)
    (houtline : ready.outline = mixed.outline)
    (hfirst : Agrees ((sweeper dryRun savedDiff).handle .remove (.ok ⟨['w', '/', 'a']⟩)
      { fs := ready }) (.ok unread, { fs := ready }))
    (hsecond : Agrees ((sweeper dryRun savedDiff).handle .remove (.ok ⟨['w', '/', 'b']⟩)
      { fs := ready }) (.ok ⟨⟨['w', '/', 'b']⟩, b, none⟩, { fs := mid }))
    (hthird : Agrees ((sweeper dryRun savedDiff).handle .remove (.ok ⟨['w', '/', 'c']⟩)
      { fs := mid }) (.ok ⟨⟨['w', '/', 'c']⟩, .stripped, none⟩, { fs := after }))
    (hwrites : (sweep dryRun savedDiff report).Writes {} {} (sweepReport dryRun b) after final) :
    (sweep dryRun savedDiff report).Takes (fun _ => none) {} {} mixed
      ⟨{}, [['a']], ready, sweepReport dryRun b, after, final⟩ := by
  have hengine : ((sweep dryRun savedDiff report).options.planWith {} {} [['a']]).engine =
      .ok (sweeper dryRun savedDiff) := by cbv
  have hroots : ∀ root ∈ [⟨['w']⟩], ready.leadsToDirectory root = true := by
    rw [List.forall_mem_singleton, ← FileSystem.leadsToDirectory_outline, houtline]
    decide
  have hitems : (sweeper dryRun savedDiff).items ready [⟨['w']⟩] ⟨[⟨['w']⟩], [], []⟩ =
      [.ok ⟨['w', '/', 'a']⟩, .ok ⟨['w', '/', 'b']⟩, .ok ⟨['w', '/', 'c']⟩] := by
    rw [Engine.items_of_outline_eq houtline]
    cbv
  have hhandles : (sweeper dryRun savedDiff).Handles .remove
      ((sweeper dryRun savedDiff).items ready [⟨['w']⟩] ⟨[⟨['w']⟩], [], []⟩) { fs := ready }
      (sweepReport dryRun b).files { fs := after } :=
    hitems ▸ .cons hfirst (.cons hsecond (.cons hthird (.nil _)))
  obtain ⟨answer, u, u', hrun, hreturned, hafter⟩ :=
    (Plan.run_of_handles (w := { fs := ready }) hengine rfl rfl
      (Options.opens_of_emptied hemptied).1 (fun hneeded => Operation.noConfusion hneeded.1)
      (Walk.start_of_directories hroots) hhandles).split
  obtain ⟨rfl, rfl⟩ := Prod.mk.inj hreturned
  exact {
    sound := ⟨rfl, rfl, rfl, rfl⟩
    emptied := hemptied
    roots := hroots
    ran := ⟨u, hrun, hafter⟩
    written := hwrites }

/-- The files that are texts lose the header. -/
theorem sweep_plain : (sweep false none none).Takes (fun _ => none) {} {} mixed
    ⟨{}, [['a']], mixed, sweepReport false .stripped, holding ['y'] ['z'],
      holding ['y'] ['z']⟩ :=
  sweep_takes (holding ['y'] ['a', 'z']) rfl rfl ⟨rfl, rfl⟩ ⟨rfl, rfl⟩ ⟨rfl, rfl⟩ rfl

/-- A dry run tells of the same entries and leaves all files as they are. -/
theorem sweep_dry : (sweep true none none).Takes (fun _ => none) {} {} mixed
    ⟨{}, [['a']], mixed, sweepReport true .stripped, mixed, mixed⟩ :=
  sweep_takes mixed rfl rfl ⟨rfl, rfl⟩ ⟨rfl, rfl⟩ ⟨rfl, rfl⟩ rfl

/-- What a diff file has in the end. -/
def diffs : Text := "Diff for w/c:\n-az\n+z\n\n".toList

/-- A diff file among the files is emptied before it is met, and has a diff in the
end. -/
theorem sweep_saved : (sweep false (some ⟨['w', '/', 'b']⟩) none).Takes (fun _ => none) {} {} mixed
    ⟨{}, [['a']], holding [] ['a', 'z'], sweepReport false .unchanged, holding diffs ['z'],
      holding diffs ['z']⟩ :=
  sweep_takes (holding [] ['a', 'z']) rfl rfl ⟨rfl, rfl⟩ ⟨rfl, rfl⟩ ⟨rfl, rfl⟩ rfl

/-- A report among the files replaces what has been stripped. -/
theorem sweep_reported :
    (sweep false none (some ⟨['w', '/', 'b']⟩)).Takes (fun _ => none) {} {} mixed
      ⟨{}, [['a']], mixed, sweepReport false .stripped, holding ['y'] ['z'],
        holding (sweepReport false .stripped).prettyText ['z']⟩ :=
  sweep_takes (holding ['y'] ['a', 'z']) rfl rfl ⟨rfl, rfl⟩ ⟨rfl, rfl⟩ ⟨rfl, rfl⟩ ⟨_, rfl, rfl⟩

end Sample

/-- A file that is no text fails the command, and the file beside it is done. -/
theorem exit_code_tells_tree_sample :
    Request.ofArguments (Sample.sweeping []) = .ok (Sample.sweep false none none) ∧
      (execute (fun _ => none) {} Sample.mixed (Sample.sweeping [])).exitCode = 1 ∧
      ∃ t, (execute (fun _ => none) {} Sample.mixed (Sample.sweeping [])).fs.find? [['w'], ['b']] =
          some (.file (.text t)) ∧
        Settled .remove ⟨[['a']]⟩ t := by
  have hrequest :
      Request.ofArguments (Sample.sweeping []) = .ok (Sample.sweep false none none) := by
    cbv
  obtain ⟨_, _, hcourse⟩ := exit_code_tells_tree hrequest (fun _ => none) {} {} Sample.mixed
  obtain ⟨hcode, hleaves⟩ := hcourse _ Sample.sweep_plain
  refine ⟨hrequest, hcode, ?_⟩
  obtain ⟨_, _, _, _, _, _, hbrought⟩ :=
    hleaves.brought (by decide) (HardLinks.holds_none _) (HardLinks.filed_none _) rfl
  rcases hbrought with _ | ⟨_, _ | ⟨hline, _⟩⟩
  obtain ⟨path, l, rfl, hl, hcontent⟩ := hline.target Action.noConfusion
  obtain rfl : ⟨['w', '/', 'b']⟩ = path := hline.path
  obtain rfl : [['w'], ['b']] = l := Option.some.inj hl
  have hforeign : ¬ (Sample.sweep false none none).Owns {} Sample.mixed [['w'], ['b']] := by
    rintro ⟨_, ⟨_, hsaved | hreport, _⟩, _⟩
    · cases hsaved
    · cases hreport
  obtain ⟨_, _, _, _, hfind, hsettled, _⟩ := hcontent hforeign
  exact ⟨_, hfind, hsettled⟩

namespace Sample

/-- A command takes a course and fails, and a file whose line in the report has not
failed is left with the header in it. -/
def Misses (more : List String) : Prop :=
  ∃ request c t, Request.ofArguments (sweeping more) = .ok request ∧
    request.options.keepGoing = true ∧ request.Takes (fun _ => none) {} {} mixed c ∧
    (execute (fun _ => none) {} mixed (sweeping more)).exitCode = 1 ∧
    (∃ file ∈ c.report.files, file.path = ⟨['w', '/', 'b']⟩ ∧ file.action ≠ .failed) ∧
    (execute (fun _ => none) {} mixed (sweeping more)).fs.find? [['w'], ['b']] =
      some (.file (.text t)) ∧
    ¬ Settled request.operation ⟨c.texts⟩ t

/-- A course after which a header is left in the second file misses it. -/
theorem sweep_misses {more : List String} {dryRun : Bool} {savedDiff report : Option Path}
    {ready after final : FileSystem} {b : Action} {t : Text}
    (hrequest : Request.ofArguments (sweeping more) = .ok (sweep dryRun savedDiff report))
    (htakes : (sweep dryRun savedDiff report).Takes (fun _ => none) {} {} mixed
      ⟨{}, [['a']], ready, sweepReport dryRun b, after, final⟩)
    (hb : b ≠ .failed) (hfind : final.find? [['w'], ['b']] = some (.file (.text t)))
    (hheader : 'a' ∈ t) : Misses more := by
  obtain ⟨told, hexecute⟩ := execute_of_takes hrequest htakes
  refine ⟨_, _, t, hrequest, rfl, htakes, ?_, ?_, ?_, ?_⟩
  · rw [hexecute]
    rfl
  · exact ⟨_, List.mem_cons_of_mem _ List.mem_cons_self, rfl, hb⟩
  · rw [hexecute]
    exact hfind
  · intro hfree
    exact hfree ['a'] List.mem_cons_self (List.cons_ne_nil _ _)
      ((List.singleton_infix_iff _ _).mpr hheader)

/-- The same tree, when the current directory has been deleted. -/
def adrift : FileSystem := { mixed with current := [['x']] }

/-- A command that removes the header from one of the files, by paths from the root. -/
def reaching : List Text := ["remove", "-l", "/h", "-d", "/w", "-p", "b"].map String.toList

/-- What this command asks for. -/
def reach : Request where
  operation := .remove
  options := { licenses := [⟨['/', 'h']⟩], directories := [⟨['/', 'w']⟩], pattern := some ['b'] }

/-- The engine that does it. -/
def reacher : Engine where
  headers := ⟨[['a']]⟩
  criteria := { pattern := ['b'] }
  filters := [.excluded ["__init__.py".toList], .pattern ⟨['b'], [.literal 'b']⟩]

/-- The line about the file. -/
def reached : FileReport := ⟨⟨['/', 'w', '/', 'b']⟩, .stripped, none⟩

/-- Nothing is wrong with a command but that its current directory is gone: its
settings, its selection and its headers are fine, it has no files of its own, its
directories are there, and its run returns a report without failures.  It exits
with a failure and leaves the tree as it was. -/
def Astray : Prop :=
  ∃ request settings texts report w, Request.ofArguments reaching = .ok request ∧
    (loadSettings adrift
      (request.options.settingsSource (fun _ => none) adrift.current.path)).1 = .ok settings ∧
    (settings.merge { pattern := request.options.pattern, exclude := request.options.exclude }).2 =
      .ok () ∧
    (loadTexts adrift request.options.licenses).1 = .ok texts ∧
    request.options.savedDiff = none ∧ request.options.report = none ∧
    (∀ root ∈ request.options.directories, adrift.leadsToDirectory root = true) ∧
    (request.options.planWith {} settings texts).run request.operation request.options.directories
      { fs := adrift } = (.ok report, w) ∧
    report.hasFailures = false ∧
    (execute (fun _ => none) {} adrift reaching).exitCode = 1 ∧
    (execute (fun _ => none) {} adrift reaching).fs = adrift

theorem reach_astray : Astray := by
  have hrequest : Request.ofArguments reaching = .ok reach := by cbv
  have hengine : (reach.options.planWith {} {} [['a']]).engine = .ok reacher := by cbv
  have hroots : ∀ root ∈ reach.options.directories, adrift.leadsToDirectory root = true := by
    decide
  have hitems : reacher.items adrift [⟨['/', 'w']⟩] ⟨[⟨['/', 'w']⟩], [], []⟩ =
      [.ok ⟨['/', 'w', '/', 'b']⟩] := by cbv
  have hhandled : Agrees (reacher.handle .remove (.ok ⟨['/', 'w', '/', 'b']⟩) { fs := adrift })
      (.ok reached, { fs := adrift.put [['w'], ['b']] (.file (.text ['y'])) }) := ⟨rfl, rfl⟩
  have hhandles : reacher.Handles .remove
      (reacher.items adrift [⟨['/', 'w']⟩] ⟨[⟨['/', 'w']⟩], [], []⟩) { fs := adrift } [reached]
      { fs := adrift.put [['w'], ['b']] (.file (.text ['y'])) } :=
    hitems ▸ .cons hhandled (.nil _)
  have hemptied : reach.options.emptyDiff {} adrift = .ok adrift := rfl
  obtain ⟨answer, w, _, hrun, hreturned, _⟩ :=
    (Plan.run_of_handles (w := { fs := adrift }) hengine rfl rfl
      (Options.opens_of_emptied hemptied).1 (fun hneeded => Operation.noConfusion hneeded.1)
      (Walk.start_of_directories hroots) hhandles).split
  obtain ⟨rfl, rfl⟩ := Prod.mk.inj hreturned
  have hgone : adrift.currentPath = .error .noSuchEntry := rfl
  have hfault : reach.options.Fault (fun _ => none) adrift
      ⟨"Failed to get current directory", [Cause.noSuchEntry.message]⟩ := .astray hgone
  obtain ⟨_, w', hperform, hfs, _⟩ := Request.perform_of_fault (w := { fs := adrift }) {} hfault
  obtain ⟨told, hexecute⟩ := execute_of_trouble hrequest hperform {}
  refine ⟨reach, {}, [['a']], _, w, hrequest, rfl, rfl, rfl, rfl, rfl, hroots, hrun, rfl, ?_, ?_⟩
  · rw [hexecute]
  · rw [hexecute]
    exact hfs

end Sample

/-- A dry run leaves all headers, a diff file or a report can take the place of a
selected file, and a command whose current directory is gone fails for nothing else. -/
theorem failed_run_can_miss_files :
    Sample.Misses ["--dry-run"] ∧ Sample.Misses ["--save-diff", "w/b"] ∧
      Sample.Misses ["--report-json", "w/b"] ∧ Sample.Astray := by
  refine ⟨?_, ?_, ?_, Sample.reach_astray⟩
  · exact Sample.sweep_misses (by cbv) Sample.sweep_dry Action.noConfusion rfl (by decide)
  · exact Sample.sweep_misses (by cbv) Sample.sweep_saved Action.noConfusion rfl (by decide)
  · obtain ⟨rest, hpretty⟩ : ∃ rest, (Sample.sweepReport false .stripped).prettyText =
        "\x7b\n  \"summa".toList ++ rest := ⟨_, rfl⟩
    refine Sample.sweep_misses (by cbv) Sample.sweep_reported Action.noConfusion rfl ?_
    rw [hpretty]
    exact List.mem_append_left _ (by decide)

end LicenseHeaders

import LicenseHeaders.Proofs.DiffFile
import LicenseHeaders.Proofs.DryRun
import LicenseHeaders.Proofs.FailFast

/-!
# The diff file holds the diffs of its run

The diff file is emptied before a run and then grows at its end, by one diff for each
file that is to change and by nothing for any other.  A diff is made of what has been
read, before anything is written, so it is about the file as it was before the run:
no file is met twice, and none of them is the diff file.  A dry run comes to the same
diffs, since it leaves out only what comes after them.

* `DiffOutput.put_of_holds` — a diff is added to what the file holds;
* `Engine.Saves` — the invariant: the diff file holds the diffs of the items handled;
* `Engine.handles_of_dry` — a dry run passes what its items let pass;
* `saved_diffs_record` — what the diff file holds after a run that returns a report.
-/

namespace LicenseHeaders

open FileSystem (Beside)

/-! ## Adding to the diff file -/

/-- A text is added to a text that may be written. -/
theorem FileSystem.appendText_of_file {fs : FileSystem} {p : Path} {l : Location} {t : Text}
    (hlocate : fs.locate .creation p = .ok l) (hgranted : fs.grants .writing l = true)
    (hfile : fs.find? l = some (.file (.text t))) (added : Text) :
    fs.appendText p added = .ok (fs.put l (.file (.text (t ++ added)))) := by
  simp [appendText, modifyFile, hlocate, hgranted, hfile, bind, Except.bind, Content.append]

namespace DiffOutput

variable {d : DiffOutput} {fs gs : FileSystem} {l : Location} {t more : Text}

/-- The diff file is where its path leads, may be written and holds a text. -/
structure Holds (d : DiffOutput) (fs : FileSystem) (l : Location) (t : Text) : Prop where
  owned : d.Owns fs l
  granted : fs.grants .writing l = true
  content : fs.find? l = some (.file (.text t))

namespace Holds

variable (hholds : d.Holds fs l t)

include hholds

/-- A diff file is at one location. -/
theorem eq_of_owns {k : Location} (hk : d.Owns fs k) : k = l := by
  obtain ⟨saved, hsaved, hlocate⟩ := hholds.owned
  obtain ⟨other, hother, hplace⟩ := hk
  obtain rfl : saved = other := Option.some.inj (hsaved.symm.trans hother)
  exact Except.ok.inj (hplace.symm.trans hlocate)

theorem opens : d.Opens fs := fun _ hk => ⟨_, hholds.eq_of_owns hk ▸ hholds.content⟩

/-- The diff file is where it was as long as the outline is kept. -/
theorem congr (houtline : gs.outline = fs.outline)
    (hcontent : gs.find? l = some (.file (.text more))) : d.Holds gs l more where
  owned := owns_congr houtline ▸ hholds.owned
  granted := (FileSystem.grants_of_outline_eq houtline .writing l).trans hholds.granted
  content := hcontent

/-- It holds what it held after a change of other files. -/
theorem rewrite {contents : List (Location × Text)}
    (hfiles : ∀ row ∈ contents, ∃ old, fs.find? row.1 = some (.file old))
    (hothers : ∀ row ∈ contents, ¬ d.Owns fs row.1) : d.Holds (fs.rewrite contents) l t := by
  refine hholds.congr (FileSystem.outline_rewrite hfiles) ?_
  rw [FileSystem.find?_rewrite_of_not_mem, hholds.content]
  intro hmem
  obtain ⟨row, hrow, rfl⟩ := List.mem_map.mp hmem
  exact hothers row hrow hholds.owned

end Holds

/-- **A diff is added to what the file holds**, and a `\n` after it. -/
theorem put_of_holds {w : World} (hholds : d.Holds w.fs l t) (path : Path) (old new : Text) :
    ∃ v, d.put path old new w = (.ok (), v) ∧ v.writes = w.writes ∧
      v.fs = w.fs.put l (.file (.text (t ++ (Diff.render path old new ++ ['\n'])))) := by
  obtain ⟨saved, hsaved, hlocate⟩ := hholds.owned
  have hactive : d.isActive = true := by simp [isActive, hsaved]
  have htold : w.Idle
      (if d.shown then w.tellAll (shownLines (Diff.render path old new)) else w) := by
    split
    · exact w.idle_tellAll _
    · exact ⟨rfl, rfl⟩
  rw [put, if_pos hactive]
  dsimp only
  generalize (if d.shown then w.tellAll (shownLines (Diff.render path old new)) else w) = v
    at htold ⊢
  rw [hsaved]
  dsimp only
  rw [htold.fs, FileSystem.appendText_of_file hlocate hholds.granted hholds.content]
  exact ⟨_, rfl, htold.writes, rfl⟩

end DiffOutput

/-! ## What is saved about an item -/

namespace Plan

variable {plan : Plan} {operation : Operation} {fs gs : FileSystem}

/-- What is saved about an item: the diff of its file, if that is to change. -/
def savedDiff? (plan : Plan) (operation : Operation) (fs : FileSystem) :
    Except Failure Path → Option Text
  | .error _ => none
  | .ok path =>
    match fs.readText path with
    | .error _ => none
    | .ok content =>
      match plan.transform operation content with
      | .ok (some change) => some (Diff.render path content change.text ++ ['\n'])
      | _ => none

/-- What is saved about items. -/
def savedDiffs (plan : Plan) (operation : Operation) (fs : FileSystem)
    (items : List (Except Failure Path)) : List Text :=
  items.filterMap (plan.savedDiff? operation fs)

/-- Diffs are saved item by item. -/
theorem savedDiffs_append (items more : List (Except Failure Path)) :
    plan.savedDiffs operation fs (items ++ more) =
      plan.savedDiffs operation fs items ++ plan.savedDiffs operation fs more :=
  List.filterMap_append

/-- A file is to change when it can be read and the operation changes the text. -/
theorem prospect_eq_some {path : Path} {change : Change}
    (hprospect : plan.prospect operation fs path = .ok (some change)) :
    ∃ content, fs.readText path = .ok content ∧
      plan.transform operation content = .ok (some change) ∧
      plan.savedDiff? operation fs (.ok path) =
        some (Diff.render path content change.text ++ ['\n']) := by
  unfold prospect at hprospect
  split at hprospect
  · cases hprospect
  · next content hread =>
    refine ⟨content, hread, hprospect, ?_⟩
    simp only [savedDiff?, hread, hprospect]

/-- Nothing is saved about a file that is not to change. -/
theorem savedDiff?_eq_none {path : Path}
    (hprospect : ∀ change, plan.prospect operation fs path ≠ .ok (some change)) :
    plan.savedDiff? operation fs (.ok path) = none := by
  unfold savedDiff?
  dsimp only
  split
  · rfl
  · next content hread =>
    split
    · next change htransform =>
      exact absurd (by rw [prospect, hread]; exact htransform) (hprospect change)
    · rfl

/-- The diff of an item depends on its own file only. -/
theorem savedDiffs_congr (plan : Plan) (operation : Operation) {item : Except Failure Path}
    (houtline : gs.outline = fs.outline) (hsame : Unaware fs gs item) :
    plan.savedDiffs operation gs [item] = plan.savedDiffs operation fs [item] := by
  cases item with
  | error failure => rfl
  | ok path =>
      have hread := FileSystem.readText_congr houtline (hsame path rfl)
      simp only [savedDiffs, List.filterMap_cons, List.filterMap_nil, savedDiff?, hread]

/-- A text is the diff of an entry: the operation changes the text of its file as the
entry says, and the diff is about this change. -/
def Records (plan : Plan) (operation : Operation) (fs : FileSystem) (file : FileReport)
    (diff : Text) : Prop :=
  ∃ content change, fs.readText file.path = .ok content ∧
    plan.transform operation content = .ok (some change) ∧ file.action = change.action ∧
    diff = Diff.render file.path content change.text ++ ['\n']

/-- **The entries that change content have the diffs that are saved**, one for one and
in order. -/
theorem records_of_lines {items : List (Except Failure Path)}
    (hforeseen : ∀ item ∈ items,
      plan.verdict operation fs item = plan.rehearsal.verdict operation fs item) :
    List.Forall₂ (plan.Records operation fs)
      ((items.map (plan.line operation fs)).filter fun file => file.action.changesContent)
      (plan.savedDiffs operation fs items) := by
  induction items with
  | nil => exact .nil
  | cons item items ih =>
      obtain ⟨hfirst, hrest⟩ := List.forall_mem_cons.mp hforeseen
      have hothers := ih hrest
      rw [savedDiffs] at hothers ⊢
      rw [List.map_cons, List.filter_cons, List.filterMap_cons]
      cases item with
      | error failure => exact hothers
      | ok path =>
          have hverdict : plan.verdict operation fs (.ok path) =
              plan.prospect operation fs path := hfirst
          match hprospect : plan.prospect operation fs path with
          | .error failure =>
              rw [savedDiff?_eq_none (by simp [hprospect]),
                line_of_error (hverdict.trans hprospect)]
              exact hothers
          | .ok none =>
              rw [savedDiff?_eq_none (by simp [hprospect]), line_of_ok (hverdict.trans hprospect)]
              exact hothers
          | .ok (some change) =>
              obtain ⟨content, hread, htransform, hdiff⟩ := prospect_eq_some hprospect
              have haction : (actionOf (some change)).changesContent = true :=
                transform_action htransform
              rw [hdiff, line_of_ok (hverdict.trans hprospect), if_pos haction]
              exact .cons ⟨content, change, hread, htransform, rfl, rfl⟩ hothers

end Plan

namespace Engine

open Plan

variable {e : Engine} {operation : Operation} {start : FileSystem} {l : Location} {t : Text}

/-! ## One item -/

/-- No new content goes where the diff file is, unless the item is about it. -/
theorem not_owns_of_given {item : Except Failure Path} (hspares : e.diff.Spares start item) :
    ∀ row ∈ e.given operation start [item], ¬ e.diff.Owns start row.1 := by
  intro row hrow
  unfold Plan.given at hrow
  split at hrow
  · cases hrow
  · obtain ⟨other, hother, hnew⟩ := List.mem_filterMap.mp hrow
    obtain rfl := List.mem_singleton.mp hother
    cases other with
    | error failure => cases hnew
    | ok path =>
        obtain ⟨_, _, hlocation, _⟩ := newContent?_eq_some hnew
        exact hspares path row.1 rfl hlocation

section

variable (operation) (hpure : e.detector.edits = []) (hunlinked : e.links = {}) {w : World}
  (hholds : e.diff.Holds w.fs l t)

include hpure hunlinked hholds

/-- **Processing a file saves its diff**, if it is to change and not the diff file. -/
theorem process_saves {path : Path} (hspares : e.diff.Spares w.fs (.ok path)) :
    e.diff.Holds (e.process operation path w).2.fs l
        (t ++ (e.savedDiffs operation w.fs [.ok path]).flatten) ∧
      (e.process operation path w).2.writes =
        w.writes ++ e.requested operation w.fs [.ok path] := by
  obtain ⟨answer, hprospect, hunwritten, _, hidle⟩ |
      ⟨content, change, v, hread, hprospect, hidle, hprocess⟩ :=
    process_cases operation hpure path w
  · obtain ⟨_, _, hrequested⟩ := settled_of_prospect hprospect hunwritten
    have hunsaved := savedDiff?_eq_none fun change hchange =>
      hunwritten change (hprospect.symm.trans hchange)
    rw [hidle.fs, hidle.writes, hrequested]
    simpa [savedDiffs, hunsaved] using hholds
  · obtain ⟨_, hagain, _, hsaved⟩ := prospect_eq_some hprospect
    obtain rfl := Except.ok.inj (hread.symm.trans hagain)
    obtain ⟨_, hafter⟩ := process_of_commit hprocess
    -- The diff is added first, and then the file is written, which is another one.
    obtain ⟨u, hput, hwrites, hfs⟩ :=
      DiffOutput.put_of_holds (hidle.fs ▸ hholds) path content change.text
    have hdiff := putDiff_of_put hunlinked hput
    rw [hidle.fs] at hfs
    rw [hdiff] at hafter
    have hbeside : Beside (e.diff.Owns w.fs) w.fs u.fs :=
      hfs ▸ .put_own hholds.owned _ hholds.content
    obtain ⟨_, hcommitted, hcalls⟩ := commit_beside hunlinked hprospect hspares hbeside
    have hgrown : e.diff.Holds u.fs l (t ++ (e.savedDiffs operation w.fs [.ok path]).flatten) := by
      refine hholds.congr hbeside.outline ?_
      rw [hfs, FileSystem.find?_put (FileSystem.ne_nil_of_file hholds.content)]
      simp [savedDiffs, hsaved]
    rw [hafter, hcommitted, hcalls, hwrites, hidle.writes]
    refine ⟨hgrown.rewrite (fun row hrow => ?_) fun row hrow hown => ?_, rfl⟩
    · obtain ⟨old, hold⟩ := file_of_given row hrow
      exact FileSystem.file_of_outline_eq hbeside.outline hold
    · exact not_owns_of_given hspares row hrow (DiffOutput.owns_congr hbeside.outline ▸ hown)

/-- **Handling an item saves its diff**, if it is not about the diff file. -/
theorem handle_saves {item : Except Failure Path} (hspares : e.diff.Spares w.fs item) :
    e.diff.Holds (e.handle operation item w).2.fs l
        (t ++ (e.savedDiffs operation w.fs [item]).flatten) ∧
      (e.handle operation item w).2.writes = w.writes ++ e.requested operation w.fs [item] := by
  cases item with
  | error failure =>
      obtain ⟨_, hidle⟩ := e.handle_failure operation failure w
      have hunsaved : e.savedDiffs operation w.fs [.error failure] = [] := rfl
      rw [hidle.fs, hidle.writes, hunsaved]
      simpa [requested, writeCall?] using hholds
  | ok path =>
      obtain ⟨hsaved, hwrites⟩ := process_saves operation hpure hunlinked hholds hspares
      obtain ⟨_, hidle⟩ := e.handle_of_process operation path w
      rw [hidle.fs, hidle.writes]
      exact ⟨hsaved, hwrites⟩

end

/-! ## Whole runs -/

/-- **The invariant of a run that saves its diffs** and began in `before`: the diff file
holds the diffs of the items that have been handled, and all of them have been passed
and answered. -/
structure Saves (e : Engine) (operation : Operation) (before : World) (l : Location)
    (handled : List (Except Failure Path)) (files : List FileReport) (walk : Walk)
    (w : World) : Prop where
  aside : Aside e operation before.fs handled walk w
  holds : e.diff.Holds w.fs l (e.savedDiffs operation before.fs handled).flatten
  writes : w.writes = before.writes ++ e.requested operation before.fs handled
  passed : ∀ item ∈ handled, e.Passes operation before.fs item
  files : files = handled.map (e.line operation before.fs)

variable {before : World}

/-- **One step of a run that saves its diffs.** -/
theorem Saves.step (hpure : e.detector.edits = []) (hunlinked : e.links = {})
    (hopens : e.diff.Opens before.fs)
    {handled : List (Except Failure Path)} {files : List FileReport} {walk walk' : Walk}
    {w v : World} {item : Except Failure Path} {file : FileReport} (events : List Event)
    (hsaves : Saves e operation before l handled files walk w)
    (hspares : e.diff.Spares before.fs item)
    (hnotes : Walk.Notes before.fs walk walk' item.toOption)
    (hhandle : e.handle operation item (w.tellAll events) = (.ok file, v)) :
    Saves e operation before l (handled ++ [item]) (files ++ [file]) walk' v := by
  have houtline : (w.tellAll events).fs.outline = before.fs.outline := hsaves.aside.outline
  have hunaware : Unaware before.fs (w.tellAll events).fs item :=
    hsaves.aside.unaware hnotes hspares
  have hsparesnow := (DiffOutput.spares_congr houtline).mpr hspares
  have hnow : e.diff.Holds (w.tellAll events).fs l _ := hsaves.holds
  have haside := hsaves.aside.handle hpure hunlinked hopens hnotes hspares events
  obtain ⟨hanswer, _⟩ := handle_beside operation hpure hunlinked hnow.opens hsparesnow
  obtain ⟨hholds, hwrites⟩ := handle_saves operation hpure hunlinked hnow hsparesnow
  rw [hhandle] at haside hanswer hholds hwrites
  rw [reply_congr e.toPlan operation houtline hunaware] at hanswer
  rw [savedDiffs_congr e.toPlan operation houtline hunaware] at hholds
  rw [requested_congr e.toPlan operation houtline hunaware] at hwrites
  obtain rfl := eq_line_of_reply hanswer.symm
  refine ⟨haside, ?_, ?_, ?_, ?_⟩
  · rw [savedDiffs_append, List.flatten_append]
    exact hholds
  · rw [requested_append, ← List.append_assoc, ← hsaves.writes]
    exact hwrites
  · exact List.forall_mem_append.mpr ⟨hsaves.passed, List.forall_mem_singleton.mpr hanswer.symm⟩
  · rw [List.map_append, ← hsaves.files]
    rfl

/-- **A run that saves its diffs and returns a report** has saved those of all its
items. -/
theorem run_saves {roots : List Path} {w w' : World} {walk : Walk} {report : Report}
    (hpure : e.detector.edits = []) (hunlinked : e.links = {}) (hholds : e.diff.Holds w.fs l [])
    (hstart : Walk.start w.fs roots = .ok walk)
    (hspares : ∀ item ∈ e.items w.fs roots walk, e.diff.Spares w.fs item)
    (hrun : e.run operation roots w = (.ok report, w')) :
    ∃ walk', Saves e operation w l (e.items w.fs roots walk) report.files walk' w' := by
  obtain ⟨walk, v, hwalk, _, hall, hidle⟩ := run_eq_ok hrun
  obtain rfl := Except.ok.inj (hstart.symm.trans hwalk)
  have hbegin : Saves e operation w l [] [] walk w := by
    refine ⟨Aside.begin e operation walk w, hholds, ?_, List.forall_mem_nil _, rfl⟩
    rw [requested_nil, List.append_nil]
  obtain ⟨walk', haside, hsaved, hwrites, hpassed, hfiles⟩ := e.handleAll_invariant
    (e.diff.Spares w.fs) (Saves e operation w l) (fun hsaves => hsaves.aside.next_eq)
    (fun _ hsaves => ⟨⟨hsaves.aside.beside, hsaves.aside.seen⟩, hsaves.holds, hsaves.writes,
      hsaves.passed, hsaves.files⟩)
    (fun events hsaves => hsaves.step hpure hunlinked hholds.opens events) _ hbegin hspares hall
  rw [List.nil_append] at *
  exact ⟨walk', ⟨hidle.fs ▸ haside.beside, haside.seen⟩, hidle.fs ▸ hsaved,
    hidle.writes.trans hwrites, hpassed, hfiles⟩

/-- **A dry run passes what its items let pass**, whatever its diff file holds. -/
theorem handles_of_dry (hdry : e.dryRun = true) (hpure : e.detector.edits = [])
    (hunlinked : e.links = {}) (hopens : e.diff.Opens start)
    {items : List (Except Failure Path)} {w : World}
    (hbeside : Beside (e.diff.Owns start) start w.fs)
    (hspares : ∀ item ∈ items, e.diff.Spares start item)
    (hpasses : ∀ item ∈ items, e.Passes operation start item) :
    ∃ v, e.Handles operation items w (items.map (e.line operation start)) v := by
  induction items generalizing w with
  | nil => exact ⟨w, .nil w⟩
  | cons item items ih =>
      obtain ⟨hspare, hspares⟩ := List.forall_mem_cons.mp hspares
      obtain ⟨hpass, hpasses⟩ := List.forall_mem_cons.mp hpasses
      have hunaware : Unaware start w.fs item := fun path hpath k hk =>
        hbeside.same k (hspare path k hpath hk)
      obtain ⟨hanswer, hafter⟩ := handle_beside operation hpure hunlinked
        (hopens.congr hbeside.outline) ((DiffOutput.spares_congr hbeside.outline).mpr hspare)
      rw [reply_congr e.toPlan operation hbeside.outline hunaware, hpass] at hanswer
      rw [given, if_pos hdry, FileSystem.rewrite_nil,
        DiffOutput.owns_congr hbeside.outline] at hafter
      obtain ⟨v, hrest⟩ := ih (hbeside.trans hafter) hspares hpasses
      exact ⟨v, .cons ⟨hanswer, rfl⟩ hrest⟩

end Engine

/-- A path is selected when a walk below the roots meets it. -/
def Plan.Selects (plan : Plan) (fs : FileSystem) (roots : List Path) (path : Path) : Prop :=
  ∃ filters walk items, plan.criteria.filters = .ok filters ∧ Walk.start fs roots = .ok walk ∧
    Walk.Meets filters fs walk items ∧ .ok path ∈ items

section

variable {plan : Plan} {operation : Operation} {roots : List Path} {w w' : World}
  {emptied : FileSystem} {saved : Path} {l : Location} {report : Report}
  (hnamed : w.fs.WellNamed) (hpure : plan.detector.edits = []) (hunlinked : plan.links = {})
  (hsaved : plan.diff.saved = some saved) (hinit : plan.diff.init w.fs = .ok emptied)
  (hlocate : emptied.locate .creation saved = .ok l)
  (hgranted : emptied.grants .writing l = true)
  (hapart : ∀ path, plan.Selects emptied roots path → emptied.canonical? path ≠ some l)
  (hrun : plan.run operation roots { w with fs := emptied } = (.ok report, w'))

include hnamed hpure hunlinked hsaved hinit hlocate hgranted hapart hrun

/-- **A run as planned saves the diffs of its items**, if none of them is about the
diff file. -/
theorem Plan.run_saves :
    ∃ e walk walk', plan.engine = .ok e ∧ Walk.start emptied roots = .ok walk ∧
      ¬ (operation = .synchronize ∧ plan.headers.isEmpty = true) ∧
      plan.diff.Holds emptied l [] ∧
      (∀ item ∈ e.items emptied roots walk, plan.diff.Spares emptied item) ∧
      e.Saves operation { w with fs := emptied } l (e.items emptied roots walk) report.files
        walk' w' := by
  obtain ⟨k, hplace, hempty, _⟩ := DiffOutput.emptied_of_init hsaved hinit
  obtain rfl : l = k := Except.ok.inj (hlocate.symm.trans hplace)
  have hholds : plan.diff.Holds emptied l [] := ⟨⟨saved, hsaved, hlocate⟩, hgranted, hempty⟩
  have hready : emptied.WellNamed := hnamed.modifyFile (DiffOutput.writeText_of_init hsaved hinit)
  obtain ⟨e, hengine, rfl, hran⟩ := Plan.run_eq_ok hrun
  obtain ⟨walk, _, hstart, hheaders, _⟩ := Engine.run_eq_ok hran
  have hspares : ∀ item ∈ e.items emptied roots walk, e.diff.Spares emptied item := by
    rintro _ hitem path k rfl hk hown
    refine hapart path ⟨e.filters, walk, _, (engine_eq_ok_iff.mp hengine).1, hstart,
      e.items_meets hpure hready hstart, hitem⟩ ?_
    rw [hk, hholds.eq_of_owns hown]
  obtain ⟨walk', haside, hheld, hwrites, hpassed, hfiles⟩ :=
    Engine.run_saves hpure hunlinked hholds hstart hspares hran
  exact ⟨e, walk, walk', hengine, hstart, hheaders, hholds, hspares, haside, hheld, hwrites,
    hpassed, hfiles⟩

end

namespace Sample

/-- A directory with a file that is no text, two texts with brackets, one of them open,
and a text without, beside a diff file of an earlier run. -/
def logged : FileSystem where
  entries := [([['d']], .file (.text ['o', 'l', 'd'])),
    ([['w']], .directory),
    ([['w'], ['a']], .file (.binary ⟨⟨#[254]⟩, by decide⟩)),
    ([['w'], ['b']], .file (.text ['(', ')', 'x', '\n'])),
    ([['w'], ['c']], .file (.text ['y'])),
    ([['w'], ['e']], .file (.text ['(', ')', 'z']))]
  distinct := by decide
  current := []
  denied := []

/-- A plan that keeps going and saves its diffs. -/
def logging : Plan := { plan.lenient with diff := { saved := some ⟨['d']⟩ } }

/-- The same directory when the diff file has been emptied. -/
def relogged : FileSystem := logged.put [['d']] (.file (.text []))

/-- The report of a run over it. -/
def loggedReport : Report where
  operation := .remove
  dryRun := false
  files := [⟨⟨['w', '/', 'a']⟩, .failed,
      some "Failed to read w/a: stream did not contain valid UTF-8".toList⟩,
    ⟨⟨['w', '/', 'b']⟩, .stripped, none⟩, ⟨⟨['w', '/', 'c']⟩, .unchanged, none⟩,
    ⟨⟨['w', '/', 'e']⟩, .stripped, none⟩]

/-- What the diff file holds then. -/
def log : Text := "Diff for w/b:\n-()x\n+x\n\nDiff for w/e:\n-()z\n+z\n\n".toList

/-- What a walk over it meets. -/
def loggedPaths : List Path :=
  [⟨['w', '/', 'a']⟩, ⟨['w', '/', 'b']⟩, ⟨['w', '/', 'c']⟩, ⟨['w', '/', 'e']⟩]

theorem loggedPaths_collected : collect filters relogged roots = .ok loggedPaths := by cbv

theorem logging_filters : logging.criteria.filters = .ok filters := by cbv

theorem relogged_wellNamed : relogged.WellNamed := by decide

/-- The engine of the plan. -/
def logger : Engine := { logging with filters }

theorem logging_engine : logging.engine = .ok logger :=
  Plan.engine_eq_ok_iff.mpr ⟨logging_filters, rfl⟩

/-- The items of the sample are the paths that collecting finds. -/
theorem logger_items {walk : Walk} (hstart : Walk.start relogged roots = .ok walk) :
    logger.items relogged roots walk = loggedPaths.map .ok := by
  obtain ⟨walk', hwalk, hmeets⟩ :=
    (collect_eq_ok_iff relogged_wellNamed).mp loggedPaths_collected
  obtain rfl := Except.ok.inj (hstart.symm.trans hwalk)
  exact (logger.items_meets rfl relogged_wellNamed hstart).unique hmeets

/-- None of the files that are selected is the diff file. -/
theorem logged_apart (path : Path) (hselected : logging.Selects relogged roots path) :
    relogged.canonical? path ≠ some [['d']] := by
  obtain ⟨_, walk, items, hread, hstart, hitems, hpath⟩ := hselected
  obtain rfl := Except.ok.inj (logging_filters.symm.trans hread)
  rw [hitems.unique (logger.items_meets rfl relogged_wellNamed hstart),
    logger_items hstart] at hpath
  obtain ⟨_, hmem, hother⟩ := List.mem_map.mp hpath
  obtain rfl := Except.ok.inj hother
  have hall : ∀ path ∈ loggedPaths, relogged.canonical? path ≠ some [['d']] := by decide
  exact hall _ hmem

/-- The run over the directory, file by file. -/
theorem logging_run :
    ∃ w', logging.run .remove roots { fs := relogged } = (.ok loggedReport, w') := by
  have hstart : Walk.start relogged roots = .ok ⟨roots, [], []⟩ :=
    Walk.start_of_directories (by decide)
  have hholds : logging.diff.Holds relogged [['d']] [] := ⟨⟨_, rfl, rfl⟩, rfl, rfl⟩
  have hhandles : logger.Handles .remove (loggedPaths.map .ok) { fs := relogged }
      loggedReport.files _ :=
    .cons ⟨rfl, rfl⟩ (.cons ⟨rfl, rfl⟩ (.cons ⟨rfl, rfl⟩ (.cons ⟨rfl, rfl⟩ (.nil _))))
  rw [← logger_items hstart] at hhandles
  obtain ⟨answer, w', _, hrun, hanswer, _⟩ :=
    (Plan.run_of_handles (w := { fs := relogged }) logging_engine rfl rfl hholds.opens
      (fun hneeded => Operation.noConfusion hneeded.1) hstart hhandles).split
  obtain ⟨rfl, rfl⟩ := Prod.mk.inj hanswer
  exact ⟨w', hrun⟩

end Sample

end LicenseHeaders

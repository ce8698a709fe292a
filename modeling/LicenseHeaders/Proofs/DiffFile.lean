import LicenseHeaders.Proofs.Disk
import LicenseHeaders.Proofs.Treatment

/-!
# The diff file stands aside

A run that saves its diffs writes one file more than its items are about.  That
file exists from the moment it is emptied, so adding to it creates nothing, and
a walk does not notice it.  Where each file has one name, every other file comes to
what it comes to without it.

* `handle_beside` — what an item comes to, apart from the diff file;
* `Aside` — what is kept on the way of a run;
* `Plan.run_of_handles` — a run is its items, handled one after the other, also
  where they are about the diff file.
-/

namespace LicenseHeaders

open FileSystem (Beside)

/-- New contents go into files. -/
theorem Plan.file_of_given {plan : Plan} {operation : Operation} {fs : FileSystem}
    {items : List (Except Failure Path)} :
    ∀ row ∈ plan.given operation fs items, ∃ old, fs.find? row.1 = some (.file old) := by
  intro row hrow
  unfold Plan.given at hrow
  split at hrow
  · cases hrow
  · obtain ⟨item, _, hnew⟩ := List.mem_filterMap.mp hrow
    exact Plan.file_of_newContent? hnew

namespace Engine

open Plan

variable {e : Engine} {operation : Operation} {start : FileSystem}

/-! ## One item -/

/-- Where each file has one name, a diff is put out and nothing is passed on. -/
theorem putDiff_of_put (hunlinked : e.links = {}) {path : Path} {old new : Text} {w v : World}
    (hput : e.diff.put path old new w = (.ok (), v)) : e.putDiff path old new w = v := by
  rw [putDiff, hput, hunlinked]
  dsimp only
  rw [HardLinks.carry_diff_none]

/-- A diff that is saved changes the diff file alone. -/
theorem putDiff_beside {w : World} (hunlinked : e.links = {}) (hopens : e.diff.Opens w.fs)
    (path : Path) (old new : Text) :
    Beside (e.diff.Owns w.fs) w.fs (e.putDiff path old new w).fs := by
  obtain hsame | ⟨l, held, content, hown, hheld, hwritten⟩ :=
    putDiff_cases hopens path old new
  · exact .of_eq hsame
  · rw [hwritten, hunlinked, HardLinks.write_none]
    exact .put_own hown content hheld

section

variable {path : Path} {w : World}

/-- **A change is committed as if nothing had been added to the diff file**, which the
changed file is not. -/
theorem commit_beside (hunlinked : e.links = {}) {change : Change} {v : World}
    (hprospect : e.prospect operation w.fs path = .ok (some change))
    (hspares : e.diff.Spares w.fs (.ok path)) (hdiff : Beside (e.diff.Owns w.fs) w.fs v.fs) :
    ((e.commit operation path change.text v).1.map fun _ => change.action) =
        (e.verdict operation w.fs (.ok path)).map actionOf ∧
      (e.commit operation path change.text v).2.fs =
        v.fs.rewrite (e.given operation w.fs [.ok path]) ∧
      (e.commit operation path change.text v).2.writes =
        v.writes ++ e.requested operation w.fs [.ok path] := by
  -- The item does not notice what has been added.
  have hunaware : Unaware w.fs v.fs (.ok path) := fun other hother l hl =>
    hdiff.same l (hspares other l hother hl)
  have hread := FileSystem.readText_congr hdiff.outline (hunaware path rfl)
  have hagain : e.prospect operation v.fs path = .ok (some change) := by
    rw [← hprospect, prospect, prospect, hread]
  obtain ⟨hcommit, hdeed⟩ := commit_reply hagain ⟨rfl, rfl⟩
  have hfs := hdeed.fs
  rw [hunlinked, HardLinks.rewrite_none] at hfs
  rw [verdict_congr e.toPlan operation hdiff.outline hunaware] at hcommit
  rw [← given_congr e.toPlan operation hdiff.outline hunaware,
    ← requested_congr e.toPlan operation hdiff.outline hunaware]
  exact ⟨hcommit, hfs, hdeed.writes⟩

variable (operation) (hpure : e.detector.edits = []) (hunlinked : e.links = {})
  (hopens : e.diff.Opens w.fs)

include hpure hunlinked hopens

/-- **A file comes to what it comes to without a diff file**, if it is none
itself. -/
theorem process_beside (hspares : e.diff.Spares w.fs (.ok path)) :
    (e.process operation path w).1 = (e.verdict operation w.fs (.ok path)).map actionOf ∧
      Beside (e.diff.Owns w.fs) (w.fs.rewrite (e.given operation w.fs [.ok path]))
        (e.process operation path w).2.fs := by
  obtain ⟨answer, hprospect, hunwritten, hanswer, hidle⟩ |
      ⟨content, change, v, _, hprospect, hidle, hprocess⟩ :=
    process_cases operation hpure path w
  · obtain ⟨hverdict, hgiven, _⟩ := settled_of_prospect hprospect hunwritten
    refine ⟨by rw [hanswer, hverdict], .of_eq ?_⟩
    rw [hgiven, FileSystem.rewrite_nil, hidle.fs]
  · have hdiff := putDiff_beside hunlinked (hidle.fs ▸ hopens) path content change.text
    obtain ⟨hanswer, hafter⟩ := process_of_commit hprocess
    rw [hidle.fs] at hdiff
    obtain ⟨hcommit, hfs, _⟩ := commit_beside hunlinked hprospect hspares hdiff
    refine ⟨hanswer.trans hcommit, ?_⟩
    rw [hafter, hfs]
    exact hdiff.rewrite file_of_given

end

/-- **An item comes to what it comes to without a diff file**, if it is not about
it. -/
theorem handle_beside (operation : Operation) (hpure : e.detector.edits = [])
    (hunlinked : e.links = {}) {item : Except Failure Path} {w : World} (hopens : e.diff.Opens w.fs)
    (hspares : e.diff.Spares w.fs item) :
    (e.handle operation item w).1 = e.reply operation w.fs item ∧
      Beside (e.diff.Owns w.fs) (w.fs.rewrite (e.given operation w.fs [item]))
        (e.handle operation item w).2.fs := by
  cases item with
  | error failure =>
      obtain ⟨hanswer, hidle⟩ := e.handle_failure operation failure w
      refine ⟨hanswer, .of_eq ?_⟩
      rw [given_of_error rfl, FileSystem.rewrite_nil, hidle.fs]
  | ok path =>
      obtain ⟨hanswer, hbeside⟩ := process_beside operation hpure hunlinked hopens hspares
      obtain ⟨hreply, hidle⟩ := e.handle_of_process operation path w
      exact ⟨hreply hanswer, hbeside.trans (.of_eq hidle.fs)⟩

/-! ## All items -/

/-- **The invariant of a run with a diff file**: apart from it, the items that have
been handled have given files their contents and nothing else has happened, and
the walk has seen these items. -/
structure Aside (e : Engine) (operation : Operation) (start : FileSystem)
    (handled : List (Except Failure Path)) (walk : Walk) (w : World) : Prop where
  beside : Beside (e.diff.Owns start) (start.rewrite (e.given operation start handled)) w.fs
  seen : ∀ path, .ok path ∈ handled → Walk.identity start path ∈ walk.seen

theorem Aside.begin (e : Engine) (operation : Operation) (walk : Walk) (w : World) :
    Aside e operation w.fs [] walk w where
  beside := by
    rw [given_nil, FileSystem.rewrite_nil]
    exact .refl _ _
  seen := fun _ hpath => by cases hpath

section

variable {handled : List (Except Failure Path)} {walk walk' : Walk} {w : World}

/-- A run with a diff file changes contents only. -/
theorem Aside.outline (haside : Aside e operation start handled walk w) :
    w.fs.outline = start.outline :=
  haside.beside.outline.trans (outline_given handled)

/-- A run sees the walk that it would see at the beginning. -/
theorem Aside.next_eq (haside : Aside e operation start handled walk w) :
    Walk.next e.filters w.fs walk = Walk.next e.filters start walk :=
  Walk.next_of_outline_eq haside.outline e.filters walk

/-- The next item does not notice what has happened, unless it is about the diff
file. -/
theorem Aside.unaware {item : Except Failure Path} (haside : Aside e operation start handled walk w)
    (hnotes : Walk.Notes start walk walk' item.toOption) (hspares : e.diff.Spares start item) :
    Unaware start w.fs item := by
  intro path hitem l hl
  have hbefore : Unaware start (start.rewrite (e.given operation start handled)) item :=
    unaware_given (hnotes.apart haside.seen)
  exact (haside.beside.same l (hspares path l hitem hl)).trans (hbefore path hitem l hl)

/-- **One step of a run with a diff file** keeps the invariant, if it is not about that
file. -/
theorem Aside.handle {item : Except Failure Path} (hpure : e.detector.edits = [])
    (hunlinked : e.links = {}) (hopens : e.diff.Opens start)
    (haside : Aside e operation start handled walk w)
    (hnotes : Walk.Notes start walk walk' item.toOption) (hspares : e.diff.Spares start item)
    (events : List Event) :
    Aside e operation start (handled ++ [item]) walk'
      (e.handle operation item (w.tellAll events)).2 := by
  have houtline : (w.tellAll events).fs.outline = start.outline := haside.outline
  have hkept : ∀ row ∈ e.given operation start [item], ∃ old,
      (start.rewrite (e.given operation start handled)).find? row.1 = some (.file old) := by
    intro row hrow
    obtain ⟨old, hold⟩ := file_of_given row hrow
    exact FileSystem.file_of_outline_eq (outline_given handled) hold
  obtain ⟨_, hbeside⟩ := handle_beside operation hpure hunlinked (hopens.congr houtline)
    ((DiffOutput.spares_congr houtline).mpr hspares)
  have hunaware : Unaware start (w.tellAll events).fs item := haside.unaware hnotes hspares
  rw [DiffOutput.owns_congr houtline, given_congr e.toPlan operation houtline hunaware] at hbeside
  refine ⟨?_, hnotes.seen haside.seen⟩
  rw [given_append, FileSystem.rewrite_append]
  exact (haside.beside.rewrite hkept).trans hbeside

end

/-! ## Item by item -/

/-- Handling an item can be seen by no walk. -/
theorem outline_handle (operation : Operation) (hpure : e.detector.edits = [])
    (hunlinked : e.links = {}) (item : Except Failure Path) {w : World}
    (hopens : e.diff.Opens w.fs) :
    (e.handle operation item w).2.fs.outline = w.fs.outline :=
  (handle_treats operation hpure hopens (hunlinked ▸ HardLinks.holds_none w.fs) item).outline

/-- Items are handled one after the other, and none of them stops the run. -/
inductive Handles (e : Engine) (operation : Operation) :
    List (Except Failure Path) → World → List FileReport → World → Prop where
  | nil (w : World) : Handles e operation [] w [] w
  | cons {item : Except Failure Path} {rest : List (Except Failure Path)} {file : FileReport}
      {files : List FileReport} {w v u : World}
      (hhandle : Agrees (e.handle operation item w) (.ok file, v))
      (hrest : Handles e operation rest v files u) :
      Handles e operation (item :: rest) w (file :: files) u

/-- **A run handles its items one after the other.** -/
theorem handleAll_of_handles (hpure : e.detector.edits = []) (hunlinked : e.links = {})
    (hopens : e.diff.Opens start)
    {items : Nat} {walk : Walk} {w v : World} (files : List FileReport) {more : List FileReport}
    (houtline : w.fs.outline = start.outline)
    (hhandles : e.Handles operation (Walk.survey e.filters start items walk) w more v) :
    Agrees (e.handleAll operation items walk files w) (.ok (files ++ more), v) := by
  induction items generalizing walk w files more with
  | zero =>
      cases hhandles
      exact ⟨by rw [List.append_nil]; rfl, rfl⟩
  | succ items ih =>
      have hnext := Walk.next_of_outline_eq houtline e.filters walk
      rw [Walk.survey] at hhandles
      rw [handleAll, hnext]
      generalize Walk.next e.filters start walk = after at hhandles ⊢
      obtain ⟨answer, walk', events⟩ := after
      have hproceed : ∀ item : Except Failure Path,
          e.Handles operation (item :: Walk.survey e.filters start items walk') w more v →
          Agrees (e.goOn operation items walk' files (e.handle operation item (w.tellAll events)))
            (.ok (files ++ more), v) := by
        intro item hitems
        cases hitems with
        | @cons _ _ file rest _ u _ hhandle hrest =>
            have hkept := outline_handle operation hpure hunlinked item (hopens.congr houtline)
            rw [hhandle.fs] at hkept
            obtain ⟨answer, a, b, ha, hb, hafter⟩ := (handle_agrees (e := e)
              (w := w.tellAll events) (v := w) operation hpure item rfl).split
            rw [hb] at hhandle
            obtain ⟨rfl, hu⟩ := hhandle
            rw [ha]
            have hgoes := ih (files ++ [file]) (hkept.trans houtline) hrest
            have hsame := handleAll_agrees (e := e) operation hpure items walk' (files ++ [file])
              (hafter.trans hu)
            rw [List.append_assoc, List.singleton_append] at hgoes
            exact ⟨hsame.answer.trans hgoes.answer, hsame.fs.trans hgoes.fs⟩
      cases answer with
      | done =>
          cases hhandles
          exact ⟨by rw [List.append_nil], rfl⟩
      | failure failure => exact hproceed (.error failure) hhandles
      | file path => exact hproceed (.ok path) hhandles

end Engine

/-- **A run is its items, handled one after the other.** -/
theorem Plan.run_of_handles {plan : Plan} {e : Engine} {operation : Operation} {roots : List Path}
    {walk : Walk} {w v : World} {files : List FileReport} (hengine : plan.engine = .ok e)
    (hpure : plan.detector.edits = []) (hunlinked : plan.links = {})
    (hopens : plan.diff.Opens w.fs)
    (hheaders : ¬ (operation = .synchronize ∧ plan.headers.isEmpty = true))
    (hstart : Walk.start w.fs roots = .ok walk)
    (hhandles : e.Handles operation (e.items w.fs roots walk) w files v) :
    Agrees (plan.run operation roots w)
      (.ok { operation, dryRun := plan.dryRun, files }, v) := by
  obtain ⟨_, rfl⟩ := Plan.engine_eq_ok_iff.mp hengine
  obtain ⟨answer, a, b, ha, hb, hafter⟩ :=
    (Engine.handleAll_of_handles hpure hunlinked hopens [] rfl hhandles).split
  obtain ⟨rfl, rfl⟩ := Prod.mk.inj hb
  have hrun : Agrees (e.run operation roots w)
      (.ok { operation, dryRun := e.dryRun, files }, v) := by
    rw [Engine.run, if_neg hheaders, hstart]
    dsimp only
    rw [Engine.items] at hhandles
    rw [ha]
    exact ⟨rfl, hafter⟩
  have hsame := Plan.run_agrees (w := w) (v := w) operation hpure roots rfl
  have htold := e.run_agrees (w := w.tellAll e.warnings) (v := w) operation hpure roots rfl
  rw [Plan.run_eq hengine]
  exact ⟨htold.answer.trans hrun.answer, htold.fs.trans hrun.fs⟩

end LicenseHeaders

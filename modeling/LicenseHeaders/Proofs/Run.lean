import LicenseHeaders.Proofs.Passage
import LicenseHeaders.Proofs.Progress

/-!
# A real run that returns a report

A real run comes as far as every run does.  When it returns a report, no item
has stopped it, and the report, the file system and the requests to write are
what its items come to in the file system at the beginning.

* `run_of_unstopped`, `run_completed` — a run returns a report exactly when no
  item stops it;
* `Completed` — what it comes to, with the content of every file in the end
  (`Completed.readText_of_outcome`).
-/

namespace LicenseHeaders

namespace Engine

open Plan

variable {e : Engine} {operation : Operation} {start : FileSystem}

/-! ## Whole runs -/

/-- A run that has returned a report.  Its roots were valid, it had headers
where it needed them, and no item has stopped it; the report, the file system
and the requests to write are what the items come to. -/
structure Completed (e : Engine) (operation : Operation) (roots : List Path)
    (before : FileSystem) (walk : Walk) (report : Report) (after : FileSystem)
    (calls : List WriteCall) : Prop where
  start : Walk.start before roots = .ok walk
  headers : ¬ (operation = .synchronize ∧ e.headers.isEmpty = true)
  goes : ∀ item ∈ e.items before roots walk, ¬ e.Stops operation before item
  files : report.files = (e.items before roots walk).map (e.entry operation before)
  fs : after = before.rewrite (e.newContents operation before (e.items before roots walk))
  calls : calls = (e.items before roots walk).filterMap (e.writeCall? operation before)

/-- The items of a real run that let it pass are those that do not stop it. -/
theorem passes_iff (hreal : e.dryRun = false) {item : Except Failure Path} :
    e.Passes operation start item ↔ ¬ e.Stops operation start item := by
  rw [Stops, ← line_of_real hreal]
  constructor
  · rintro hpasses ⟨hstrict, hfailed⟩
    obtain ⟨failure, hverdict, _⟩ := line_failed_iff.mp hfailed
    have hreply := reply_eq_error_iff.mpr ⟨hstrict, hverdict⟩
    cases hpasses.symm.trans hreply
  · intro hgoes
    refine reply_of_goes ?_
    by_cases hkeep : e.keepGoing = true
    · exact .inl hkeep
    · exact .inr fun hfailed => hgoes ⟨Bool.eq_false_iff.mpr hkeep, hfailed⟩

section

variable (hplain : e.toPlan.Plain) {roots : List Path} {w w' : World} {walk : Walk}

include hplain

/-- Where all items let a run pass, it completes. -/
theorem completed_of_passes {after : FileSystem} (hstart : Walk.start w.fs roots = .ok walk)
    (hheaders : ¬ (operation = .synchronize ∧ e.headers.isEmpty = true))
    (hpasses : ∀ item ∈ e.items w.fs roots walk, e.Passes operation w.fs item)
    (hfs : after = w.fs.rewrite (e.given operation w.fs (e.items w.fs roots walk))) :
    e.Completed operation roots w.fs walk
      { operation, dryRun := e.dryRun,
        files := (e.items w.fs roots walk).map (e.line operation w.fs) } after
      (e.requested operation w.fs (e.items w.fs roots walk)) where
  start := hstart
  headers := hheaders
  goes := fun item hitem => (passes_iff hplain.real).mp (hpasses item hitem)
  files := List.map_congr_left fun item _ => line_of_real hplain.real item
  fs := by rw [hfs, given_of_real hplain.real]
  calls := requested_of_real hplain.real _

/-- **A run that no item stops** returns a report, and has completed. -/
theorem run_of_unstopped (hstart : Walk.start w.fs roots = .ok walk)
    (hheaders : ¬ (operation = .synchronize ∧ e.headers.isEmpty = true))
    (hgoes : ∀ item ∈ e.items w.fs roots walk, ¬ e.Stops operation w.fs item) :
    ∃ report w' calls, e.run operation roots w = (.ok report, w') ∧
      e.Completed operation roots w.fs walk report w'.fs calls ∧ w'.writes = w.writes ++ calls := by
  have hpasses : ∀ item ∈ e.items w.fs roots walk, e.Passes operation w.fs item :=
    fun item hitem => (passes_iff hplain.real).mpr (hgoes item hitem)
  obtain ⟨w', hrun, hfs, hwrites⟩ := run_goes hplain.calm hstart hheaders hpasses
  exact ⟨_, w', _, hrun, completed_of_passes hplain hstart hheaders hpasses hfs, hwrites⟩

/-- **A report is only returned by a run that has completed.** -/
theorem run_completed {report : Report} (hrun : e.run operation roots w = (.ok report, w')) :
    ∃ walk calls, e.Completed operation roots w.fs walk report w'.fs calls ∧
      w'.writes = w.writes ++ calls := by
  obtain ⟨walk, hstart, hheaders, hpasses, rfl, hfs, hwrites⟩ := run_returned hplain.calm hrun
  exact ⟨walk, _, completed_of_passes hplain hstart hheaders hpasses hfs, hwrites⟩

end

/-! ## The file system in the end -/

namespace Completed

variable {roots : List Path} {before after : FileSystem} {walk : Walk} {report : Report}
  {calls : List WriteCall} (hdone : e.Completed operation roots before walk report after calls)

include hdone

/-- A completed run has handled all its items. -/
theorem handled : e.Handled operation before (e.items before roots walk) after :=
  ⟨Walk.survey_apart _ _, hdone.fs⟩

/-- A run changes nothing that a walk can see. -/
theorem outline : after.outline = before.outline := hdone.handled.outline

/-- A file that has been given a new content holds it in the end. -/
theorem find?_of_newContent? {item : Except Failure Path} {l : Location} {t : Text}
    (hitem : item ∈ e.items before roots walk)
    (hnew : e.newContent? operation before item = some (l, t)) :
    after.find? l = some (.file (.text t)) :=
  hdone.handled.find?_of_newContent? hitem hnew

/-- A file without a new content is what it was. -/
theorem unaware_of_newContent? {item : Except Failure Path}
    (hitem : item ∈ e.items before roots walk)
    (hnone : e.newContent? operation before item = none) : Unaware before after item :=
  hdone.handled.unaware_of_newContent? hitem hnone

/-- **The content of a file in the end** is what the operation makes of its
content at the beginning. -/
theorem readText_of_outcome {path : Path} {change : Option Change}
    (hitem : .ok path ∈ e.items before roots walk)
    (houtcome : e.outcome operation before path = .ok change) :
    ∃ content, before.readText path = .ok content ∧
      e.transform operation content = .ok change ∧
      after.readText path = .ok (textAfter content change) :=
  hdone.handled.readText_of_outcome hitem houtcome

end Completed

end Engine

/-! ## Plans -/

/-- The engine of a plan is the plan with its filters. -/
theorem Plan.engine_eq_ok_iff {plan : Plan} {e : Engine} :
    plan.engine = .ok e ↔ plan.criteria.filters = .ok e.filters ∧ e.toPlan = plan := by
  unfold engine
  constructor
  · intro hengine
    split at hengine
    · next filters hfilters =>
      cases hengine
      exact ⟨hfilters, rfl⟩
    · cases hengine
  · rintro ⟨hfilters, rfl⟩
    rw [hfilters]

/-- A plan runs as its engine does, which tells its warnings first. -/
theorem Plan.run_eq {plan : Plan} {e : Engine} (hengine : plan.engine = .ok e)
    (operation : Operation) (roots : List Path) (w : World) :
    plan.run operation roots w = e.run operation roots (w.tellAll e.warnings) := by
  simp only [run, start, hengine]

/-- A plan that returns a report has an engine that does. -/
theorem Plan.run_eq_ok {plan : Plan} {operation : Operation} {roots : List Path} {w w' : World}
    {report : Report} (hrun : plan.run operation roots w = (.ok report, w')) :
    ∃ e, plan.engine = .ok e ∧ e.toPlan = plan ∧
      e.run operation roots (w.tellAll e.warnings) = (.ok report, w') := by
  cases hengine : plan.engine with
  | error failure =>
      simp only [run, start, hengine] at hrun
      cases hrun
  | ok e =>
      rw [Plan.run_eq hengine] at hrun
      exact ⟨e, rfl, (Plan.engine_eq_ok_iff.mp hengine).2, hrun⟩

/-- A plan that returns a report has an engine whose run has completed. -/
theorem Plan.run_completed {plan : Plan} {operation : Operation} {roots : List Path}
    {w w' : World} {report : Report} (hplain : plan.Plain)
    (hrun : plan.run operation roots w = (.ok report, w')) :
    ∃ e walk calls, plan.engine = .ok e ∧ e.toPlan = plan ∧
      e.Completed operation roots w.fs walk report w'.fs calls ∧
      w'.writes = w.writes ++ calls := by
  obtain ⟨e, hengine, hplan, hran⟩ := Plan.run_eq_ok hrun
  obtain ⟨walk, calls, hdone, hwrites⟩ := Engine.run_completed (hplan ▸ hplain) hran
  exact ⟨e, walk, calls, hengine, hplan, hdone, hwrites⟩

end LicenseHeaders

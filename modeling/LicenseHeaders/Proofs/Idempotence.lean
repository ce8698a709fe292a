import LicenseHeaders.Proofs.Postcondition

/-!
# Running again

A run leaves the outline of the tree as it was, so a second run meets the same
items in the same order.  A file that the first run has handled is settled by
then and stays as it is; one that has failed is what it was before and fails
for the same reason.  The second run therefore writes nothing, and the only
requests it makes are those that the system has refused the first time.

* `Plan.Handled.outcome_again` — what becomes of a handled file the second time;
* `run_twice` — two runs in succession.
-/

namespace LicenseHeaders

/-- The paths that have been written, the oldest first. -/
def World.written (w : World) : List Path :=
  (w.writes.filter fun call => call.refusal.isNone).map (·.path)

/-- What a second run has to say of a file. -/
def Action.again (action : Action) : Action :=
  if action = .failed then .failed else .unchanged

/-- What is done again changes no content. -/
theorem Action.again_changesContent (action : Action) :
    action.again.changesContent = false := by
  cases action <;> rfl

namespace Plan.Handled

variable {plan : Plan} {operation : Operation} {before after : FileSystem}
  {items : List (Except Failure Path)} (hhandled : plan.Handled operation before items after)
  (hverbatim : plan.detector.present = verbatim)

include hhandled hverbatim

/-- **What becomes of a handled file the second time**: nothing, or the same
failure. -/
theorem outcome_again {path : Path} (hitem : .ok path ∈ items) :
    plan.outcome operation after path = (plan.outcome operation before path).map fun _ => none := by
  cases houtcome : plan.outcome operation before path with
  | error failure =>
      have hnone : plan.newContent? operation before (.ok path) = none := by
        simp only [newContent?, houtcome]
      have hsame := hhandled.unaware_of_newContent? hitem hnone path rfl
      rw [outcome_congr hhandled.outline hsame, houtcome]
      rfl
  | ok change =>
      obtain ⟨content, _, htransform, hafter⟩ := hhandled.readText_of_outcome hitem houtcome
      have hagain := transform_textAfter hverbatim htransform
      simp only [outcome, hafter, hagain, Except.map]

/-- No handled file gets a new content the second time. -/
theorem newContent?_again {item : Except Failure Path} (hitem : item ∈ items) :
    plan.newContent? operation after item = none := by
  cases item with
  | error failure => rfl
  | ok path =>
      have hagain := hhandled.outcome_again hverbatim hitem
      cases houtcome : plan.outcome operation before path with
      | error failure => simp only [newContent?, hagain, houtcome, Except.map]
      | ok change => simp only [newContent?, hagain, houtcome, Except.map]

end Plan.Handled

namespace Engine

open Plan

variable {e : Engine} {operation : Operation} {roots : List Path} {before after : FileSystem}
  {walk : Walk} {report : Report} {calls : List WriteCall}

namespace Completed

variable (hdone : e.Completed operation roots before walk report after calls)

include hdone

/-- A second run has the same walk before it. -/
theorem start_again : Walk.start after roots = .ok walk := by
  rw [← Walk.start_outline, hdone.outline, Walk.start_outline, hdone.start]

/-- A second run meets the same items. -/
theorem items_again : e.items after roots walk = e.items before roots walk :=
  items_of_outline_eq hdone.outline

variable (hverbatim : e.detector.present = verbatim)

include hverbatim

/-- **What becomes of a file the second time**: nothing, or the same failure. -/
theorem outcome_again {path : Path} (hitem : .ok path ∈ e.items before roots walk) :
    e.outcome operation after path = (e.outcome operation before path).map fun _ => none :=
  hdone.handled.outcome_again hverbatim hitem

/-- The entry of an item the second time. -/
theorem entry_again {item : Except Failure Path} (hitem : item ∈ e.items before roots walk) :
    (e.entry operation after item).path = (e.entry operation before item).path ∧
      (e.entry operation after item).action = (e.entry operation before item).action.again := by
  cases item with
  | error failure => exact ⟨rfl, rfl⟩
  | ok path =>
      have hagain := hdone.outcome_again hverbatim hitem
      cases houtcome : e.outcome operation before path with
      | error failure =>
          rw [houtcome] at hagain
          rw [entry_of_error hagain, entry_of_error houtcome]
          exact ⟨rfl, rfl⟩
      | ok change =>
          rw [houtcome] at hagain
          have hunfailed := (outcome_action houtcome).2
          rw [entry_of_ok hagain, entry_of_ok houtcome]
          exact ⟨rfl, by rw [Action.again, if_neg hunfailed]; rfl⟩

/-- No file gets a new content the second time. -/
theorem newContent?_again {item : Except Failure Path}
    (hitem : item ∈ e.items before roots walk) : e.newContent? operation after item = none :=
  hdone.handled.newContent?_again hverbatim hitem

/-- A request is made a second time when it was refused the first time. -/
theorem writeCall?_again {item : Except Failure Path} (hitem : item ∈ e.items before roots walk) :
    e.writeCall? operation after item =
      (e.writeCall? operation before item).filter fun call => call.refusal.isSome := by
  cases item with
  | error failure => rfl
  | ok path =>
      have hagain := hdone.outcome_again hverbatim hitem
      cases houtcome : e.outcome operation before path with
      | ok change =>
          rw [houtcome] at hagain
          simp only [writeCall?, hagain, houtcome, Except.map]
          cases change <;> rfl
      | error failure =>
          rw [houtcome] at hagain
          simp only [writeCall?, hagain, houtcome, Except.map]
          cases failure with
          | file task other cause => cases task <;> rfl
          | _ => rfl

/-- An item that has not stopped a run does not stop the next one. -/
theorem goes_again {item : Except Failure Path} (hitem : item ∈ e.items before roots walk) :
    ¬ e.Stops operation after item := by
  rintro ⟨hkeep, hfailed⟩
  rw [(hdone.entry_again hverbatim hitem).2] at hfailed
  refine hdone.goes item hitem ⟨hkeep, ?_⟩
  by_contra hunfailed
  rw [Action.again, if_neg hunfailed] at hfailed
  cases hfailed

end Completed

/-- **A second run is completed like the first**, in the same file system and
with the requests that the first run was refused. -/
theorem Completed.again (hdone : e.Completed operation roots before walk report after calls)
    (hplain : e.toPlan.Plain) (hverbatim : e.detector.present = verbatim) {v : World}
    (hfs : v.fs = after) :
    ∃ again v', e.run operation roots v = (.ok again, v') ∧
      again.files.map (fun file => (file.path, file.action)) =
        report.files.map (fun file => (file.path, file.action.again)) ∧
      v'.fs = v.fs ∧
      v'.writes = v.writes ++ calls.filter fun call => call.refusal.isSome := by
  have hstart : Walk.start v.fs roots = .ok walk := hfs ▸ hdone.start_again
  have hitems : e.items v.fs roots walk = e.items before roots walk := hfs ▸ hdone.items_again
  have hgoes : ∀ item ∈ e.items v.fs roots walk, ¬ e.Stops operation v.fs item := by
    intro item hitem
    rw [hitems] at hitem
    rw [hfs]
    exact hdone.goes_again hverbatim hitem
  obtain ⟨again, v', calls', hagain, hdone', hwrites'⟩ :=
    run_of_unstopped hplain hstart hdone.headers hgoes
  refine ⟨again, v', hagain, ?_, ?_, ?_⟩
  · rw [hdone'.files, hdone.files, hitems, hfs, List.map_map, List.map_map]
    refine List.map_congr_left fun item hitem => ?_
    obtain ⟨hpath, haction⟩ := hdone.entry_again hverbatim hitem
    exact Prod.ext hpath haction
  · have hnone : e.newContents operation after (e.items before roots walk) = [] :=
      List.filterMap_eq_nil_iff.mpr fun item hitem => hdone.newContent?_again hverbatim hitem
    rw [hdone'.fs, hitems, hfs, hnone, FileSystem.rewrite_nil]
  · have hcalls : (e.items before roots walk).filterMap (e.writeCall? operation after) =
        calls.filter fun call => call.refusal.isSome := by
      rw [hdone.calls, List.filter_filterMap]
      exact List.filterMap_congr fun item hitem => hdone.writeCall?_again hverbatim hitem
    rw [hwrites', hdone'.calls, hitems, hfs, hcalls]

end Engine

/-- **Running twice is running once.**  When a run returns a report, running
again on what it has left returns a report with the same paths in the same
order, in which the files that failed the first time fail again and all others
are unchanged.  The second run changes nothing and writes nothing: its requests
to write are those that were refused before, and they are refused again. -/
theorem run_twice {plan : Plan} {operation : Operation} {roots : List Path} {w w' v : World}
    {report : Report} (hplain : plan.Plain) (hverbatim : plan.detector.present = verbatim)
    (hrun : plan.run operation roots w = (.ok report, w')) (hfs : v.fs = w'.fs) :
    ∃ again v', plan.run operation roots v = (.ok again, v') ∧
      again.files.map (fun file => (file.path, file.action)) =
        report.files.map (fun file => (file.path, file.action.again)) ∧
      again.changedCount = 0 ∧ v'.fs = v.fs ∧ v'.written = v.written ∧
      ∃ calls, w'.writes = w.writes ++ calls ∧
        v'.writes = v.writes ++ calls.filter fun call => call.refusal.isSome := by
  obtain ⟨e, walk, calls, hengine, rfl, hdone, hwrites⟩ := Plan.run_completed hplain hrun
  obtain ⟨again, v', hagain, hfiles, hsame, hcalls⟩ :=
    hdone.again (v := v.tellAll e.warnings) hplain hverbatim hfs
  refine ⟨again, v', by rw [Plan.run_eq hengine, hagain], hfiles, ?_, hsame, ?_, calls, hwrites,
    hcalls⟩
  · have hquiet : ∀ file ∈ again.files, file.action.changesContent = false := by
      intro file hfile
      have hpair := List.mem_map_of_mem (f := fun file => (file.path, file.action)) hfile
      rw [hfiles] at hpair
      obtain ⟨first, _, hfirst⟩ := List.mem_map.mp hpair
      rw [← (Prod.mk.inj hfirst).2, Action.again_changesContent]
    rw [Report.changedCount, Report.changed, List.length_eq_zero_iff, List.filter_eq_nil_iff]
    intro file hfile
    rw [hquiet file hfile]
    exact Bool.false_ne_true
  · have hrefused : (calls.filter fun call => call.refusal.isSome).filter
        (fun call => call.refusal.isNone) = [] := by
      rw [List.filter_filter, List.filter_eq_nil_iff]
      intro call _
      cases call.refusal <;> simp
    rw [World.written, World.written, hcalls, List.filter_append, hrefused, List.append_nil]
    rfl

/-- Both runs of the sample, and the report of the second. -/
theorem run_twice_sample :
    Sample.plan.Plain ∧ Sample.plan.detector.present = verbatim ∧
      Sample.plan.run .remove Sample.roots { fs := Sample.tree } =
        (.ok Sample.report, Sample.run.2) ∧
      ∃ again v', Sample.plan.run .remove Sample.roots Sample.run.2 = (.ok again, v') ∧
        again.files.map (fun file => (file.path, file.action)) =
          [(⟨['w', '/', 'a']⟩, .unchanged)] ∧
        again.changedCount = 0 ∧ v'.fs = Sample.run.2.fs ∧
        v'.written = Sample.run.2.written := by
  have hrun : Sample.plan.run .remove Sample.roots { fs := Sample.tree } =
      (.ok Sample.report, Sample.run.2) := Prod.ext Sample.run_report rfl
  obtain ⟨again, v', hagain, hfiles, hchanged, hfs, hwritten, _⟩ :=
    run_twice Sample.plain rfl hrun rfl
  exact ⟨Sample.plain, rfl, hrun, again, v', hagain, hfiles, hchanged, hfs, hwritten⟩

end LicenseHeaders

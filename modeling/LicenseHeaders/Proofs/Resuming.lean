import LicenseHeaders.Proofs.FailFast
import LicenseHeaders.Proofs.Idempotence

/-!
# A run that is taken up again

A run can end before its time: it is killed between two files, or it stops at a
failure.  What it leaves is a file system in which the first items of its walk
have been handled (`Engine.cutShort_handled`).  Another run over what it has left
meets the same items.  It has nothing to do on those that were handled, because
they are settled or fail as they did before, and what becomes of the others
concerns files that have not been written.  So it ends where the first run would
have ended.

* `Engine.cutShort` — what a run leaves that is cut short;
* `Handled.rewrite_rest` — handling all items after some of them is handling all
  of them;
* `resumed_run` — a run that is taken up again, side by side with one that was
  never interrupted.
-/

namespace LicenseHeaders

namespace Plan

variable {plan : Plan} {operation : Operation} {before after : FileSystem}
  {passed rest : List (Except Failure Path)}

/-- After some items have been handled, all of them together give files the
contents that the rest would have given them at the beginning. -/
theorem Handled.newContents_rest (hhandled : plan.Handled operation before passed after)
    (hverbatim : plan.detector.present = verbatim)
    (hapart : (passed ++ rest).Pairwise (Walk.Apart before)) :
    plan.newContents operation after (passed ++ rest) =
      plan.newContents operation before rest := by
  have hpassed : plan.newContents operation after passed = [] :=
    List.filterMap_eq_nil_iff.mpr fun item hitem => hhandled.newContent?_again hverbatim hitem
  have hrest : plan.newContents operation after rest = plan.newContents operation before rest := by
    refine List.filterMap_congr fun item hitem => ?_
    have hunaware : Unaware before after item := by
      rw [hhandled.fs]
      refine unaware_of_apart fun other hother _ => ?_
      exact symm ((List.pairwise_append.mp hapart).2.2 other hother item hitem)
    exact newContent?_congr plan operation hhandled.outline hunaware
  rw [newContents, List.filterMap_append]
  exact (congrArg₂ (· ++ ·) hpassed hrest).trans (List.nil_append _)

/-- **Handling all items after some of them** is handling all of them. -/
theorem Handled.rewrite_rest (hhandled : plan.Handled operation before passed after)
    (hverbatim : plan.detector.present = verbatim)
    (hapart : (passed ++ rest).Pairwise (Walk.Apart before)) :
    after.rewrite (plan.newContents operation after (passed ++ rest)) =
      before.rewrite (plan.newContents operation before (passed ++ rest)) := by
  calc after.rewrite (plan.newContents operation after (passed ++ rest))
      = (before.rewrite (plan.newContents operation before passed)).rewrite
          (plan.newContents operation before rest) := by
        rw [hhandled.newContents_rest hverbatim hapart, hhandled.fs]
    _ = before.rewrite (plan.newContents operation before (passed ++ rest)) := by
        rw [← FileSystem.rewrite_append, newContents, newContents, newContents,
          List.filterMap_append]

end Plan

namespace Engine

open Plan

variable {e : Engine} {operation : Operation} {roots : List Path} {walk : Walk} {w : World}

/-! ## Runs that are cut short -/

/-- What a run leaves that is cut short after `k` items of its walk, or has come
to its end or to a failure before. -/
def cutShort (e : Engine) (operation : Operation) (roots : List Path) (k : Nat) (w : World) :
    World :=
  if operation = .synchronize ∧ e.headers.isEmpty then w
  else
    match Walk.start w.fs roots with
    | .error _ => w
    | .ok walk => (e.handleAll operation (min k (e.budget w.fs roots)) walk [] w).2

/-- A run that nobody cuts short leaves what it leaves when it is cut short late
enough. -/
theorem cutShort_budget (e : Engine) (operation : Operation) (roots : List Path) (w : World) :
    (e.cutShort operation roots (e.budget w.fs roots) w).fs = (e.run operation roots w).2.fs := by
  unfold cutShort run
  split
  · rfl
  · cases Walk.start w.fs roots with
    | error failure => rfl
    | ok walk =>
        dsimp only
        rw [Nat.min_self]
        rcases e.handleAll operation (e.budget w.fs roots) walk [] w with ⟨answer, w'⟩
        cases answer <;> rfl

/-- **A run that is cut short has handled the first items** of its walk. -/
theorem cutShort_handled (hplain : e.toPlan.Plain) (hstart : Walk.start w.fs roots = .ok walk)
    (hheaders : ¬ (operation = .synchronize ∧ e.headers.isEmpty = true)) (k : Nat) :
    ∃ passed rest, e.items w.fs roots walk = passed ++ rest ∧
      e.Handled operation w.fs passed (e.cutShort operation roots k w).fs := by
  have hpassage := handleAll_passage hplain.calm (min k (e.budget w.fs roots)) []
    (Midway.begin operation walk w)
  have hfirst : Walk.survey e.filters w.fs (min k (e.budget w.fs roots)) walk =
      (e.items w.fs roots walk).take (min k (e.budget w.fs roots)) :=
    Walk.survey_take (Nat.min_le_right _ _) walk
  -- The contents that have been given are those of the items that were passed.
  have hhandled : ∀ passed rest, e.items w.fs roots walk = passed ++ rest →
      (e.cutShort operation roots k w).fs = w.fs.rewrite (e.given operation w.fs passed) →
      e.Handled operation w.fs passed (e.cutShort operation roots k w).fs := by
    intro passed rest hitems hfs
    have hapart : (e.items w.fs roots walk).Pairwise (Walk.Apart w.fs) := Walk.survey_apart _ _
    rw [hitems, List.pairwise_append] at hapart
    exact ⟨hapart.1, hfs.trans (by rw [given_of_real hplain.real])⟩
  have hcut : (e.cutShort operation roots k w).fs =
      (e.handleAll operation (min k (e.budget w.fs roots)) walk [] w).2.fs := by
    rw [cutShort, if_neg hheaders, hstart]
  rw [hfirst] at hpassage
  rcases e.passes_or_stops operation w.fs
      ((e.items w.fs roots walk).take (min k (e.budget w.fs roots))) with
    hall | ⟨passed, item, rest, failure, htaken, hpassed, hstop⟩
  · have hitems := (List.take_append_drop (min k (e.budget w.fs roots))
      (e.items w.fs roots walk)).symm
    exact ⟨_, _, hitems, hhandled _ _ hitems (hcut.trans (hpassage.goes hall).2.1)⟩
  · have hitems : e.items w.fs roots walk = passed ++
        (item :: rest ++ (e.items w.fs roots walk).drop (min k (e.budget w.fs roots))) := by
      rw [← List.append_assoc, ← htaken, List.take_append_drop]
    exact ⟨_, _, hitems, hhandled _ _ hitems
      (hcut.trans (hpassage.stops passed item rest failure htaken hpassed hstop).2.1)⟩

/-- **A run that keeps going returns a report** if it has what it needs. -/
theorem run_of_lenient (hplain : e.toPlan.Plain) (hkeep : e.keepGoing = true)
    (hstart : Walk.start w.fs roots = .ok walk)
    (hheaders : ¬ (operation = .synchronize ∧ e.headers.isEmpty = true)) :
    ∃ report w' calls, e.run operation roots w = (.ok report, w') ∧
      e.Completed operation roots w.fs walk report w'.fs calls ∧ w'.writes = w.writes ++ calls :=
  run_of_unstopped hplain hstart hheaders fun _ _ hstops =>
    Bool.false_ne_true (hstops.1.symm.trans hkeep)

/-! ## Runs that are taken up again -/

/-- The same engine for runs that keep going. -/
def lenient (e : Engine) : Engine := { e with keepGoing := true }

/-- Two runs that keep going end alike when the second one finds some of the
first items of the first one handled. -/
theorem run_rest (hplain : e.toPlan.Plain) (hverbatim : e.detector.present = verbatim)
    (hkeep : e.keepGoing = true) (hstart : Walk.start w.fs roots = .ok walk)
    (hheaders : ¬ (operation = .synchronize ∧ e.headers.isEmpty = true))
    {passed rest : List (Except Failure Path)} (hitems : e.items w.fs roots walk = passed ++ rest)
    {v : World} (hhandled : e.Handled operation w.fs passed v.fs) :
    ∃ report resumed, (e.run operation roots w).1 = .ok report ∧
      (e.run operation roots v).1 = .ok resumed ∧
      resumed.files.map (·.path) = report.files.map (·.path) ∧
      (e.run operation roots v).2.fs = (e.run operation roots w).2.fs := by
  have hstart' : Walk.start v.fs roots = .ok walk := by
    rw [← Walk.start_outline, hhandled.outline, Walk.start_outline, hstart]
  obtain ⟨report, w', _, hrun, hdone, _⟩ := run_of_lenient hplain hkeep hstart hheaders
  obtain ⟨resumed, v', _, hrun', hdone', _⟩ := run_of_lenient hplain hkeep hstart' hheaders
  have hsame : e.items v.fs roots walk = e.items w.fs roots walk :=
    items_of_outline_eq hhandled.outline
  have hapart : (passed ++ rest).Pairwise (Walk.Apart w.fs) := hitems ▸ Walk.survey_apart _ _
  refine ⟨report, resumed, by rw [hrun], by rw [hrun'], ?_, ?_⟩
  · rw [hdone'.files, hdone.files, hsame, List.map_map, List.map_map]
    refine List.map_congr_left fun item _ => ?_
    rw [Function.comp_apply, Function.comp_apply, path_entry, path_entry]
  · rw [hrun, hrun', hdone.fs, hdone'.fs, hsame, hitems]
    exact hhandled.rewrite_rest hverbatim hapart

end Engine

namespace Sample

/-- A directory with three texts, the second of which cannot be read. -/
def locked : FileSystem where
  entries := [([['w']], .directory),
    ([['w'], ['a']], .file (.text ['(', ')', 'x'])),
    ([['w'], ['b']], .file (.text ['(', ')', 'y'])),
    ([['w'], ['c']], .file (.text ['(', ')', 'z']))]
  distinct := by decide
  current := []
  denied := [([['w'], ['b']], .reading)]

/-- What is wrong with the second text. -/
def refusal : Failure := .file .read ⟨['w', '/', 'b']⟩ .accessDenied

/-- What removes the pair of brackets, and stops at failures. -/
def engine : Engine := { plan with filters := filters }

end Sample

/-- **An interrupted run can be taken up again without a trace.**  A run that is
cut short after any number of items, or that stops at a failure, leaves a file
system on which a run that keeps going ends as it would have ended on the file
system at the beginning.  Both return a report, and the reports are about the
same paths in the same order; only synchronizing without a header fails, and
then nothing has been done before or is done again. -/
theorem resumed_run {e : Engine} {operation : Operation} {roots : List Path} {w v : World}
    (hplain : e.toPlan.Plain) (hverbatim : e.detector.present = verbatim)
    (hroots : ∀ root ∈ roots, w.fs.leadsToDirectory root = true)
    (hstopped : (∃ k, v.fs = (e.cutShort operation roots k w).fs) ∨
      v.fs = (e.run operation roots w).2.fs) :
    (e.lenient.run operation roots v).2.fs = (e.lenient.run operation roots w).2.fs ∧
      if operation = .synchronize ∧ e.headers.isEmpty = true then
        e.lenient.run operation roots v = (.error .noHeader, v) ∧
          e.lenient.run operation roots w = (.error .noHeader, w)
      else
        ∃ report resumed, (e.lenient.run operation roots w).1 = .ok report ∧
          (e.lenient.run operation roots v).1 = .ok resumed ∧
          resumed.files.map (·.path) = report.files.map (·.path) := by
  -- A run that has stopped by itself was cut short after all that it could meet.
  obtain ⟨k, hcut⟩ : ∃ k, v.fs = (e.cutShort operation roots k w).fs := by
    rcases hstopped with hcut | hran
    · exact hcut
    · exact ⟨_, hran.trans (e.cutShort_budget operation roots w).symm⟩
  by_cases hheaders : operation = .synchronize ∧ e.headers.isEmpty = true
  · have hleft : v.fs = w.fs := by rw [hcut, Engine.cutShort, if_pos hheaders]
    have hagain := Engine.run_of_headerless (e := e.lenient) roots v hheaders
    have hfirst := Engine.run_of_headerless (e := e.lenient) roots w hheaders
    rw [if_pos hheaders, hagain, hfirst]
    exact ⟨hleft, rfl, rfl⟩
  · have hstart := Walk.start_of_directories hroots
    obtain ⟨passed, rest, hitems, hhandled⟩ :=
      Engine.cutShort_handled hplain hstart hheaders k
    rw [← hcut] at hhandled
    have hlenient : e.lenient.toPlan.Plain :=
      ⟨hplain.undisturbed, hplain.real, hplain.unsaved, hplain.unlinked⟩
    obtain ⟨report, resumed, hreport, hresumed, hpaths, hfs⟩ :=
      Engine.run_rest hlenient hverbatim rfl hstart hheaders hitems (v := v)
        ⟨hhandled.apart, hhandled.fs⟩
    rw [if_neg hheaders]
    exact ⟨hfs, report, resumed, hreport, hresumed, hpaths⟩

/-- The run that could not read the second text and stopped there is taken up
again. -/
theorem resumed_run_sample :
    Sample.engine.toPlan.Plain ∧ Sample.engine.detector.present = verbatim ∧
      (∀ root ∈ Sample.roots, Sample.locked.leadsToDirectory root = true) ∧
      (Sample.engine.run .remove Sample.roots { fs := Sample.locked }).1 = .error Sample.refusal ∧
      (Sample.engine.run .remove Sample.roots { fs := Sample.locked }).2.fs.readText
        ⟨['w', '/', 'a']⟩ = .ok ['x'] ∧
      (Sample.engine.lenient.run .remove Sample.roots
          (Sample.engine.run .remove Sample.roots { fs := Sample.locked }).2).2.fs =
        (Sample.engine.lenient.run .remove Sample.roots { fs := Sample.locked }).2.fs := by
  have hroots : ∀ root ∈ Sample.roots, Sample.locked.leadsToDirectory root = true := by decide
  refine ⟨Sample.plain, rfl, hroots, by cbv, by cbv, ?_⟩
  exact (resumed_run Sample.plain rfl hroots (.inr rfl)).1

end LicenseHeaders

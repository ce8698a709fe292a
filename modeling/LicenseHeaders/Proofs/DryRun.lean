import LicenseHeaders.Proofs.Postcondition
import LicenseHeaders.Proofs.Stepwise

/-!
# A dry run foresees the real run

A real run keeps writing while it selects and reads, and a dry run never does.
Still both meet the same items, because a walk sees the outline only, and decide
about each as if it were the first, because no file is met twice.  So they can
part only where a request to write is refused, which a dry run does not try.

* `verdict_of_granted` — the verdict on one item is the same in both modes;
* `dry_run_foresees` — a dry run changes nothing and answers as the real run
  does, if the real run is refused nothing.
-/

namespace LicenseHeaders

/-- Two runs answer alike: with the same failure, or with reports that say the
same of the same files in the same order. -/
def Alike : Except Failure Report → Except Failure Report → Prop
  | .error failure, .error other => failure = other
  | .ok report, .ok other =>
    report.operation = other.operation ∧ report.files = other.files ∧
      report.scannedCount = other.scannedCount ∧ report.changedCount = other.changedCount ∧
      report.failedCount = other.failedCount
  | _, _ => False

/-- Reports of one operation that have the same lines say the same. -/
theorem Alike.of_files {report other : Report} (hoperation : report.operation = other.operation)
    (hfiles : report.files = other.files) : Alike (.ok report) (.ok other) := by
  refine ⟨hoperation, hfiles, ?_, ?_, ?_⟩
  · rw [Report.scannedCount, Report.scannedCount, hfiles]
  · rw [Report.changedCount, Report.changedCount, Report.changed, Report.changed, hfiles]
  · rw [Report.failedCount, Report.failedCount, Report.failed, Report.failed, hfiles]

namespace Plan

variable {plan : Plan} {operation : Operation} {fs : FileSystem}

/-- The same plan for a dry run. -/
def rehearsal (plan : Plan) : Plan := { plan with dryRun := true }

/-- The same plan for a real run. -/
def performance (plan : Plan) : Plan := { plan with dryRun := false }

theorem Calm.rehearsal (hcalm : plan.Calm) : plan.rehearsal.Calm :=
  ⟨⟨hcalm.undisturbed, hcalm.unsaved⟩, hcalm.unlinked⟩

theorem Calm.performance (hcalm : plan.Calm) : plan.performance.Calm :=
  ⟨⟨hcalm.undisturbed, hcalm.unsaved⟩, hcalm.unlinked⟩

/-- **The verdict on an item is foreseen by a dry run**, unless the request to write it
is refused. -/
theorem verdict_of_granted {item : Except Failure Path}
    (hgranted : ∀ call ∈ plan.requested operation fs [item], call.refusal = none) :
    plan.verdict operation fs item = plan.rehearsal.verdict operation fs item := by
  cases item with
  | error failure => rfl
  | ok path =>
      change _ = plan.prospect operation fs path
      rw [verdict]
      split
      · rfl
      · next hreal =>
        refine outcome_eq_prospect fun call hcall => hgranted call ?_
        rw [requested, if_neg hreal, List.mem_filterMap]
        exact ⟨.ok path, List.mem_singleton_self _, hcall⟩

/-- Files that are judged alike have the same line in the report. -/
theorem line_rehearsal (plan : Plan) {item : Except Failure Path}
    (hverdict : plan.verdict operation fs item = plan.rehearsal.verdict operation fs item) :
    plan.rehearsal.line operation fs item = plan.line operation fs item := by
  rw [line, ← hverdict, line]

theorem reply_rehearsal (plan : Plan) {item : Except Failure Path}
    (hverdict : plan.verdict operation fs item = plan.rehearsal.verdict operation fs item) :
    plan.rehearsal.reply operation fs item = plan.reply operation fs item := by
  rw [reply, ← hverdict, plan.line_rehearsal hverdict, reply]
  rfl

/-- An item on which a dry run and a real run have the same verdict. -/
def Foreseen (plan : Plan) (operation : Operation) (fs : FileSystem)
    (item : Except Failure Path) : Prop :=
  plan.rehearsal.verdict operation fs item = plan.performance.verdict operation fs item

/-- The verdict of a real run is foreseen. -/
theorem foreseen_of_granted {item : Except Failure Path}
    (hgranted : ∀ call ∈ plan.performance.requested operation fs [item], call.refusal = none) :
    plan.Foreseen operation fs item :=
  (verdict_of_granted hgranted).symm

/-- What is foreseen has the line that it gets in the run. -/
theorem Foreseen.line {item : Except Failure Path} (hforeseen : plan.Foreseen operation fs item) :
    plan.rehearsal.line operation fs item = plan.performance.line operation fs item :=
  plan.performance.line_rehearsal hforeseen.symm

/-- What is foreseen has the answer that it gets in the run. -/
theorem Foreseen.reply {item : Except Failure Path} (hforeseen : plan.Foreseen operation fs item) :
    plan.rehearsal.reply operation fs item = plan.performance.reply operation fs item :=
  plan.performance.reply_rehearsal hforeseen.symm

/-- A request for one item of several is one of all the requests. -/
theorem mem_requested {items : List (Except Failure Path)} {item : Except Failure Path}
    {call : WriteCall} (hitem : item ∈ items) (hcall : call ∈ plan.requested operation fs [item]) :
    call ∈ plan.requested operation fs items := by
  obtain ⟨before, after, rfl⟩ := List.append_of_mem hitem
  rw [← List.singleton_append, requested_append, requested_append]
  exact List.mem_append_right _ (List.mem_append_left _ hcall)

end Plan

namespace Engine

open Plan

/-- A dry run passes where a run does whose verdict it has foreseen. -/
theorem passes_of_foreseen {operation : Operation} {fs : FileSystem}
    {item : Except Failure Path} {dry e : Engine} (hdry : dry.toPlan = e.rehearsal)
    (hverdict : e.verdict operation fs item = e.rehearsal.verdict operation fs item)
    (hpasses : e.Passes operation fs item) : dry.Passes operation fs item := by
  rw [Passes, hdry, e.reply_rehearsal hverdict, e.line_rehearsal hverdict]
  exact hpasses

/-- An item is handled by a dry run and nothing is written. -/
theorem handle_of_dry {e : Engine} (hquiet : e.toPlan.Quiet) (hdry : e.dryRun = true)
    (operation : Operation) (item : Except Failure Path) (w : World) :
    w.Idle (e.handle operation item w).2 := by
  obtain ⟨_, hfs, hwrites⟩ := handle_reply operation hquiet item w
  rw [given, if_pos hdry, HardLinks.rewrite_nil] at hfs
  rw [requested, if_pos hdry, List.append_nil] at hwrites
  exact ⟨hfs, hwrites⟩

/-- A dry run handles all items and leaves everything as it is. -/
theorem handleAll_of_dry {e : Engine} (hquiet : e.toPlan.Quiet) (hdry : e.dryRun = true)
    (operation : Operation) (items : Nat) (walk : Walk) (files : List FileReport) (w : World) :
    w.Idle (e.handleAll operation items walk files w).2 := by
  induction items generalizing walk files w with
  | zero => exact ⟨rfl, rfl⟩
  | succ items ih =>
      rw [handleAll_succ]
      cases (Walk.next e.filters w.fs walk).1.met? with
      | none => exact w.idle_tellAll _
      | some item =>
          rw [Option.elim_some]
          have htold := w.idle_tellAll (Walk.next e.filters w.fs walk).2.2
          have hidle := htold.trans (handle_of_dry hquiet hdry operation item _)
          generalize e.handle operation item
            (w.tellAll (Walk.next e.filters w.fs walk).2.2) = handled at hidle ⊢
          obtain ⟨answer, v⟩ := handled
          cases answer with
          | error failure => exact hidle.trans (v.idle_tellAll _)
          | ok file => exact hidle.trans (ih _ _ _)

/-- **A dry run leaves everything as it is.** -/
theorem run_of_dry {e : Engine} (hquiet : e.toPlan.Quiet) (hdry : e.dryRun = true)
    (operation : Operation) (roots : List Path) (w : World) :
    w.Idle (e.run operation roots w).2 := by
  unfold run
  split
  · exact ⟨rfl, rfl⟩
  · split
    · exact ⟨rfl, rfl⟩
    · next walk _ =>
      have hidle := handleAll_of_dry hquiet hdry operation (e.budget w.fs roots) walk [] w
      generalize e.handleAll operation (e.budget w.fs roots) walk [] w = handled at hidle ⊢
      obtain ⟨answer, v⟩ := handled
      cases answer with
      | error failure => exact hidle
      | ok files => exact hidle.trans (v.idle_tell _)

/-- **Dry and real over the same walk.**  The dry run answers like the real run,
if that is refused nothing. -/
theorem run_foreseen {plan : Plan} (hcalm : plan.Calm) (operation : Operation)
    (roots : List Path) (w : World) {dry real : Engine} (hdry : dry.toPlan = plan.rehearsal)
    (hreal : real.toPlan = plan.performance) (hfilters : dry.filters = real.filters) :
    ∃ calls, (real.run operation roots w).2.writes = w.writes ++ calls ∧
      ((∀ call ∈ calls, call.refusal = none) →
        Alike (dry.run operation roots w).1 (real.run operation roots w).1) := by
  obtain ⟨_, filters⟩ := dry
  obtain ⟨_, _⟩ := real
  dsimp only at hdry hreal hfilters
  subst hdry hreal hfilters
  set dry : Engine := ⟨plan.rehearsal, filters⟩
  set real : Engine := ⟨plan.performance, filters⟩
  by_cases hheaders : operation = .synchronize ∧ plan.headers.isEmpty = true
  · have hdry : dry.run operation roots w = (.error .noHeader, w) :=
      run_of_headerless roots w hheaders
    have hreal : real.run operation roots w = (.error .noHeader, w) :=
      run_of_headerless roots w hheaders
    rw [hdry, hreal]
    exact ⟨[], (List.append_nil _).symm, fun _ => rfl⟩
  cases hstart : Walk.start w.fs roots with
  | error failure =>
      have hdry : dry.run operation roots w = (.error failure, w) :=
        run_of_rootless hheaders hstart
      have hreal : real.run operation roots w = (.error failure, w) :=
        run_of_rootless hheaders hstart
      rw [hdry, hreal]
      exact ⟨[], (List.append_nil _).symm, fun _ => rfl⟩
  | ok walk =>
      rcases real.passes_or_stops operation w.fs (real.items w.fs roots walk) with
        hall | ⟨passed, item, rest, failure, hitems, hpassed, hstop⟩
      · obtain ⟨w', hrun, _, hwrites⟩ := run_goes hcalm.performance hstart hheaders hall
        refine ⟨_, by rw [hrun, hwrites], fun hgranted => ?_⟩
        have hforeseen : ∀ item ∈ dry.items w.fs roots walk,
            plan.Foreseen operation w.fs item := fun item hitem =>
          foreseen_of_granted fun call hcall => hgranted call (mem_requested hitem hcall)
        have hdryall : ∀ item ∈ dry.items w.fs roots walk, dry.Passes operation w.fs item :=
          fun item hitem =>
            passes_of_foreseen (e := real) rfl (hforeseen item hitem).symm (hall item hitem)
        obtain ⟨w'', hdryrun, _⟩ := run_goes hcalm.rehearsal hstart hheaders hdryall
        rw [hdryrun, hrun]
        exact Alike.of_files rfl
          (List.map_congr_left fun item hitem => (hforeseen item hitem).line)
      · obtain ⟨w', _, hrun, _, hwrites, _⟩ :=
          run_stops hcalm.performance hstart hheaders hitems hpassed hstop
        refine ⟨_, by rw [hrun, hwrites], fun hgranted => ?_⟩
        have hforeseen : ∀ other ∈ passed ++ [item], plan.Foreseen operation w.fs other :=
          fun other hother =>
            foreseen_of_granted fun call hcall => hgranted call (mem_requested hother hcall)
        have hdrypassed : ∀ other ∈ passed, dry.Passes operation w.fs other := fun other hother =>
          passes_of_foreseen (e := real) rfl (hforeseen other (List.mem_append_left _ hother)).symm
            (hpassed other hother)
        have hdrystop : dry.reply operation w.fs item = .error failure :=
          (hforeseen item (by simp)).reply.trans hstop
        have hdryitems : dry.items w.fs roots walk = passed ++ item :: rest := hitems
        obtain ⟨w'', _, hdryrun, _⟩ :=
          run_stops hcalm.rehearsal hstart hheaders hdryitems hdrypassed hdrystop
        rw [hdryrun, hrun]
        rfl

end Engine

end LicenseHeaders

import LicenseHeaders.Proofs.Verdict

/-!
# How far a run comes

A run goes through the items of its walk until one of them stops it.  Nothing
that it does on the way can be noticed by a later item, so every answer can be
read off the file system at the beginning: the walk sees the outline only, which
no write changes, and an item concerns one file, which no item before has
written, because no file is met twice.  The run is over when its items are, or
else at the first item whose reply is a failure.

* `Midway` — the invariant, for dry runs and real ones;
* `handleAll_passage` — what a run comes to when all items let it pass, and what
  it leaves behind when one of them stops it.
-/

namespace LicenseHeaders

namespace Engine

open Plan

variable {e : Engine} {operation : Operation} {start : FileSystem}

/-! ## The invariant -/

/-- **The invariant of a run**, dry or real, over a file system that was `start`
at the beginning: the items that have been handled have given files their
contents and nothing else has happened, and the walk has seen these items. -/
structure Midway (e : Engine) (operation : Operation) (start : FileSystem)
    (handled : List (Except Failure Path)) (walk : Walk) (w : World) : Prop where
  fs : w.fs = start.rewrite (e.given operation start handled)
  seen : ∀ path, .ok path ∈ handled → Walk.identity start path ∈ walk.seen

theorem Midway.begin (operation : Operation) (walk : Walk) (w : World) :
    Midway e operation w.fs [] walk w where
  fs := by rw [given_nil, FileSystem.rewrite_nil]
  seen := fun _ hpath => by cases hpath

/-- Up to its middle a run has changed contents only. -/
theorem Midway.outline {handled : List (Except Failure Path)} {walk : Walk} {w : World}
    (hmidway : Midway e operation start handled walk w) : w.fs.outline = start.outline := by
  rw [hmidway.fs, outline_given]

/-- A run sees the walk that it would see at the beginning. -/
theorem Midway.next_eq {handled : List (Except Failure Path)} {walk : Walk} {w : World}
    (hmidway : Midway e operation start handled walk w) :
    Walk.next e.filters w.fs walk = Walk.next e.filters start walk :=
  Walk.next_of_outline_eq hmidway.outline e.filters walk

/-- **One step of a run.**  The next item is answered as it would be at the
beginning, and the invariant is kept. -/
theorem Midway.handle {handled : List (Except Failure Path)} {walk walk' : Walk} {w : World}
    {item : Except Failure Path} (hcalm : e.toPlan.Calm)
    (hmidway : Midway e operation start handled walk w)
    (hnotes : Walk.Notes start walk walk' item.toOption) (events : List Event) :
    Midway e operation start (handled ++ [item]) walk'
        (e.handle operation item (w.tellAll events)).2 ∧
      (e.handle operation item (w.tellAll events)).2.writes =
        w.writes ++ e.requested operation start [item] ∧
      (e.handle operation item (w.tellAll events)).1 = e.reply operation start item := by
  obtain ⟨hanswer, hdeed⟩ := handle_reply operation hcalm.toQuiet item (w.tellAll events)
  have hunaware : Unaware start w.fs item := by
    rw [hmidway.fs]
    exact unaware_given (hnotes.apart hmidway.seen)
  have hgiven := given_congr e.toPlan operation hmidway.outline hunaware
  have hrequested := requested_congr e.toPlan operation hmidway.outline hunaware
  have hreply := reply_congr e.toPlan operation hmidway.outline hunaware
  refine ⟨⟨?_, hnotes.seen hmidway.seen⟩, ?_, ?_⟩
  · rw [hdeed.fs, World.tellAll_fs, hgiven, hcalm.unlinked, HardLinks.rewrite_none, hmidway.fs,
      ← FileSystem.rewrite_append, given_append]
  · rw [hdeed.writes, World.tellAll_fs, hrequested, World.tellAll_writes]
  · rw [hanswer, World.tellAll_fs, hreply]

/-! ## All items -/

/-- An item lets a run pass when the answer to it is its line. -/
def Passes (e : Engine) (operation : Operation) (start : FileSystem)
    (item : Except Failure Path) : Prop :=
  e.reply operation start item = .ok (e.line operation start item)

/-- **A run over items.**  If all of them let it pass, it answers their lines, and
the new contents and the requests to write are those of the items, in order.
If not, it answers the first failure, with the contents of the items before
and a warning that lists what has been changed so far. -/
structure Passage (e : Engine) (operation : Operation) (start : FileSystem)
    (handled items : List (Except Failure Path)) (files : List FileReport) (w : World)
    (result : Except Failure (List FileReport) × World) : Prop where
  goes : (∀ item ∈ items, e.Passes operation start item) →
    result.1 = .ok (files ++ items.map (e.line operation start)) ∧
      result.2.fs = start.rewrite (e.given operation start (handled ++ items)) ∧
      result.2.writes = w.writes ++ e.requested operation start items
  stops : ∀ passed item rest failure, items = passed ++ item :: rest →
    (∀ other ∈ passed, e.Passes operation start other) →
    e.reply operation start item = .error failure →
    result.1 = .error failure ∧
      result.2.fs = start.rewrite (e.given operation start (handled ++ passed)) ∧
      result.2.writes = w.writes ++ e.requested operation start (passed ++ [item]) ∧
      ∃ told, result.2.events =
        told ++ e.interruption operation (files ++ passed.map (e.line operation start))

/-- Nothing more is to be met: the run returns what it has. -/
theorem Passage.nil {handled : List (Except Failure Path)} {walk : Walk} {w w' : World}
    {files : List FileReport} (hmidway : Midway e operation start handled walk w)
    (hfs : w'.fs = w.fs) (hwrites : w'.writes = w.writes) :
    Passage e operation start handled [] files w (.ok files, w') where
  goes := fun _ => by simp [hfs, hwrites, hmidway.fs]
  stops := fun passed item rest _ hitems => by simp at hitems

/-- One item and the rest of the passage. -/
theorem Passage.cons {handled rest : List (Except Failure Path)} {walk walk' : Walk} {w : World}
    {item : Except Failure Path} {files : List FileReport} {events : List Event}
    {proceed : FileReport → World → Except Failure (List FileReport) × World}
    (hcalm : e.toPlan.Calm) (hmidway : Midway e operation start handled walk w)
    (hnotes : Walk.Notes start walk walk' item.toOption)
    (hrest : ∀ file w', Midway e operation start (handled ++ [item]) walk' w' →
      Passage e operation start (handled ++ [item]) rest (files ++ [file]) w' (proceed file w')) :
    Passage e operation start handled (item :: rest) files w
      (match e.handle operation item (w.tellAll events) with
      | (.error failure, w) => (.error failure, w.tellAll (e.interruption operation files))
      | (.ok file, w) => proceed file w) := by
  obtain ⟨hafter, hwrites, hanswer⟩ := hmidway.handle hcalm hnotes events
  generalize e.handle operation item (w.tellAll events) = handling at hafter hwrites hanswer ⊢
  obtain ⟨answer, w'⟩ := handling
  dsimp only at hafter hwrites hanswer
  subst hanswer
  -- Only the head can stop the run here; a later item stops the rest of it.
  cases hreply : e.reply operation start item with
  | error failure =>
      constructor
      · intro hall
        have hpasses := hall item List.mem_cons_self
        rw [Passes, hreply] at hpasses
        cases hpasses
      · intro passed other others cause hitems hpassed hstop
        cases passed with
        | nil =>
            obtain ⟨rfl, rfl⟩ := List.cons.inj hitems
            cases hreply.symm.trans hstop
            refine ⟨rfl, ?_, ?_, w'.events, ?_⟩
            · have hnothing := given_of_error (reply_eq_error_iff.mp hreply).2
              have hfs := hafter.fs
              rw [given_append, hnothing, List.append_nil] at hfs
              rw [List.append_nil]
              exact hfs
            · exact hwrites
            · rw [List.map_nil, List.append_nil]
              rfl
        | cons first passed =>
            obtain ⟨rfl, _⟩ := List.cons.inj hitems
            have hpasses := hpassed item List.mem_cons_self
            rw [Passes, hreply] at hpasses
            cases hpasses
  | ok file =>
      have hline := eq_line_of_reply hreply
      obtain ⟨hgoes, hstops⟩ := hrest file w' hafter
      constructor
      · intro hall
        obtain ⟨hfiles, hfs, hcalls⟩ := hgoes fun other hother =>
          hall other (List.mem_cons_of_mem _ hother)
        refine ⟨?_, ?_, ?_⟩
        · rw [hfiles, hline, List.append_assoc, List.map_cons, List.singleton_append]
        · rw [hfs, List.append_assoc, List.singleton_append]
        · rw [hcalls, hwrites, List.append_assoc, ← requested_append, List.singleton_append]
      · intro passed other others cause hitems hpassed hstop
        cases passed with
        | nil =>
            obtain ⟨rfl, _⟩ := List.cons.inj hitems
            cases hreply.symm.trans hstop
        | cons first passed =>
            obtain ⟨rfl, hothers⟩ := List.cons.inj hitems
            obtain ⟨hfailure, hfs, hcalls, told, hevents⟩ :=
              hstops passed other others cause hothers
                (fun another hanother => hpassed another (List.mem_cons_of_mem _ hanother)) hstop
            refine ⟨hfailure, ?_, ?_, told, ?_⟩
            · rw [hfs, List.append_assoc, List.singleton_append]
            · rw [hcalls, hwrites, List.append_assoc, ← requested_append, List.singleton_append,
                List.cons_append]
            · rw [hevents, hline, List.append_assoc, List.map_cons, List.singleton_append]

/-- **A run comes as far as the items of its walk let it**, as they are in the
file system at the beginning. -/
theorem handleAll_passage (hcalm : e.toPlan.Calm) (items : Nat)
    {handled : List (Except Failure Path)} {walk : Walk} {w : World} (files : List FileReport)
    (hmidway : Midway e operation start handled walk w) :
    Passage e operation start handled (Walk.survey e.filters start items walk) files w
      (e.handleAll operation items walk files w) := by
  induction items generalizing handled walk w files with
  | zero => exact Passage.nil hmidway rfl rfl
  | succ items ih =>
      have hnotes := Walk.next_notes e.filters start walk
      rw [Walk.survey, handleAll, hmidway.next_eq]
      generalize Walk.next e.filters start walk = after at hnotes ⊢
      obtain ⟨answer, walk', events⟩ := after
      cases answer with
      | done => exact Passage.nil hmidway rfl rfl
      | failure failure =>
          exact Passage.cons hcalm hmidway hnotes fun file w' hmidway' =>
            ih (files ++ [file]) hmidway'
      | file path =>
          exact Passage.cons hcalm hmidway hnotes fun file w' hmidway' =>
            ih (files ++ [file]) hmidway'

/-- All items let a run pass, or there is a first one that does not. -/
theorem passes_or_stops (e : Engine) (operation : Operation) (start : FileSystem)
    (items : List (Except Failure Path)) :
    (∀ item ∈ items, e.Passes operation start item) ∨
      ∃ passed item rest failure, items = passed ++ item :: rest ∧
        (∀ other ∈ passed, e.Passes operation start other) ∧
        e.reply operation start item = .error failure := by
  induction items with
  | nil => exact .inl fun _ hitem => by cases hitem
  | cons item rest ih =>
      cases hreply : e.reply operation start item with
      | error failure => exact .inr ⟨[], item, rest, failure, rfl, by simp, hreply⟩
      | ok file =>
          have hpasses : e.Passes operation start item := by
            rw [Passes, hreply, eq_line_of_reply hreply]
          rcases ih with hall | ⟨passed, other, others, failure, rfl, hpassed, hstop⟩
          · exact .inl (List.forall_mem_cons.mpr ⟨hpasses, hall⟩)
          · exact .inr ⟨item :: passed, other, others, failure, rfl,
              List.forall_mem_cons.mpr ⟨hpasses, hpassed⟩, hstop⟩

/-! ## Whole runs -/

/-- What a run over roots meets. -/
def items (e : Engine) (fs : FileSystem) (roots : List Path) (walk : Walk) :
    List (Except Failure Path) :=
  Walk.survey e.filters fs (e.budget fs roots) walk

/-- What a run meets depends on the outline of the tree alone. -/
theorem items_of_outline_eq {before after : FileSystem} {roots : List Path} {walk : Walk}
    (houtline : after.outline = before.outline) :
    e.items after roots walk = e.items before roots walk := by
  have hsize : after.size = before.size := by
    rw [← FileSystem.size_outline after, houtline, FileSystem.size_outline]
  unfold items budget
  rw [hsize, ← Walk.survey_outline, houtline, Walk.survey_outline]

/-- A run that needs a header and has none does nothing. -/
theorem run_of_headerless (roots : List Path) (w : World)
    (hheaders : operation = .synchronize ∧ e.headers.isEmpty = true) :
    e.run operation roots w = (.error .noHeader, w) :=
  if_pos hheaders

/-- A run with a root that leads to no directory does nothing. -/
theorem run_of_rootless {roots : List Path} {w : World} {failure : Failure}
    (hheaders : ¬ (operation = .synchronize ∧ e.headers.isEmpty = true))
    (hstart : Walk.start w.fs roots = .error failure) :
    e.run operation roots w = (.error failure, w) := by
  rw [run, if_neg hheaders, hstart]

section

variable {roots : List Path} {walk : Walk} {w : World}
  (hstart : Walk.start w.fs roots = .ok walk)
  (hheaders : ¬ (operation = .synchronize ∧ e.headers.isEmpty = true))

include hstart hheaders

/-- A run reports the lines about its items when it has answered them all. -/
theorem run_of_files {files : List FileReport} {u : World}
    (hall : e.handleAll operation (e.budget w.fs roots) walk [] w = (.ok files, u)) :
    ∃ w', e.run operation roots w = (.ok { operation, dryRun := e.dryRun, files }, w') ∧
      u.Idle w' := by
  rw [run, if_neg hheaders, hstart]
  dsimp only
  rw [hall]
  exact ⟨_, rfl, rfl, rfl⟩

/-- A run fails with the item that has stopped it. -/
theorem run_of_failure {failure : Failure} {u : World}
    (hall : e.handleAll operation (e.budget w.fs roots) walk [] w = (.error failure, u)) :
    e.run operation roots w = (.error failure, u) := by
  rw [run, if_neg hheaders, hstart]
  dsimp only
  rw [hall]

end

section

variable {roots : List Path} {walk : Walk} {w : World} (hcalm : e.toPlan.Calm)
  (hstart : Walk.start w.fs roots = .ok walk)
  (hheaders : ¬ (operation = .synchronize ∧ e.headers.isEmpty = true))

include hcalm hstart hheaders

/-- **A run that all items let pass** returns a report of their lines. -/
theorem run_goes
    (hall : ∀ item ∈ e.items w.fs roots walk, e.Passes operation w.fs item) :
    ∃ w', e.run operation roots w =
        (.ok { operation, dryRun := e.dryRun,
               files := (e.items w.fs roots walk).map (e.line operation w.fs) }, w') ∧
      w'.fs = w.fs.rewrite (e.given operation w.fs (e.items w.fs roots walk)) ∧
      w'.writes = w.writes ++ e.requested operation w.fs (e.items w.fs roots walk) := by
  obtain ⟨hfiles, hfs, hwrites⟩ := (handleAll_passage hcalm (e.budget w.fs roots) []
    (Midway.begin operation walk w)).goes hall
  obtain ⟨w', hrun, hidle⟩ := run_of_files hstart hheaders (Prod.ext hfiles rfl)
  exact ⟨w', hrun, hidle.fs.trans hfs, hidle.writes.trans hwrites⟩

/-- **A run that an item stops** answers the failure of that item. -/
theorem run_stops {passed rest : List (Except Failure Path)} {item : Except Failure Path}
    {failure : Failure} (hitems : e.items w.fs roots walk = passed ++ item :: rest)
    (hpassed : ∀ other ∈ passed, e.Passes operation w.fs other)
    (hstop : e.reply operation w.fs item = .error failure) :
    ∃ w' told, e.run operation roots w = (.error failure, w') ∧
      w'.fs = w.fs.rewrite (e.given operation w.fs passed) ∧
      w'.writes = w.writes ++ e.requested operation w.fs (passed ++ [item]) ∧
      w'.events = told ++ e.interruption operation (passed.map (e.line operation w.fs)) := by
  obtain ⟨hfailure, hfs, hwrites, told, hevents⟩ :=
    (handleAll_passage hcalm (e.budget w.fs roots) []
      (Midway.begin operation walk w)).stops passed item rest failure hitems hpassed hstop
  exact ⟨_, told, run_of_failure hstart hheaders (Prod.ext hfailure rfl), hfs, hwrites, hevents⟩

end

/-- A run that returns a report has headers where it needs them and roots that
lead to directories, and has handled the items of its walk. -/
theorem run_eq_ok {roots : List Path} {w w' : World} {report : Report}
    (hrun : e.run operation roots w = (.ok report, w')) :
    ∃ walk v, Walk.start w.fs roots = .ok walk ∧
      ¬ (operation = .synchronize ∧ e.headers.isEmpty = true) ∧
      e.handleAll operation (e.budget w.fs roots) walk [] w = (.ok report.files, v) ∧
      v.Idle w' := by
  by_cases hheaders : operation = .synchronize ∧ e.headers.isEmpty = true
  · cases (run_of_headerless roots w hheaders).symm.trans hrun
  cases hstart : Walk.start w.fs roots with
  | error failure => cases (run_of_rootless hheaders hstart).symm.trans hrun
  | ok walk =>
      rw [run, if_neg hheaders, hstart] at hrun
      dsimp only at hrun
      cases hall : e.handleAll operation (e.budget w.fs roots) walk [] w with
      | mk answer v =>
          rw [hall] at hrun
          cases answer with
          | error failure => cases hrun
          | ok files =>
              cases hrun
              exact ⟨walk, v, rfl, hheaders, hall, rfl, rfl⟩

/-- **A run that returns a report** has passed all its items, and the report has
their lines. -/
theorem run_returned {roots : List Path} {w w' : World} {report : Report} (hcalm : e.toPlan.Calm)
    (hrun : e.run operation roots w = (.ok report, w')) :
    ∃ walk, Walk.start w.fs roots = .ok walk ∧
      ¬ (operation = .synchronize ∧ e.headers.isEmpty = true) ∧
      (∀ item ∈ e.items w.fs roots walk, e.Passes operation w.fs item) ∧
      report = { operation, dryRun := e.dryRun,
                 files := (e.items w.fs roots walk).map (e.line operation w.fs) } ∧
      w'.fs = w.fs.rewrite (e.given operation w.fs (e.items w.fs roots walk)) ∧
      w'.writes = w.writes ++ e.requested operation w.fs (e.items w.fs roots walk) := by
  obtain ⟨walk, _, hstart, hheaders, _⟩ := run_eq_ok hrun
  rcases passes_or_stops e operation w.fs (e.items w.fs roots walk) with
    hall | ⟨passed, item, rest, failure, hitems, hpassed, hstop⟩
  · obtain ⟨_, hreturned, hfs, hwrites⟩ := run_goes hcalm hstart hheaders hall
    cases hreturned.symm.trans hrun
    exact ⟨walk, hstart, hheaders, hall, rfl, hfs, hwrites⟩
  · obtain ⟨_, _, hstopped, _⟩ := run_stops hcalm hstart hheaders hitems hpassed hstop
    cases hstopped.symm.trans hrun

end Engine

end LicenseHeaders

import LicenseHeaders.Proofs.Passage

/-!
# A run, item by item

A run answers what its walk meets and goes on behind it, unless it stops.  So
what is kept by one item is kept by a run.  A run that has come to its end has
been through every beginning of its report, and a run that keeps going always
comes to its end.

* `handleAll_invariant` — from one item to all of them;
* `handleAll_take` — on its way a run has the first lines of its report;
* `handleAll_of_keepGoing` — a run that keeps going is stopped by nothing;
* `Mirrors`, `run_of_unfailed` — runs that fail nowhere come to the same.
-/

namespace LicenseHeaders

namespace Engine

open Plan

variable {e : Engine} {operation : Operation} {start : FileSystem} {walk : Walk} {w u : World}
  {files result : List FileReport}

/-! ## One item -/

/-- How a run goes on when an item has been handled. -/
def goOn (e : Engine) (operation : Operation) (items : Nat) (walk : Walk)
    (files : List FileReport) :
    Except Failure FileReport × World → Except Failure (List FileReport) × World
  | (.error failure, w) => (.error failure, w.tellAll (e.interruption operation files))
  | (.ok file, w) => e.handleAll operation items walk (files ++ [file]) w

/-- A run handles what its walk meets and goes on, or ends with its walk. -/
theorem handleAll_succ (e : Engine) (operation : Operation) (items : Nat) (walk : Walk)
    (files : List FileReport) (w : World) :
    e.handleAll operation (items + 1) walk files w =
      (Walk.next e.filters w.fs walk).1.met?.elim
        (.ok files, w.tellAll (Walk.next e.filters w.fs walk).2.2) fun item =>
          e.goOn operation items (Walk.next e.filters w.fs walk).2.1 files
            (e.handle operation item (w.tellAll (Walk.next e.filters w.fs walk).2.2)) := by
  rw [handleAll]
  rcases Walk.next e.filters w.fs walk with ⟨item, walk', events⟩
  cases item <;> rfl

/-- A run goes on behind an item with a line of the report. -/
theorem goOn_eq_ok {items : Nat} {handling : Except Failure FileReport × World}
    (hgoes : e.goOn operation items walk files handling = (.ok result, u)) :
    ∃ file v, handling = (.ok file, v) ∧
      e.handleAll operation items walk (files ++ [file]) v = (.ok result, u) := by
  obtain ⟨answer, v⟩ := handling
  cases answer with
  | error failure => cases hgoes
  | ok file => exact ⟨file, v, rfl, hgoes⟩

/-- A run that keeps going answers every item with a line. -/
theorem handle_of_keepGoing (hkeep : e.keepGoing = true) (operation : Operation)
    (item : Except Failure Path) (w : World) :
    ∃ file v, e.handle operation item w = (.ok file, v) := by
  have hrecord : ∀ path failure w, ∃ file v, e.record path failure w = (.ok file, v) :=
    fun path failure w => ⟨_, _, if_pos hkeep⟩
  unfold handle
  split
  · exact hrecord _ _ _
  · split
    · exact ⟨_, _, rfl⟩
    · exact hrecord _ _ _

/-! ## All items -/

/-- **A run over items** keeps an invariant that is kept by handling an item, as long
as the run sees the walk that it would see at the beginning. -/
theorem handleAll_invariant (e : Engine) (Fit : Except Failure Path → Prop)
    (Inv : List (Except Failure Path) → List FileReport → Walk → World → Prop)
    (hnext : ∀ {handled files walk w}, Inv handled files walk w →
      Walk.next e.filters w.fs walk = Walk.next e.filters start walk)
    (htold : ∀ {handled files walk w} (events : List Event), Inv handled files walk w →
      Inv handled files walk (w.tellAll events))
    (hstep : ∀ {handled files walk walk' w v item file} (events : List Event),
      Inv handled files walk w → Fit item → Walk.Notes start walk walk' item.toOption →
      e.handle operation item (w.tellAll events) = (.ok file, v) →
      Inv (handled ++ [item]) (files ++ [file]) walk' v)
    (items : Nat) {handled : List (Except Failure Path)} (hinv : Inv handled files walk w)
    (hfit : ∀ item ∈ Walk.survey e.filters start items walk, Fit item)
    (hrun : e.handleAll operation items walk files w = (.ok result, u)) :
    ∃ walk', Inv (handled ++ Walk.survey e.filters start items walk) result walk' u := by
  induction items generalizing handled walk w files with
  | zero =>
      cases hrun
      rw [Walk.survey, List.append_nil]
      exact ⟨walk, hinv⟩
  | succ items ih =>
      have hnotes := Walk.next_notes e.filters start walk
      rw [handleAll_succ, hnext hinv] at hrun
      rw [Walk.survey_succ] at hfit ⊢
      cases hmet : (Walk.next e.filters start walk).1.met? with
      | none =>
          rw [hmet] at hrun
          cases hrun
          rw [Option.elim_none, List.append_nil]
          exact ⟨walk, htold _ hinv⟩
      | some item =>
          rw [hmet, Option.elim_some] at hrun hfit
          rw [Option.elim_some]
          rw [Walk.Item.path?_of_met? hmet] at hnotes
          obtain ⟨file, v, hhandle, hgoes⟩ := goOn_eq_ok hrun
          obtain ⟨hfirst, hrest⟩ := List.forall_mem_cons.mp hfit
          obtain ⟨walk', hthen⟩ := ih (hstep _ hinv hfirst hnotes hhandle) hrest hgoes
          rw [List.append_assoc, List.singleton_append] at hthen
          exact ⟨walk', hthen⟩

/-- A run only adds to its report. -/
theorem handleAll_extends {items : Nat}
    (hrun : e.handleAll operation items walk files w = (.ok result, u)) :
    ∃ more, result = files ++ more := by
  induction items generalizing walk files w with
  | zero =>
      cases hrun
      exact ⟨[], (List.append_nil _).symm⟩
  | succ items ih =>
      rw [handleAll_succ] at hrun
      cases hmet : (Walk.next e.filters w.fs walk).1.met? with
      | none =>
          rw [hmet] at hrun
          cases hrun
          exact ⟨[], (List.append_nil _).symm⟩
      | some item =>
          rw [hmet] at hrun
          obtain ⟨file, v, _, hgoes⟩ := goOn_eq_ok hrun
          obtain ⟨more, rfl⟩ := ih hgoes
          exact ⟨file :: more, List.append_cons files file more ▸ rfl⟩

/-- **On its way a run has the first lines of its report.** -/
theorem handleAll_take {items : Nat} {more : List FileReport}
    (hrun : e.handleAll operation items walk files w = (.ok (files ++ more), u)) {k : Nat}
    (hk : k ≤ more.length) :
    ∃ v, e.handleAll operation k walk files w = (.ok (files ++ more.take k), v) := by
  induction items generalizing walk files w more k with
  | zero =>
      obtain ⟨rfl, rfl⟩ : more = [] ∧ k = 0 := by
        have hempty : more = [] := by
          have hfiles : files = files ++ more := Except.ok.inj (Prod.mk.inj hrun).1
          simpa using hfiles
        exact ⟨hempty, by simpa [hempty] using hk⟩
      exact ⟨w, by rw [List.take_nil, List.append_nil]; rfl⟩
  | succ items ih =>
      cases k with
      | zero => exact ⟨w, by rw [List.take_zero, List.append_nil]; rfl⟩
      | succ k =>
          rw [handleAll_succ] at hrun ⊢
          cases hmet : (Walk.next e.filters w.fs walk).1.met? with
          | none =>
              rw [hmet] at hrun
              have hfiles : files = files ++ more := Except.ok.inj (Prod.mk.inj hrun).1
              have hempty : more = [] := by simpa using hfiles
              rw [hempty] at hk
              exact absurd hk (Nat.not_succ_le_zero k)
          | some item =>
              rw [hmet, Option.elim_some] at hrun
              obtain ⟨file, v, hhandle, hgoes⟩ := goOn_eq_ok hrun
              obtain ⟨others, hothers⟩ := handleAll_extends hgoes
              obtain rfl : more = file :: others := by simpa using hothers
              rw [List.append_cons files file others] at hgoes
              obtain ⟨after, hafter⟩ := ih hgoes (Nat.le_of_succ_le_succ hk)
              rw [Option.elim_some, hhandle]
              exact ⟨after, by rw [List.take_succ_cons, List.append_cons]; exact hafter⟩

/-- **A run that keeps going is stopped by nothing.** -/
theorem handleAll_of_keepGoing (hkeep : e.keepGoing = true) (operation : Operation) (items : Nat)
    (walk : Walk) (files : List FileReport) (w : World) :
    ∃ result u, e.handleAll operation items walk files w = (.ok result, u) := by
  induction items generalizing walk files w with
  | zero => exact ⟨files, w, rfl⟩
  | succ items ih =>
      rw [handleAll_succ]
      cases (Walk.next e.filters w.fs walk).1.met? with
      | none => exact ⟨_, _, rfl⟩
      | some item =>
          obtain ⟨file, v, hhandle⟩ := handle_of_keepGoing hkeep operation item
            (w.tellAll (Walk.next e.filters w.fs walk).2.2)
          rw [Option.elim_some, hhandle]
          exact ih _ _ _

/-! ## Runs that fail nowhere -/

/-- Engines that make the same of every file and select the same files.  They can
differ in whether they keep going and whether they show diffs. -/
structure Mirrors (e other : Engine) : Prop where
  headers : other.headers = e.headers
  detector : other.detector = e.detector
  links : other.links = e.links
  dryRun : other.dryRun = e.dryRun
  filters : other.filters = e.filters

section

variable {other : Engine} {v : World} (hmirrors : e.Mirrors other) (hquiet : e.toPlan.Quiet)
  (hother : other.toPlan.Quiet)

include hmirrors

/-- Such engines have the same lines and contents for an item. -/
theorem Mirrors.line_eq (operation : Operation) (fs : FileSystem) (item : Except Failure Path) :
    other.line operation fs item = e.line operation fs item ∧
      other.given operation fs [item] = e.given operation fs [item] := by
  obtain ⟨⟨headers, criteria, detector, diff, links, dryRun, keepGoing⟩, filters⟩ := e
  obtain ⟨⟨_, criteria', _, diff', _, _, keepGoing'⟩, _⟩ := other
  obtain ⟨rfl, rfl, rfl, rfl, rfl⟩ := hmirrors
  exact ⟨rfl, rfl⟩

include hquiet hother

/-- What does not fail is handled alike. -/
theorem Mirrors.handle (hfs : v.fs = w.fs) {item : Except Failure Path} {file : FileReport}
    (hhandle : e.handle operation item w = (.ok file, u)) (hunfailed : file.action ≠ .failed) :
    ∃ u', other.handle operation item v = (.ok file, u') ∧ u'.fs = u.fs := by
  obtain ⟨hanswer, hdeed⟩ := handle_reply operation hquiet item w
  obtain ⟨hanswer', hdeed'⟩ := handle_reply operation hother item v
  rw [hhandle] at hanswer hdeed
  obtain rfl := eq_line_of_reply hanswer.symm
  obtain ⟨hline, hgiven⟩ := hmirrors.line_eq operation w.fs item
  have hgoes : other.reply operation w.fs item = .ok (other.line operation w.fs item) :=
    reply_of_goes (.inr (hline ▸ hunfailed))
  refine ⟨_, Prod.ext ?_ rfl, ?_⟩
  · rw [hanswer', hfs, hgoes, hline]
  · rw [hdeed'.fs, hdeed.fs, hfs, hgiven, hmirrors.links]

/-- Items that do not fail are handled alike. -/
theorem Mirrors.handleAll {items : Nat} (hfs : v.fs = w.fs)
    (hrun : e.handleAll operation items walk files w = (.ok result, u))
    (hunfailed : ∀ file ∈ result, file.action ≠ .failed) :
    ∃ u', other.handleAll operation items walk files v = (.ok result, u') ∧ u'.fs = u.fs := by
  induction items generalizing walk files w v with
  | zero =>
      cases hrun
      exact ⟨v, rfl, hfs⟩
  | succ items ih =>
      rw [handleAll_succ] at hrun
      rw [handleAll_succ, hmirrors.filters, hfs]
      have htold : (v.tellAll (Walk.next e.filters w.fs walk).2.2).fs =
          (w.tellAll (Walk.next e.filters w.fs walk).2.2).fs := hfs
      cases hmet : (Walk.next e.filters w.fs walk).1.met? with
      | none =>
          rw [hmet] at hrun
          cases hrun
          exact ⟨_, rfl, htold⟩
      | some item =>
          rw [hmet, Option.elim_some] at hrun
          obtain ⟨file, w', hhandle, hgoes⟩ := goOn_eq_ok hrun
          obtain ⟨more, hmore⟩ := handleAll_extends hgoes
          have hfile : file ∈ result := by simp [hmore]
          obtain ⟨v', hhandle', hsame⟩ :=
            hmirrors.handle hquiet hother htold hhandle (hunfailed file hfile)
          rw [Option.elim_some, hhandle']
          exact ih hsame hgoes

end

/-- **Runs that fail nowhere** come to the same, whether they would have kept going
or not, and whether they show diffs or not. -/
theorem run_of_unfailed {other : Engine} {roots : List Path} {w' v : World} {report : Report}
    (hmirrors : e.Mirrors other) (hquiet : e.toPlan.Quiet) (hother : other.toPlan.Quiet)
    (hfs : v.fs = w.fs) (hrun : e.run operation roots w = (.ok report, w'))
    (hunfailed : ∀ file ∈ report.files, file.action ≠ .failed) :
    ∃ v', other.run operation roots v = (.ok report, v') ∧ v'.fs = w'.fs := by
  obtain ⟨walk, u, hstart, hheaders, hall, hidle⟩ := run_eq_ok hrun
  obtain ⟨u', hgoes, hsame⟩ := hmirrors.handleAll hquiet hother hfs hall hunfailed
  have hbudget : other.budget v.fs roots = e.budget w.fs roots := by
    rw [budget, budget, hmirrors.detector, hfs]
  obtain ⟨_, hreturned, _⟩ := run_of_files hstart hheaders hall
  obtain ⟨v', hrun', hidle'⟩ := run_of_files (e := other) (w := v) (hfs ▸ hstart)
    (hmirrors.headers ▸ hheaders) (hbudget ▸ hgoes)
  refine ⟨v', ?_, by rw [hidle'.fs, hsame, hidle.fs]⟩
  rw [hrun', hmirrors.dryRun, ← (Prod.mk.inj (hreturned.symm.trans hrun)).1]

end Engine

end LicenseHeaders

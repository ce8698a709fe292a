import LicenseHeaders.Proofs.Postcondition
import LicenseHeaders.Proofs.Stepwise
import LicenseHeaders.Proofs.Treatment

/-!
# Files that come to their target state

A real run takes the selected files one after the other, and each comes to what the
operation makes of the text it had before the run, for good.  A file that is met
again by a further name has come to that already, and stays as it is.

* `Brought` — a line of the report that is right in the end;
* `Engine.Tends` — what is kept on the way of a run, with a diff file or without;
* `Engine.run_brings` — all lines of a report are right.
-/

namespace LicenseHeaders

open Plan

/-- **A line of the report is right in the end**: it is about the path of its item,
and unless it has failed, the file there is what the operation makes of the text it
had, if it is none of certain files that the command has for itself.  The action is
that of this change, or there is nothing left to do because the file has been met by
a further name. -/
structure Brought (plan : Plan) (operation : Operation) (before ready final : FileSystem)
    (own : Location → Prop) (items : List (Except Failure Path)) (item : Except Failure Path)
    (file : FileReport) : Prop where
  path : file.path = subject item
  target : file.action ≠ .failed → ∃ path l, item = .ok path ∧ ready.canonical? path = some l ∧
    (¬ own l → ∃ content change, before.find? l = some (.file (.text content)) ∧
      plan.transform operation content = .ok change ∧
      final.find? l = some (.file (.text (textAfter content change))) ∧
      Settled operation plan.headers (textAfter content change) ∧
      (file.action = actionOf change ∨ file.action = .unchanged ∧ ∃ other k, .ok other ∈ items ∧
        ready.canonical? other = some k ∧ k ∈ plan.links.others l))

/-- What happens to the files of a command alone spoils no line, before the run or after
it. -/
theorem Brought.of_apart {plan : Plan} {operation : Operation} {before ready now final : FileSystem}
    {own others : Location → Prop} {items : List (Except Failure Path)}
    {item : Except Failure Path} {file : FileReport}
    (hbrought : Brought plan operation ready ready now own items item file)
    (hwider : ∀ l, own l → others l) (hbefore : ∀ l, ¬ others l → ready.find? l = before.find? l)
    (hafter : ∀ l, ¬ others l → final.find? l = now.find? l) :
    Brought plan operation before ready final others items item file where
  path := hbrought.path
  target := by
    intro hunfailed
    obtain ⟨path, l, hitem, hl, htarget⟩ := hbrought.target hunfailed
    refine ⟨path, l, hitem, hl, fun hother => ?_⟩
    obtain ⟨content, change, hcontent, htransform, hfound, hsettled⟩ :=
      htarget fun hown => hother (hwider l hown)
    exact ⟨content, change, (hbefore l hother).symm.trans hcontent, htransform,
      (hafter l hother).trans hfound, hsettled⟩

namespace Engine

variable {e : Engine} {operation : Operation} {start : FileSystem} {walk walk' : Walk}
  {handled : List (Except Failure Path)} {w v : World}

/-! ## One step -/

/-- A file holds what the operation makes of the text it had at the beginning. -/
def Attained (e : Engine) (operation : Operation) (start now : FileSystem) (l : Location) : Prop :=
  ∃ content change, start.find? l = some (.file (.text content)) ∧
    e.transform operation content = .ok change ∧
    now.find? l = some (.file (.text (textAfter content change)))

/-- **The invariant of a real run.**  The names of files agree, and apart from the diff
file, a file is as it was or has been handled, by one of its names, and holds what the
operation makes of its text.  The walk has seen what has been handled. -/
structure Tends (e : Engine) (operation : Operation) (start : FileSystem)
    (handled : List (Except Failure Path)) (walk : Walk) (now : FileSystem) : Prop where
  outline : now.outline = start.outline
  holds : e.links.Holds now
  files : ∀ l, ¬ e.DiffAt start l → now.find? l = start.find? l ∨
    e.Attained operation start now l ∧ ∃ path k, .ok path ∈ handled ∧
      start.canonical? path = some k ∧ e.links.Names k l
  seen : ∀ path, .ok path ∈ handled → Walk.identity start path ∈ walk.seen

/-- At its start a run has handled nothing and changed nothing. -/
theorem Tends.begin (operation : Operation) (walk : Walk) (hholds : e.links.Holds start) :
    Tends e operation start [] walk start where
  outline := rfl
  holds := hholds
  files := fun _ _ => .inl rfl
  seen := fun _ hpath => by cases hpath

/-- Which locations are names of the diff file does not depend on contents. -/
theorem diffAt_congr {fs gs : FileSystem} (houtline : gs.outline = fs.outline) :
    e.DiffAt gs = e.DiffAt fs := by
  unfold DiffAt
  rw [DiffOutput.owns_congr houtline]

section

variable {item : Except Failure Path} {now after : FileSystem} {answer : Action → Prop}
  (hverbatim : e.detector.present = verbatim)
  (htends : Tends e operation start handled walk now)
  (htreats : e.Treats operation item now after answer)

include hverbatim htends htreats

/-- **What has come to its target state stays there.** -/
theorem Attained.stays {l : Location} (hl : ¬ e.DiffAt start l) {content : Text}
    {change : Option Change} (htransform : e.transform operation content = .ok change)
    (hnow : now.find? l = some (.file (.text (textAfter content change)))) :
    after.find? l = some (.file (.text (textAfter content change))) := by
  rw [← diffAt_congr htends.outline] at hl
  obtain hsame | ⟨_, _, held, new, _, _, _, hheld, hagain, _⟩ := htreats.files l hl
  · exact hsame.trans hnow
  · -- The operation has nothing left to do there.
    obtain rfl : textAfter content change = held :=
      Content.text.inj (Entry.file.inj (Option.some.inj (hnow.symm.trans hheld)))
    cases (transform_textAfter hverbatim htransform).symm.trans hagain

/-- **One step of a real run** keeps the invariant. -/
theorem Tends.step (hnotes : Walk.Notes start walk walk' item.toOption) :
    Tends e operation start (handled ++ [item]) walk' after where
  outline := htreats.outline.trans htends.outline
  holds := htreats.holds
  seen := hnotes.seen htends.seen
  files := by
    intro l hl
    have hmore : ∀ {path : Path}, .ok path ∈ handled → .ok path ∈ handled ++ [item] :=
      List.mem_append_left _
    have hnot : ¬ e.DiffAt now l := by rwa [diffAt_congr htends.outline]
    obtain hsame | ⟨path, k, content, change, rfl, hk, hnames, hheld, htransform, hwritten⟩ :=
      htreats.files l hnot
    · obtain hold | ⟨⟨content, change, hcontent, htransform, hnow⟩, path, k, hpath, hk⟩ :=
        htends.files l hl
      · exact .inl (hsame.trans hold)
      · exact .inr ⟨⟨content, change, hcontent, htransform, hsame.trans hnow⟩, path, k,
          hmore hpath, hk⟩
    · rw [FileSystem.canonical?_of_outline_eq htends.outline] at hk
      obtain hold | ⟨⟨first, done, _, hdone, hnow⟩, _⟩ := htends.files l hl
      · exact .inr ⟨⟨content, some change, hold ▸ hheld, htransform, hwritten⟩, path, k, by simp,
          hk, hnames⟩
      · have hstays := Attained.stays hverbatim htends htreats hl hdone hnow
        obtain rfl : textAfter first done = content :=
          Content.text.inj (Entry.file.inj (Option.some.inj (hnow.symm.trans hheld)))
        cases (transform_textAfter hverbatim hdone).symm.trans htransform

/-- A line that is right stays right when the next item is handled. -/
theorem Tends.keeps {items more : List (Except Failure Path)} {other : Except Failure Path}
    {file : FileReport} (hmore : items ⊆ more)
    (hbrought : Brought e.toPlan operation start start now (e.DiffAt start) items other file) :
    Brought e.toPlan operation start start after (e.DiffAt start) more other file where
  path := hbrought.path
  target := by
    intro hunfailed
    obtain ⟨path, l, hitem, hl, htarget⟩ := hbrought.target hunfailed
    refine ⟨path, l, hitem, hl, fun hown => ?_⟩
    obtain ⟨content, change, hcontent, htransform, hnow, hsettled, haction⟩ := htarget hown
    refine ⟨content, change, hcontent, htransform,
      Attained.stays hverbatim htends htreats hown htransform hnow, hsettled, ?_⟩
    refine haction.imp_right fun ⟨hunchanged, another, k, hanother, hk⟩ => ?_
    exact ⟨hunchanged, another, k, hmore hanother, hk⟩

/-- The line about the item that has been handled is right. -/
theorem Tends.brings (hreal : e.dryRun = false)
    (hnotes : Walk.Notes start walk walk' item.toOption) {file : FileReport}
    (hpath : file.path = subject item) (hanswer : answer file.action) :
    Brought e.toPlan operation start start after (e.DiffAt start) (handled ++ [item]) item
      file where
  path := hpath
  target := by
    intro hunfailed
    obtain ⟨path, l, content, change, rfl, hl, hheld, htransform, haction, hafter⟩ :=
      htreats.action file.action hanswer hunfailed
    rw [FileSystem.canonical?_of_outline_eq htends.outline] at hl
    refine ⟨path, l, rfl, hl, fun hown => ?_⟩
    obtain hold | ⟨⟨first, done, hfirst, hdone, hnow⟩, other, k, hother, hk, hnames⟩ :=
      htends.files l hown
    · exact ⟨content, change, hold ▸ hheld, htransform, hafter hreal,
        settled_textAfter hverbatim htransform, .inl haction⟩
    · obtain rfl : textAfter first done = content :=
        Content.text.inj (Entry.file.inj (Option.some.inj (hnow.symm.trans hheld)))
      obtain rfl : none = change :=
        Except.ok.inj ((transform_textAfter hverbatim hdone).symm.trans htransform)
      -- No file is met twice by one name.
      have hne : k ≠ l := fun hkl =>
        (hnotes.apart htends.seen _ hother).canonical?_ne hl (hkl ▸ hk)
      exact ⟨first, done, hfirst, hdone, hafter hreal, settled_textAfter hverbatim hdone,
        .inr ⟨haction, other, k, List.mem_append_left _ hother, hk,
          hnames.symm.resolve_left hne⟩⟩

end

/-! ## Whole runs -/

/-- **All lines of a report are right** when the run is over, whatever has failed. -/
theorem run_brings {roots : List Path} {report : Report} (hpure : e.detector.edits = [])
    (hverbatim : e.detector.present = verbatim) (hreal : e.dryRun = false)
    (hopens : e.diff.Opens w.fs) (hholds : e.links.Holds w.fs)
    (hrun : e.run operation roots w = (.ok report, v)) :
    ∃ walk, Walk.start w.fs roots = .ok walk ∧ v.fs.outline = w.fs.outline ∧
      List.Forall₂ (Brought e.toPlan operation w.fs w.fs v.fs (e.DiffAt w.fs)
        (e.items w.fs roots walk)) (e.items w.fs roots walk) report.files := by
  obtain ⟨walk, u, hstart, _, hall, hidle⟩ := run_eq_ok hrun
  obtain ⟨_, hbrought, htends⟩ := e.handleAll_invariant (fun _ => True)
    (fun handled files walk u =>
      List.Forall₂ (Brought e.toPlan operation w.fs w.fs u.fs (e.DiffAt w.fs) handled) handled
        files ∧ Tends e operation w.fs handled walk u.fs)
    (fun hinv => Walk.next_of_outline_eq hinv.2.outline e.filters _)
    (fun _ hinv => hinv)
    (fun {handled _ _ _ u _ item file} events hinv _ hnotes hhandle => by
      obtain ⟨hlines, htends⟩ := hinv
      have hnow : Tends e operation w.fs handled _ (u.tellAll events).fs := htends
      have htreats := handle_treats operation hpure (hopens.congr hnow.outline) hnow.holds item
      rw [hhandle] at htreats
      refine ⟨List.rel_append ?_ (.cons ?_ .nil), hnow.step hverbatim htreats hnotes⟩
      · exact hlines.imp fun _ _ => hnow.keeps hverbatim htreats (List.subset_append_left _ _)
      · exact hnow.brings hverbatim htreats hreal hnotes (path_of_handle hhandle)
          ⟨file, rfl, rfl⟩)
    _ ⟨.nil, Tends.begin operation walk hholds⟩ (fun _ _ => trivial) hall
  rw [List.nil_append] at hbrought htends
  rw [hidle.fs]
  exact ⟨walk, hstart, htends.outline, hbrought⟩

end Engine

end LicenseHeaders

import LicenseHeaders.Proofs.Run
import LicenseHeaders.Proofs.Stepwise

/-!
# A run goes by the disk

What has been told, what has been written by request and how often the detector
has been asked make no difference to a run that nobody interferes with.  Over
the same file system it answers the same and leaves the same file system, also
when it keeps a diff file.

* `handle_agrees` — one item;
* `Plan.run_agrees` — a whole run.
-/

namespace LicenseHeaders

/-- Two results with the same answer and the same file system. -/
structure Agrees {α : Type} (a b : α × World) : Prop where
  answer : a.1 = b.1
  fs : a.2.fs = b.2.fs

/-- Results that agree differ in what the file system does not show, if at all. -/
theorem Agrees.split {α : Type} {a b : α × World} (hagrees : Agrees a b) :
    ∃ answer w v, a = (answer, w) ∧ b = (answer, v) ∧ w.fs = v.fs :=
  ⟨b.1, a.2, b.2, Prod.ext hagrees.answer rfl, rfl, hagrees.fs⟩

/-- The same file system before a diff is put out, the same after it. -/
theorem DiffOutput.put_agrees (d : DiffOutput) (path : Path) (old new : Text) {w v : World}
    (hfs : w.fs = v.fs) : Agrees (d.put path old new w) (d.put path old new v) := by
  unfold put
  split
  · dsimp only
    have htold : ∀ u : World, (if d.shown then u.tellAll (shownLines (Diff.render path old new))
        else u).fs = u.fs := by
      intro u
      split <;> rfl
    split
    · exact ⟨rfl, by rw [htold, htold, hfs]⟩
    · rw [htold, htold, hfs]
      split
      · exact ⟨rfl, rfl⟩
      · exact ⟨rfl, by rw [htold, htold, hfs]⟩
  · exact ⟨rfl, hfs⟩

namespace Engine

open Plan

variable {e : Engine} {w v : World}

/-! ## One item -/

/-- Saving a diff comes to the same from the same files. -/
theorem putDiff_agrees (path : Path) (old new : Text) (hfs : w.fs = v.fs) :
    (e.putDiff path old new w).fs = (e.putDiff path old new v).fs := by
  obtain ⟨answer, a, b, ha, hb, hafter⟩ := (e.diff.put_agrees path old new hfs).split
  rw [putDiff, putDiff, ha, hb]
  cases answer with
  | error failure => exact hafter
  | ok _ => exact congrArg (e.diff.carry e.links) hafter

theorem commit_agrees (operation : Operation) (path : Path) (new : Text) (hfs : w.fs = v.fs) :
    Agrees (e.commit operation path new w) (e.commit operation path new v) := by
  unfold commit
  split
  · exact ⟨rfl, hfs⟩
  · rw [hfs]
    split
    · exact ⟨rfl, hfs⟩
    · exact ⟨rfl, rfl⟩

theorem process_agrees (operation : Operation) (hpure : e.detector.edits = []) (path : Path)
    (hfs : w.fs = v.fs) :
    Agrees (e.process operation path w) (e.process operation path v) := by
  -- Both come to the same of the two cases, because they have the same prospect.
  obtain ⟨answer, hprospect, hunwritten, hanswer, hidle⟩ |
      ⟨content, change, w', hread, hprospect, hidle, hprocess⟩ :=
    process_cases operation hpure path w <;>
  obtain ⟨other, hprospect', hunwritten', hanswer', hidle'⟩ |
      ⟨content', change', v', hread', hprospect', hidle', hprocess'⟩ :=
    process_cases operation hpure path v <;>
  rw [hfs, hprospect'] at hprospect
  · exact ⟨by rw [hanswer, hanswer', hprospect], by rw [hidle.fs, hidle'.fs, hfs]⟩
  · exact absurd hprospect.symm (hunwritten change')
  · exact absurd hprospect (hunwritten' change)
  · rw [hfs, hread'] at hread
    obtain rfl := Except.ok.inj hread
    obtain rfl := Option.some.inj (Except.ok.inj hprospect)
    have hsame : w'.fs = v'.fs := by rw [hidle.fs, hidle'.fs, hfs]
    obtain ⟨answer, a, b, ha, hb, hafter⟩ := (commit_agrees operation path change'.text
      (putDiff_agrees (e := e) path content' change'.text hsame)).split
    rw [hprocess, hprocess', ha, hb]
    cases answer <;> exact ⟨rfl, hafter⟩

theorem record_agrees (path : Path) (failure : Failure) (hfs : w.fs = v.fs) :
    Agrees (e.record path failure w) (e.record path failure v) := by
  obtain ⟨hanswer, hidle⟩ := e.record_reply path failure w
  obtain ⟨hanswer', hidle'⟩ := e.record_reply path failure v
  exact ⟨by rw [hanswer, hanswer'], by rw [hidle.fs, hidle'.fs, hfs]⟩

/-- **An item is handled by the disk.** -/
theorem handle_agrees (operation : Operation) (hpure : e.detector.edits = [])
    (item : Except Failure Path) (hfs : w.fs = v.fs) :
    Agrees (e.handle operation item w) (e.handle operation item v) := by
  unfold handle
  cases item with
  | error failure => exact record_agrees _ failure hfs
  | ok path =>
      obtain ⟨answer, a, b, ha, hb, hafter⟩ := (process_agrees operation hpure path hfs).split
      dsimp only
      rw [ha, hb]
      cases answer with
      | ok action => exact ⟨rfl, hafter⟩
      | error failure => exact record_agrees path failure hafter

/-! ## All items -/

/-- Handling all that a walk meets comes to the same from the same files. -/
theorem handleAll_agrees (operation : Operation) (hpure : e.detector.edits = []) (items : Nat)
    (walk : Walk) (files : List FileReport) (hfs : w.fs = v.fs) :
    Agrees (e.handleAll operation items walk files w)
      (e.handleAll operation items walk files v) := by
  induction items generalizing walk files w v with
  | zero => exact ⟨rfl, hfs⟩
  | succ items ih =>
      rw [handleAll, handleAll, hfs]
      rcases Walk.next e.filters v.fs walk with ⟨item, walk', events⟩
      have hproceed : ∀ item : Except Failure Path, Agrees
          (e.goOn operation items walk' files (e.handle operation item (w.tellAll events)))
          (e.goOn operation items walk' files (e.handle operation item (v.tellAll events))) := by
        intro item
        obtain ⟨answer, a, b, ha, hb, hafter⟩ := (handle_agrees (e := e) (w := w.tellAll events)
          (v := v.tellAll events) operation hpure item hfs).split
        rw [ha, hb]
        cases answer with
        | error failure => exact ⟨rfl, hafter⟩
        | ok file => exact ih walk' (files ++ [file]) hafter
      cases item with
      | done => exact ⟨rfl, hfs⟩
      | failure failure => exact hproceed (.error failure)
      | file path => exact hproceed (.ok path)

/-- **A run depends on the files alone**, not on what has been told or called
before. -/
theorem run_agrees (operation : Operation) (hpure : e.detector.edits = []) (roots : List Path)
    (hfs : w.fs = v.fs) : Agrees (e.run operation roots w) (e.run operation roots v) := by
  by_cases hheaders : operation = .synchronize ∧ e.headers.isEmpty = true
  · rw [run_of_headerless roots w hheaders, run_of_headerless roots v hheaders]
    exact ⟨rfl, hfs⟩
  cases hstart : Walk.start v.fs roots with
  | error failure =>
      rw [run_of_rootless hheaders (hfs ▸ hstart), run_of_rootless hheaders hstart]
      exact ⟨rfl, hfs⟩
  | ok walk =>
      obtain ⟨answer, a, b, ha, hb, hafter⟩ :=
        (handleAll_agrees operation hpure (e.budget v.fs roots) walk [] hfs).split
      rw [run, run, if_neg hheaders, if_neg hheaders, hfs, hstart]
      dsimp only
      rw [ha, hb]
      cases answer <;> exact ⟨rfl, hafter⟩

end Engine

/-- **A run goes by the disk.** -/
theorem Plan.run_agrees {plan : Plan} (operation : Operation) (hpure : plan.detector.edits = [])
    (roots : List Path) {w v : World} (hfs : w.fs = v.fs) :
    Agrees (plan.run operation roots w) (plan.run operation roots v) := by
  cases hengine : plan.engine with
  | error failure =>
      simp only [run, start, hengine]
      exact ⟨rfl, hfs⟩
  | ok e =>
      rw [run_eq hengine, run_eq hengine]
      have hplan := (engine_eq_ok_iff.mp hengine).2
      exact e.run_agrees operation (hplan ▸ hpure) roots hfs

end LicenseHeaders

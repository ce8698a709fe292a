import LicenseHeaders.Proofs.NormalForm
import LicenseHeaders.Proofs.Run
import Mathlib

/-!
# What a run brings about

Synchronizing is to leave every file with the canonical header in it, removing
is to leave it without any header.  A text of that kind is settled.  With the
verbatim test for the canonical header, an operation settles every text
(`settled_textAfter`) and leaves settled texts alone (`transform_of_settled`).

* `run_settles` — after a run every file that did not fail is settled, whatever
  was written after it.
-/

namespace LicenseHeaders

/-- What an operation is to bring about in a text: that it contains the
canonical header, or that no header is left in it. -/
def Settled (operation : Operation) (headers : HeaderSet) (t : Text) : Prop :=
  match operation with
  | .synchronize => ∃ canonical, headers.canonical? = some canonical ∧ canonical <:+: t
  | .remove => HeaderFree headers.texts t

/-- A header that is put in front of a text occurs in the whole. -/
theorem infix_prependHeader (header body : Text) : header <:+: prependHeader header body := by
  have hprefix : header <+: prependHeader header body := by
    rw [prependHeader, List.append_assoc]
    exact List.prefix_append _ _
  exact hprefix.isInfix

namespace Plan

variable {plan : Plan} {operation : Operation}

section

variable (hverbatim : plan.detector.present = verbatim)

include hverbatim

/-- **An operation settles every text.** -/
theorem settled_textAfter {t : Text} {change : Option Change}
    (htransform : plan.transform operation t = .ok change) :
    Settled operation plan.headers (textAfter t change) := by
  unfold transform at htransform
  cases operation with
  | remove =>
      have hchange := Except.ok.inj htransform
      have hafter : textAfter t change = (strip plan.headers.texts t).getD t := by
        rw [← hchange, textAfter, removeChange?, Option.map_map]
        cases strip plan.headers.texts t <;> rfl
      rw [hafter]
      exact headerFree_strip plan.headers.texts t
  | synchronize =>
      dsimp only at htransform
      cases hcanonical : plan.headers.canonical? with
      | none =>
          rw [hcanonical] at htransform
          cases htransform
      | some canonical =>
          rw [hcanonical, hverbatim] at htransform
          have hchange := Except.ok.inj htransform
          refine ⟨canonical, hcanonical, ?_⟩
          rw [← hchange, synchronizeChange?]
          by_cases hpresent : verbatim canonical t = true
          · rw [if_pos hpresent]
            exact Text.occursIn_iff.mp hpresent
          · rw [if_neg hpresent]
            exact infix_prependHeader canonical _

/-- **A settled text is left alone.** -/
theorem transform_of_settled {t : Text} (hsettled : Settled operation plan.headers t) :
    plan.transform operation t = .ok none := by
  unfold transform
  cases operation with
  | remove =>
      have hstrip : strip plan.headers.texts t = none := strip_eq_none_iff.mpr hsettled
      simp only [removeChange?, hstrip, Option.map_none]
  | synchronize =>
      obtain ⟨canonical, hcanonical, hinfix⟩ := hsettled
      have hpresent : verbatim canonical t = true := Text.occursIn_iff.mpr hinfix
      simp only [hcanonical, hverbatim, synchronizeChange?, hpresent, if_true]

/-- An operation has nothing to do on its own result. -/
theorem transform_textAfter {t : Text} {change : Option Change}
    (htransform : plan.transform operation t = .ok change) :
    plan.transform operation (textAfter t change) = .ok none :=
  transform_of_settled hverbatim (settled_textAfter hverbatim htransform)

end

/-- An entry that has not failed is that of a file with an outcome. -/
theorem outcome_of_entry {fs : FileSystem} {item : Except Failure Path}
    (hentry : (plan.entry operation fs item).action ≠ .failed) :
    ∃ path change, item = .ok path ∧ plan.outcome operation fs path = .ok change ∧
      plan.entry operation fs item = ⟨path, actionOf change, none⟩ := by
  cases item with
  | error failure => exact absurd rfl hentry
  | ok path =>
      cases houtcome : plan.outcome operation fs path with
      | error failure => exact absurd (congrArg FileReport.action (entry_of_error houtcome)) hentry
      | ok change => exact ⟨path, change, rfl, houtcome, entry_of_ok houtcome⟩

end Plan

/-- **What a run brings about lasts to its end.**  When a run returns a report,
every file of the report that has not failed contains, in the file system as
the run leaves it, the canonical header after synchronizing, and no header
after removing. -/
theorem run_settles {plan : Plan} {operation : Operation} {roots : List Path} {w w' : World}
    {report : Report} (hplain : plan.Plain) (hverbatim : plan.detector.present = verbatim)
    (hrun : plan.run operation roots w = (.ok report, w')) :
    ∀ file ∈ report.files, file.action ≠ .failed →
      ∃ content, w'.fs.readText file.path = .ok content ∧
        Settled operation plan.headers content := by
  obtain ⟨e, walk, calls, _, rfl, hdone, _⟩ := Plan.run_completed hplain hrun
  intro file hfile haction
  rw [hdone.files] at hfile
  obtain ⟨item, hitem, rfl⟩ := List.mem_map.mp hfile
  obtain ⟨path, change, rfl, houtcome, hentry⟩ := Plan.outcome_of_entry haction
  obtain ⟨content, _, htransform, hafter⟩ := hdone.readText_of_outcome hitem houtcome
  rw [hentry]
  exact ⟨_, hafter, Plan.settled_textAfter hverbatim htransform⟩

/-! ## A small run -/

namespace Sample

/-- A directory with one text and a link to it. -/
def tree : FileSystem where
  entries := [([['w']], .directory),
    ([['w'], ['a']], .file (.text ['(', '(', ')', ')', 'x'])),
    ([['w'], ['b']], .link ⟨['a']⟩)]
  distinct := by decide
  current := []
  denied := []

/-- A pair of brackets is to be removed; one pair can be around another. -/
def plan : Plan where
  headers := ⟨[['(', ')']]⟩
  criteria := { pattern := ['*'] }

/-- The directory, by two of its paths. -/
def roots : List Path := [⟨['w']⟩, ⟨['/', 'w']⟩]

def run : Except Failure Report × World := plan.run .remove roots { fs := tree }

def report : Report where
  operation := .remove
  dryRun := false
  files := [⟨⟨['w', '/', 'a']⟩, .stripped, none⟩]

/-- The text is handled once, although four paths lead to it. -/
theorem run_report : run.1 = .ok report := by cbv

theorem plain : plan.Plain := ⟨rfl, rfl, rfl, rfl⟩

end Sample

/-- The files of the sample are settled after its run. -/
theorem run_settles_sample :
    Sample.plan.Plain ∧ Sample.plan.detector.present = verbatim ∧
      Sample.plan.run .remove Sample.roots { fs := Sample.tree } =
        (.ok Sample.report, Sample.run.2) ∧
      ∃ content, Sample.run.2.fs.readText ⟨['w', '/', 'a']⟩ = .ok content ∧
        Settled .remove Sample.plan.headers content := by
  have hrun : Sample.plan.run .remove Sample.roots { fs := Sample.tree } =
      (.ok Sample.report, Sample.run.2) := Prod.ext Sample.run_report rfl
  refine ⟨Sample.plain, rfl, hrun, ?_⟩
  exact run_settles Sample.plain rfl hrun _ List.mem_cons_self Action.noConfusion

end LicenseHeaders

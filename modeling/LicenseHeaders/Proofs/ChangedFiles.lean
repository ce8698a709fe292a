import LicenseHeaders.Proofs.PathOrder
import LicenseHeaders.Proofs.RelativePaths

/-!
# The list of changed files

After a run the files that changed are listed in the order of their paths.  The order is
that of the path components, which may differ from that of the texts, and entries with the
same components stay in the order of the report, so it is settled which list this is.
Quiet and verbose output show all of it; other output is cut after twenty files, and then
counts the files that it leaves out.

* `filter_mergeSort` — sorting is stable;
* `Display.Ordered`, `Display.ordered_iff` — files in order, and that sorting leads there;
* `Display.Tells`, `Display.tells_iff` — what is to be printed about files in order;
* `Display.changedLines_tell_all` — the list of changed files loses and invents nothing.
-/

namespace LicenseHeaders

/-- **Sorting is stable**: those that may stand in any order stay in the order they had. -/
theorem filter_mergeSort {α : Type} {le : α → α → Bool} {alike : α → Bool}
    (htrans : ∀ a b c, le a b = true → le b c = true → le a c = true)
    (htotal : ∀ a b, (le a b || le b a) = true)
    (halike : ∀ a b, alike a = true → alike b = true → le a b = true) (l : List α) :
    (l.mergeSort le).filter alike = l.filter alike := by
  have hsorted : (l.filter alike).Pairwise fun a b => le a b = true :=
    List.pairwise_of_forall_mem_list fun a ha b hb =>
      halike a b (List.mem_filter.mp ha).2 (List.mem_filter.mp hb).2
  have hsublist := (List.sublist_mergeSort htrans htotal hsorted List.filter_sublist).filter alike
  simp only [List.filter_filter, Bool.and_self] at hsublist
  exact (hsublist.eq_of_length ((List.mergeSort_perm l le).filter alike).length_eq.symm).symm

namespace Display

/-! ## Files in order -/

/-- **Files in order**: those of the entries, none behind one that it comes before, and those
with the same path as the entries have them. -/
structure Ordered (files entries : List FileReport) : Prop where
  perm : files.Perm entries
  ordered : files.Pairwise fun a b => ¬ b.path.Below a.path
  steady : ∀ components : List Path.Component,
    files.filter (fun file => file.path.components = components) =
      entries.filter fun file => file.path.components = components

variable {files entries : List FileReport}

/-- Sorting puts the changed files in order and leaves none out. -/
theorem ordered_sortedChanges (r : Report) : Ordered (sortedChanges r) r.changed where
  perm := List.mergeSort_perm _ _
  ordered := (List.pairwise_mergeSort (fun a b c => Path.notAfter_trans a.path b.path c.path)
    (fun a b => Path.notAfter_total a.path b.path) r.changed).imp Path.notAfter_iff.mp
  steady := fun components => by
    refine filter_mergeSort (fun a b c => Path.notAfter_trans a.path b.path c.path)
      (fun a b => Path.notAfter_total a.path b.path) (fun a b ha hb => ?_) r.changed
    rw [decide_eq_true_iff] at ha hb
    rw [Path.notAfter_iff_not_lt, ha, hb]
    exact lt_irrefl _

/-- Entries that are in order already are their own order. -/
theorem Ordered.eq_of_pairwise (hordered : Ordered files entries)
    (hentries : entries.Pairwise fun a b => ¬ b.path.Below a.path) : files = entries := by
  induction files generalizing entries with
  | nil => exact (List.nil_perm.mp hordered.perm).symm
  | cons a files ih =>
      cases entries with
      | nil => cases List.perm_nil.mp hordered.perm
      | cons b entries =>
          obtain ⟨hfirst, hfiles⟩ := List.pairwise_cons.mp hordered.ordered
          obtain ⟨hhead, hbehind⟩ := List.pairwise_cons.mp hentries
          -- Each head is in the other list, so neither of them comes first.
          have hba : ¬ b.path.Below a.path := by
            rcases List.mem_cons.mp (hordered.perm.mem_iff.mpr List.mem_cons_self) with rfl | hb
            · exact fun hbelow => hbelow.ne rfl
            · exact hfirst b hb
          have hab : ¬ a.path.Below b.path := by
            rcases List.mem_cons.mp (hordered.perm.mem_iff.mp List.mem_cons_self) with rfl | ha
            · exact fun hbelow => hbelow.ne rfl
            · exact hhead a ha
          have hcomponents := Path.components_eq_of_not_below hab hba
          have hheads := hordered.steady b.path.components
          rw [List.filter_cons_of_pos (by simpa using hcomponents),
            List.filter_cons_of_pos (by simp)] at hheads
          obtain rfl : a = b := (List.cons.inj hheads).1
          rw [ih ⟨hordered.perm.cons_inv, hfiles, fun components => ?_⟩ hbehind]
          have hsteady := hordered.steady components
          rw [List.filter_cons, List.filter_cons] at hsteady
          split at hsteady
          · exact (List.cons.inj hsteady).2
          · exact hsteady

/-- **Sorting is what puts the changed files in order.** -/
theorem ordered_iff {r : Report} : Ordered files r.changed ↔ files = sortedChanges r := by
  have hsorted := ordered_sortedChanges r
  constructor
  · intro hfiles
    refine Ordered.eq_of_pairwise ⟨hfiles.perm.trans hsorted.perm.symm, hfiles.ordered, ?_⟩
      hsorted.ordered
    exact fun components => (hfiles.steady components).trans (hsorted.steady components).symm
  · rintro rfl
    exact hsorted

/-! ## What is printed about them -/

/-- The line with the number of changed files. -/
def countLine (d : Display) (dryRun : Bool) (count : Nat) : String :=
  let verb := if dryRun then "Would change" else "Changed"
  s!"{paint d.colours .green success} {verb} license header in {count} {plural count}:"

/-- The line with the number of files that are left out. -/
def restLine (d : Display) (count : Nat) : String :=
  let space := paint d.colours .dimmed ""
  s!"  {space} ... and {count} more (use -v to see all)"

/-- The line of a path, with the mark of a replaced header or without it. -/
def pathLine (d : Display) (base : Option Path) (path : Path) (replaced : Bool) : String :=
  let line := s!"  {shownPath base path}"
  if replaced then s!"{line} {paint d.colours .yellow updated}" else line

/-- The line of a file has the mark if its header was replaced. -/
def fileLine (d : Display) (base : Option Path) (file : FileReport) : String :=
  d.pathLine base file.path (file.action = .replaced)

/-- **What is to be printed** about changed files in order. -/
inductive Tells (d : Display) (base : Option Path) (dryRun : Bool) (files : List FileReport) :
    Printed → Prop
  | nothing (hnone : files = []) : Tells d base dryRun files []
  | quiet (hsome : files ≠ []) (hmode : d.mode = .quiet) :
      Tells d base dryRun files (files.map fun file => (.out, shownPath base file.path))
  | verbose (hsome : files ≠ []) (hmode : d.mode = .verbose) :
      Tells d base dryRun files ((.out, d.countLine dryRun files.length) ::
        files.map fun file => (.out, d.fileLine base file))
  | whole (hsome : files ≠ []) (hmode : d.mode = .normal) (hfew : files.length ≤ 20) :
      Tells d base dryRun files ((.out, d.countLine dryRun files.length) ::
        files.map fun file => (.out, d.fileLine base file))
  | cut {listed rest : List FileReport} (hmode : d.mode = .normal) (hfiles : files = listed ++ rest)
      (hlisted : listed.length = 20) (hmany : 20 < files.length) :
      Tells d base dryRun files ((.out, d.countLine dryRun files.length) ::
        (listed.map fun file => (.out, d.fileLine base file)) ++ [(.out, d.restLine rest.length)])

/-- The mark can be told from its absence. -/
theorem pathLine_replaced_ne (d : Display) (base : Option Path) (p : Path) :
    d.pathLine base p true ≠ d.pathLine base p false := by
  intro hsame
  have hmarked : d.pathLine base p true =
      d.pathLine base p false ++ " " ++ paint d.colours .yellow updated := rfl
  have hlengths := congrArg String.length (hmarked.symm.trans hsame)
  have hspace : " ".length = 1 := rfl
  rw [String.length_append, String.length_append, hspace] at hlengths
  omega

/-- A changed file has the line that any file of a report has. -/
theorem changedLine_eq (d : Display) (base : Option Path) (file : FileReport) :
    d.changedLine base file = d.fileLine base file := by
  unfold changedLine fileLine pathLine
  by_cases hreplaced : file.action = .replaced
  · rw [if_pos hreplaced, if_pos (decide_eq_true hreplaced)]
    rfl
  · rw [if_neg hreplaced, if_neg (by simpa using hreplaced)]

theorem flatMap_say (files : List FileReport) (line : FileReport → String) :
    (files.flatMap fun file => say (line file)) = files.map fun file => (.out, line file) :=
  List.flatMap_pure_eq_map _ _

/-- What all output but quiet output tells, with its limit. -/
theorem changedLines_eq {d : Display} {r : Report} (hsome : sortedChanges r ≠ [])
    (hmode : d.mode ≠ .quiet) (base : Option Path) :
    let files := sortedChanges r
    let limit := if d.isVerbose then files.length else 20
    d.changedLines base r = (.out, d.countLine r.dryRun files.length) ::
      ((files.take limit).map fun file => (.out, d.fileLine base file)) ++
        if limit < files.length then [(.out, d.restLine (files.length - limit))] else [] := by
  intro files limit
  have hcount : (sortedChanges r).length ≠ 0 := fun h => hsome (List.length_eq_zero_iff.mp h)
  have hloud : ¬ d.isQuiet = true := by simpa [isQuiet] using hmode
  unfold changedLines
  rw [if_neg hcount, if_neg hloud]
  simp only [flatMap_say, changedLine_eq]
  rfl

/-- **What is printed** about the sorted files is what is to be printed about them. -/
theorem tells_changedLines (d : Display) (base : Option Path) (r : Report) :
    Tells d base r.dryRun (sortedChanges r) (d.changedLines base r) := by
  by_cases hnone : sortedChanges r = []
  · have hlines : d.changedLines base r = [] := by simp [changedLines, hnone]
    rw [hlines]
    exact .nothing hnone
  cases hmode : d.mode with
  | quiet =>
      have hlines : d.changedLines base r =
          (sortedChanges r).map fun file => (.out, shownPath base file.path) := by
        simp [changedLines, isQuiet, hnone, hmode, flatMap_say]
      rw [hlines]
      exact .quiet hnone hmode
  | verbose =>
      have hverbose : d.isVerbose = true := decide_eq_true hmode
      rw [changedLines_eq hnone (by simp [hmode])]
      simp only [if_pos hverbose, List.take_length, lt_irrefl, if_false, List.append_nil]
      exact .verbose hnone hmode
  | normal =>
      have hverbose : ¬ d.isVerbose = true := by simp [isVerbose, hmode]
      rw [changedLines_eq hnone (by simp [hmode])]
      simp only [if_neg hverbose]
      by_cases hfew : (sortedChanges r).length ≤ 20
      · rw [if_neg (by omega), List.take_of_length_le hfew, List.append_nil]
        exact .whole hnone hmode hfew
      · rw [if_pos (by omega), ← List.length_drop]
        have hlisted : ((sortedChanges r).take 20).length = 20 :=
          List.length_take_of_le (by omega)
        exact .cut hmode (List.take_append_drop 20 _).symm hlisted (not_le.mp hfew)

/-- It is settled what is to be printed. -/
theorem Tells.unique {d : Display} {base : Option Path} {dryRun : Bool} {printed others : Printed}
    (hprinted : Tells d base dryRun files printed) (hothers : Tells d base dryRun files others) :
    printed = others := by
  cases hprinted with
  | nothing hnone => cases hothers <;> grind
  | quiet hsome hmode => cases hothers <;> grind
  | verbose hsome hmode => cases hothers <;> grind
  | whole hsome hmode hfew => cases hothers <;> grind
  | cut hmode hfiles hlisted hmany =>
      cases hothers with
      | cut _ hsame hlength _ =>
          obtain ⟨rfl, rfl⟩ := List.append_inj (hfiles.symm.trans hsame)
            (hlisted.trans hlength.symm)
          rfl
      | nothing | quiet | verbose | whole => grind

/-- **What is printed** is what is to be told about the changed files in their
order. -/
theorem tells_iff {d : Display} {base : Option Path} {r : Report} {printed : Printed} :
    d.changedLines base r = printed ↔
      ∃ files, Ordered files r.changed ∧ Tells d base r.dryRun files printed := by
  constructor
  · rintro rfl
    exact ⟨_, ordered_sortedChanges r, tells_changedLines d base r⟩
  · rintro ⟨files, hfiles, hprinted⟩
    obtain rfl := ordered_iff.mp hfiles
    exact (tells_changedLines d base r).unique hprinted

/-- **The list of changed files loses and invents nothing.**  What is printed is what is to be
printed about the changed files in their order, all of them or the first twenty and the number
of the others; a file whose header was replaced has a mark that tells it from the others; and a
path is shown as what it has behind the base directory, or in full where that does not lead
to it. -/
theorem changedLines_tell_all (d : Display) (base : Option Path) (r : Report) :
    (∀ printed, d.changedLines base r = printed ↔
        ∃ files, Ordered files r.changed ∧ Tells d base r.dryRun files printed) ∧
      (∀ p, d.pathLine base p true ≠ d.pathLine base p false) ∧
      ∀ p, ∃ shown, Shown base p shown ∧ shownPath base p = shown.display :=
  ⟨fun _ => tells_iff, pathLine_replaced_ne d base, shown_shownPath base⟩

/-- Components decide the order, so `a/b` comes before `a-b`. -/
example :
    changedLines {} (some ⟨['r']⟩)
        ⟨.synchronize, true, [⟨⟨"r/a-b".toList⟩, .inserted, none⟩,
          ⟨⟨"r/c".toList⟩, .unchanged, none⟩, ⟨⟨"r/a/b".toList⟩, .replaced, none⟩], {}⟩ =
      [(.out, "✓ Would change license header in 2 files:"), (.out, "  a/b ↻"),
        (.out, "  a-b")] := by
  cbv

end Display

end LicenseHeaders

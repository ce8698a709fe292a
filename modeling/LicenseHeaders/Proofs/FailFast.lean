import LicenseHeaders.Proofs.Pointwise
import LicenseHeaders.Proofs.Stepwise

/-!
# A run that stops is a run that keeps going, cut short

A run that keeps going answers every item with a line of its report.  A run that
stops at failures goes the same way as long as nothing fails.  At the first
failure it leaves the file system as the other one had it before that item, and
tells what it has changed until then.

Files can have further names here, and are changed under all of them.  What is
wrong with a file is wrong from the beginning all the same, because a file that
can be changed by one name can be changed by the others.

* `Plan.Fails` — what can be wrong with an item;
* `Engine.Underway` — what is kept on the way;
* `Engine.Halts` — one run goes the way of the other and stops;
* `Interrupted` — what a run leaves behind that stops;
* `fail_fast_prefix` — the two runs side by side.
-/

namespace LicenseHeaders

namespace Plan

/-- The same plan for a run that keeps going. -/
def lenient (plan : Plan) : Plan := { plan with keepGoing := true }

/-- The same plan for a run that stops at the first failure. -/
def strict (plan : Plan) : Plan := { plan with keepGoing := false }

/-- What can be wrong with an item: the walk could not get on, or the file could
not be read, or its new content could not be written. -/
inductive Fails (plan : Plan) (operation : Operation) (fs : FileSystem) :
    Except Failure Path → Failure → Prop where
  | walking (failure : Failure) : Fails plan operation fs (.error failure) failure
  | reading {path : Path} {cause : Cause} (hread : fs.readText path = .error cause) :
      Fails plan operation fs (.ok path) (.file .read path cause)
  | writing {path : Path} {content : Text} {new : Change} {cause : Cause}
      (hreal : plan.dryRun = false) (hread : fs.readText path = .ok content)
      (htransform : plan.transform operation content = .ok (some new))
      (hwrite : fs.writeText path new.text = .error cause) :
      Fails plan operation fs (.ok path) (.file .write path cause)

/-- A line of the report accounts for an item: it is about the path of the item,
and says that it failed, and why, exactly if something was wrong. -/
structure Accounts (plan : Plan) (operation : Operation) (fs : FileSystem)
    (item : Except Failure Path) (file : FileReport) : Prop where
  path : file.path = subject item
  loses : ∀ failure, plan.Fails operation fs item failure →
    file.action = .failed ∧ file.error = some failure.message.toList
  invents : file.action = .failed → ∃ failure, plan.Fails operation fs item failure

variable {plan : Plan} {operation : Operation} {fs gs : FileSystem}

theorem Quiet.lenient (hquiet : plan.Quiet) : plan.lenient.Quiet :=
  ⟨hquiet.undisturbed, hquiet.unsaved⟩

theorem Quiet.strict (hquiet : plan.Quiet) : plan.strict.Quiet :=
  ⟨hquiet.undisturbed, hquiet.unsaved⟩

/-- **The verdict on an item is a failure exactly if something is wrong with
it.** -/
theorem verdict_eq_error_iff
    (hheaders : ¬ (operation = .synchronize ∧ plan.headers.isEmpty = true))
    {item : Except Failure Path} {failure : Failure} :
    plan.verdict operation fs item = .error failure ↔ plan.Fails operation fs item failure := by
  constructor
  · intro hverdict
    cases item with
    | error other =>
        cases hverdict
        exact .walking failure
    | ok path =>
        rw [verdict] at hverdict
        split at hverdict
        · rw [prospect] at hverdict
          split at hverdict
          · next cause hread =>
            cases hverdict
            exact .reading hread
          · next content hread =>
            obtain ⟨change, htransform⟩ := transform_total hheaders content
            cases htransform.symm.trans hverdict
        · next hreal =>
          rw [outcome] at hverdict
          split at hverdict
          · next cause hread =>
            cases hverdict
            exact .reading hread
          · next content hread =>
            obtain ⟨change, htransform⟩ := transform_total hheaders content
            rw [htransform] at hverdict
            cases change with
            | none => cases hverdict
            | some new =>
                dsimp only at hverdict
                split at hverdict
                · next cause hwrite =>
                  cases hverdict
                  exact .writing (Bool.eq_false_iff.mpr hreal) hread htransform hwrite
                · cases hverdict
  · intro hfails
    cases hfails with
    | walking => rfl
    | reading hread => simp only [verdict, prospect, outcome, hread, ite_self]
    | writing hreal hread htransform hwrite =>
        simp only [verdict, hreal, Bool.false_eq_true, if_false, outcome, hread, htransform, hwrite]

/-- The line about an item accounts for it. -/
theorem accounts_line (hheaders : ¬ (operation = .synchronize ∧ plan.headers.isEmpty = true))
    (item : Except Failure Path) :
    plan.Accounts operation fs item (plan.line operation fs item) where
  path := path_line plan operation fs item
  loses := fun failure hfails => by
    rw [line_of_error ((verdict_eq_error_iff hheaders).mpr hfails)]
    exact ⟨rfl, rfl⟩
  invents := fun hfailed => by
    obtain ⟨failure, hverdict, _⟩ := line_failed_iff.mp hfailed
    exact ⟨failure, (verdict_eq_error_iff hheaders).mp hverdict⟩

/-- A request to write is for the file of an item. -/
theorem path_of_requested {items : List (Except Failure Path)} {call : WriteCall}
    (hcall : call ∈ plan.requested operation fs items) : .ok call.path ∈ items := by
  unfold requested at hcall
  split at hcall
  · cases hcall
  · obtain ⟨item, hitem, hcall⟩ := List.mem_filterMap.mp hcall
    cases item with
    | error failure => cases hcall
    | ok path =>
        rw [writeCall?] at hcall
        split at hcall
        · cases hcall
          exact hitem
        · cases hcall
          exact hitem
        · cases hcall

/-- Nothing is wrong with a file that can be read and changed. -/
theorem not_fails_of_workable {path : Path} {l : Location} {failure : Failure}
    (hl : fs.canonical? path = some l) (hworkable : fs.Workable l) :
    ¬ plan.Fails operation fs (.ok path) failure := by
  obtain ⟨t, ht⟩ := hworkable.text
  obtain ⟨entry, hlookup⟩ := FileSystem.lookup_of_canonical? hl
  obtain rfl : .file (.text t) = entry :=
    Option.some.inj (ht.symm.trans (FileSystem.lookup_eq_ok_iff.mp hlookup).2)
  intro hfails
  cases hfails with
  | reading hread =>
      have htext := FileSystem.readText_eq_ok_iff.mpr ⟨l, hlookup, hworkable.readable⟩
      cases hread.symm.trans htext
  | @writing _ _ new _ hreal hread htransform hwrite =>
      have hwritten := FileSystem.writeText_of_lookup new.text hlookup
      rw [if_pos hworkable.writable] at hwritten
      cases hwrite.symm.trans hwritten

/-- **What is wrong with an item was wrong from the beginning**, and stays so. -/
theorem fails_congr (hheaders : ¬ (operation = .synchronize ∧ plan.headers.isEmpty = true))
    (hworked : fs.Worked gs) (item : Except Failure Path) (failure : Failure) :
    plan.Fails operation gs item failure ↔ plan.Fails operation fs item failure := by
  by_cases hunaware : Unaware fs gs item
  · rw [← verdict_eq_error_iff hheaders, ← verdict_eq_error_iff hheaders,
      verdict_congr plan operation hworked.outline hunaware]
  · -- A file that has changed can be worked on before and after.
    simp only [Unaware, not_forall] at hunaware
    obtain ⟨path, rfl, l, hl, hchanged⟩ := hunaware
    obtain ⟨hbefore, hafter⟩ := (hworked.files l).resolve_left hchanged
    have hl' := (FileSystem.canonical?_of_outline_eq hworked.outline path).trans hl
    exact iff_of_false (not_fails_of_workable hl' hafter) (not_fails_of_workable hl hbefore)

/-- A run that keeps going does not see to it that nothing is wrong. -/
theorem fails_lenient (hheaders : ¬ (operation = .synchronize ∧ plan.headers.isEmpty = true))
    (item : Except Failure Path) (failure : Failure) :
    plan.lenient.Fails operation fs item failure ↔ plan.Fails operation fs item failure := by
  have hlenient := @verdict_eq_error_iff plan.lenient operation fs hheaders item failure
  rw [← hlenient, ← verdict_eq_error_iff hheaders]
  exact Iff.rfl

/-- What accounts for an item as it is now accounts for it as it was, if the same was
wrong with it. -/
theorem Accounts.congr {other : Plan} {item : Except Failure Path} {file : FileReport}
    (hfails : ∀ failure,
      other.Fails operation gs item failure ↔ plan.Fails operation fs item failure)
    (haccounts : other.Accounts operation gs item file) : plan.Accounts operation fs item file where
  path := haccounts.path
  loses := fun failure hfailure => haccounts.loses failure ((hfails failure).mpr hfailure)
  invents := fun hfailed => by
    obtain ⟨failure, hfailure⟩ := haccounts.invents hfailed
    exact ⟨failure, (hfails failure).mp hfailure⟩

/-- An item gives no file a content, or one that can be worked on. -/
theorem given_singleton (plan : Plan) (operation : Operation) (fs : FileSystem)
    (item : Except Failure Path) :
    plan.given operation fs [item] = [] ∨ ∃ path row, item = .ok path ∧
      fs.canonical? path = some row.1 ∧ fs.Workable row.1 ∧
      plan.given operation fs [item] = [row] := by
  by_cases hdry : plan.dryRun = true
  · exact .inl (if_pos hdry)
  rw [given_of_real (Bool.eq_false_iff.mpr hdry), newContents]
  cases hnew : plan.newContent? operation fs item with
  | none => exact .inl (by simp [hnew])
  | some row =>
      cases item with
      | error failure => cases hnew
      | ok path =>
          obtain ⟨change, houtcome, hl, _⟩ := newContent?_eq_some hnew
          obtain ⟨l, content, hlookup, hreadable, _, hwrite⟩ := outcome_eq_some houtcome
          obtain rfl : row.1 = l :=
            Option.some.inj (hl.symm.trans (FileSystem.canonical?_of_lookup hlookup))
          have hwritable : fs.grants .writing row.1 = true := by
            rw [FileSystem.writeText_of_lookup _ hlookup] at hwrite
            by_contra hdenied
            rw [if_neg hdenied] at hwrite
            cases hwrite
          exact .inr ⟨path, row, rfl, hl,
            ⟨⟨content, (FileSystem.lookup_eq_ok_iff.mp hlookup).2⟩, hreadable, hwritable⟩,
            by simp [hnew]⟩

end Plan

namespace Engine

open Plan

variable {e : Engine} {plan : Plan} {filters : List NameFilter} {operation : Operation}
  {before w u : World} {walk : Walk} {items : Nat} {files more : List FileReport}

/-! ## On the way -/

/-- Handling an item can be seen by no walk. -/
theorem Deed.outline {item : Except Failure Path} (hdeed : Deed e operation item w u) :
    u.fs.outline = w.fs.outline := by
  rw [hdeed.fs]
  obtain hnone | ⟨_, row, _, _, hworkable, hrow⟩ := given_singleton e.toPlan operation w.fs item
  · rw [hnone, HardLinks.rewrite_nil]
  · obtain ⟨t, ht⟩ := hworkable.text
    rw [hrow, HardLinks.rewrite_singleton, e.links.outline_write ht]

/-- **The invariant of a run that nothing interferes with.**  What has changed could
be worked on, the names of a file agree, and only the items that have been handled
have had anything changed or requested. -/
structure Underway (e : Engine) (operation : Operation) (before : World)
    (handled : List (Except Failure Path)) (w : World) : Prop where
  worked : before.fs.Worked w.fs
  holds : e.links.Holds w.fs
  changed : ∀ l, w.fs.find? l ≠ before.fs.find? l → ∃ path k, .ok path ∈ handled ∧
    before.fs.canonical? path = some k ∧ e.links.Names k l
  requests : ∃ calls, w.writes = before.writes ++ calls ∧
    ∀ call ∈ calls, .ok call.path ∈ handled

/-- At its start a run has handled nothing and changed nothing. -/
theorem Underway.begin (operation : Operation) (hholds : e.links.Holds w.fs) :
    Underway e operation w [] w where
  worked := .refl w.fs
  holds := hholds
  changed := fun _ hchanged => absurd rfl hchanged
  requests := ⟨[], (List.append_nil _).symm, fun _ hcall => by cases hcall⟩

/-- **One step of a run.**  Whatever the answer to an item is, the invariant is kept. -/
theorem Underway.handle {handled : List (Except Failure Path)} (hquiet : e.toPlan.Quiet)
    (hunderway : Underway e operation before handled w) (item : Except Failure Path)
    (events : List Event) :
    Underway e operation before (handled ++ [item])
      (e.handle operation item (w.tellAll events)).2 := by
  obtain ⟨_, hfs, hwrites⟩ := handle_reply operation hquiet item (w.tellAll events)
  generalize (e.handle operation item (w.tellAll events)).2 = after at hfs hwrites ⊢
  rw [World.tellAll_fs] at hfs hwrites
  have hrequests : ∃ calls, after.writes = before.writes ++ calls ∧
      ∀ call ∈ calls, .ok call.path ∈ handled ++ [item] := by
    obtain ⟨calls, hcalls, hpaths⟩ := hunderway.requests
    refine ⟨calls ++ e.requested operation w.fs [item], ?_, fun call hcall => ?_⟩
    · rw [hwrites, World.tellAll_writes, hcalls, List.append_assoc]
    · rcases List.mem_append.mp hcall with hcall | hcall
      · exact List.mem_append_left _ (hpaths call hcall)
      · exact List.mem_append_right _ (path_of_requested hcall)
  obtain hnone | ⟨path, row, rfl, hl, hworkable, hrow⟩ :=
    given_singleton e.toPlan operation w.fs item
  · rw [hnone, HardLinks.rewrite_nil] at hfs
    refine ⟨hfs ▸ hunderway.worked, hfs ▸ hunderway.holds, fun l hchanged => ?_, hrequests⟩
    obtain ⟨path, k, hpath, hk⟩ := hunderway.changed l (hfs ▸ hchanged)
    exact ⟨path, k, List.mem_append_left _ hpath, hk⟩
  · rw [hrow, HardLinks.rewrite_singleton] at hfs
    obtain ⟨t, ht⟩ := hworkable.text
    have hworked : w.fs.Worked (e.links.write w.fs row.1 (.text row.2)) :=
      hworkable.worked_write hunderway.holds row.2
    refine ⟨hfs ▸ hunderway.worked.trans hworked, hfs ▸ hunderway.holds.write ht,
      fun l hchanged => ?_, hrequests⟩
    rw [hfs] at hchanged
    by_cases hnames : e.links.Names row.1 l
    · refine ⟨path, row.1, by simp, ?_, hnames⟩
      rw [← FileSystem.canonical?_of_outline_eq hunderway.worked.outline, hl]
    · rw [HardLinks.find?_write_of_not_names hnames] at hchanged
      obtain ⟨other, k, hother, hk⟩ := hunderway.changed l hchanged
      exact ⟨other, k, List.mem_append_left _ hother, hk⟩

/-- **A run that answers all its items** has lines that account for them as they were
at the beginning. -/
theorem handleAll_underway (hquiet : e.toPlan.Quiet) (hholds : e.links.Holds w.fs)
    (hheaders : ¬ (operation = .synchronize ∧ e.headers.isEmpty = true))
    (hrun : e.handleAll operation items walk [] w = (.ok files, u)) :
    Underway e operation w (Walk.survey e.filters w.fs items walk) u ∧
      List.Forall₂ (e.Accounts operation w.fs) (Walk.survey e.filters w.fs items walk) files := by
  have hthrough := e.handleAll_invariant (fun _ => True)
    (fun handled files _ v =>
      List.Forall₂ (e.Accounts operation w.fs) handled files ∧ Underway e operation w handled v)
    (fun hinv => Walk.next_of_outline_eq hinv.2.worked.outline e.filters _)
    (fun _ hinv => ⟨hinv.1, hinv.2.worked, hinv.2.holds, hinv.2.changed, hinv.2.requests⟩)
    (fun {_ _ _ _ v _ item file} events hinv _ _ hhandle => by
      have hafter := hinv.2.handle hquiet item events
      obtain ⟨hanswer, _⟩ := handle_reply operation hquiet item (v.tellAll events)
      rw [hhandle] at hafter hanswer
      obtain rfl := eq_line_of_reply hanswer.symm
      have haccounts := Accounts.congr (fails_congr hheaders hinv.2.worked item)
        (accounts_line hheaders item)
      exact ⟨List.rel_append hinv.1 (.cons haccounts .nil), hafter⟩)
    items ⟨.nil, Underway.begin operation hholds⟩ (fun _ _ => trivial) hrun
  rw [List.nil_append] at hthrough
  obtain ⟨_, haccounts, hunderway⟩ := hthrough
  exact ⟨hunderway, haccounts⟩

/-! ## Side by side -/

/-- **A run that stops at the item `k`**, which fails, beside one that keeps going and
is at `halfway` before that item. -/
structure Halts (plan : Plan) (filters : List NameFilter) (operation : Operation)
    (start : FileSystem) (items : Nat) (walk : Walk) (files more : List FileReport) (w : World)
    (k : Nat) (item : Except Failure Path) (failure : Failure) (halfway after : World) :
    Prop where
  meets : (Walk.survey filters start items walk)[k]? = some item
  keeps : ({ plan.lenient with filters } : Engine).handleAll operation k walk files w =
    (.ok (files ++ more.take k), halfway)
  verdict : plan.verdict operation halfway.fs item = .error failure
  stops : ({ plan.strict with filters } : Engine).handleAll operation items walk files w =
    (.error failure, after)
  fs : after.fs = halfway.fs
  writes : after.writes = halfway.writes ++ plan.requested operation halfway.fs [item]
  events : ∃ told, after.events = told ++
    ({ plan.strict with filters } : Engine).interruption operation (files ++ more.take k)

/-- What does not fail is handled alike in both runs. -/
theorem handle_of_unfailed {item : Except Failure Path} {file : FileReport}
    (hhandle : ({ plan.lenient with filters } : Engine).handle operation item w = (.ok file, u))
    (hunfailed : file.action ≠ .failed) :
    ({ plan.strict with filters } : Engine).handle operation item w = (.ok file, u) := by
  have hrecord : ∀ path failure v,
      ({ plan.lenient with filters } : Engine).record path failure v ≠ (.ok file, u) := by
    intro path failure v hrecord
    have hkeep : ({ plan.lenient with filters } : Engine).keepGoing = true := rfl
    rw [record, if_pos hkeep] at hrecord
    cases hrecord
    exact hunfailed rfl
  cases item with
  | error failure => exact absurd hhandle (hrecord _ _ _)
  | ok path =>
      have hprocess : ({ plan.strict with filters } : Engine).process operation path w =
          ({ plan.lenient with filters } : Engine).process operation path w := rfl
      rw [handle] at hhandle ⊢
      dsimp only at hhandle ⊢
      rw [hprocess]
      generalize ({ plan.lenient with filters } : Engine).process operation path w = processed
        at hhandle ⊢
      obtain ⟨answer, v⟩ := processed
      cases answer with
      | ok action => exact hhandle
      | error failure => exact absurd hhandle (hrecord _ _ _)

/-- **What fails stops one run** and leaves the disk to it as it was. -/
theorem handle_of_failed (hquiet : plan.Quiet) {item : Except Failure Path} {file : FileReport}
    (hhandle : ({ plan.lenient with filters } : Engine).handle operation item w = (.ok file, u))
    (hfailed : file.action = .failed) :
    ∃ failure v, plan.verdict operation w.fs item = .error failure ∧
      ({ plan.strict with filters } : Engine).handle operation item w = (.error failure, v) ∧
      v.fs = w.fs ∧ v.writes = w.writes ++ plan.requested operation w.fs [item] := by
  obtain ⟨hanswer, _⟩ :=
    handle_reply (e := { plan.lenient with filters }) operation hquiet.lenient item w
  rw [hhandle] at hanswer
  obtain rfl := eq_line_of_reply hanswer.symm
  obtain ⟨failure, hverdict, _⟩ := line_failed_iff.mp hfailed
  obtain ⟨hstop, hfs, hwrites⟩ :=
    handle_reply (e := { plan.strict with filters }) operation hquiet.strict item w
  have hnothing : plan.strict.given operation w.fs [item] = [] := given_of_error hverdict
  refine ⟨failure, _, hverdict, Prod.ext (hstop.trans ?_) rfl, ?_, hwrites⟩
  · exact reply_eq_error_iff.mpr ⟨rfl, hverdict⟩
  · rw [hfs, hnothing, HardLinks.rewrite_nil]

variable {start : FileSystem} {item met : Except Failure Path} {file : FileReport}
  {failure : Failure} {v halfway after : World} {k : Nat}

/-- The first item stops a run if it fails. -/
theorem Halts.first (hquiet : plan.Quiet)
    (hnext : Walk.next filters w.fs walk = Walk.next filters start walk)
    (hmet : (Walk.next filters w.fs walk).1.met? = some item)
    (hhandle : ({ plan.lenient with filters } : Engine).handle operation item
      (w.tellAll (Walk.next filters w.fs walk).2.2) = (.ok file, v))
    (hfailed : file.action = .failed) :
    ∃ failure after, Halts plan filters operation start (items + 1) walk files (file :: more) w 0
      item failure w after := by
  obtain ⟨failure, after, hverdict, hstop, hfs, hwrites⟩ :=
    handle_of_failed hquiet hhandle hfailed
  refine ⟨failure,
    after.tellAll (({ plan.strict with filters } : Engine).interruption operation files),
    ?_, ?_, hverdict, ?_, hfs, hwrites, after.events, ?_⟩
  · rw [Walk.survey_succ, ← hnext, hmet]
    rfl
  · rw [List.take_zero, List.append_nil]
    rfl
  · rw [handleAll_succ]
    dsimp only
    rw [hmet, Option.elim_some, hstop]
    rfl
  · rw [List.take_zero, List.append_nil]
    rfl

/-- What stops the run behind an item that has not failed stops the run. -/
theorem Halts.cons (hnext : Walk.next filters w.fs walk = Walk.next filters start walk)
    (hmet : (Walk.next filters w.fs walk).1.met? = some met)
    (hhandle : ({ plan.lenient with filters } : Engine).handle operation met
      (w.tellAll (Walk.next filters w.fs walk).2.2) = (.ok file, v))
    (hunfailed : file.action ≠ .failed)
    (hhalts : Halts plan filters operation start items (Walk.next filters w.fs walk).2.1
      (files ++ [file]) more v k item failure halfway after) :
    Halts plan filters operation start (items + 1) walk files (file :: more) w (k + 1) item failure
      halfway after where
  meets := by
    rw [Walk.survey_succ, ← hnext, hmet]
    exact hhalts.meets
  keeps := by
    rw [handleAll_succ]
    dsimp only
    rw [hmet, Option.elim_some, hhandle, List.take_succ_cons, List.append_cons]
    exact hhalts.keeps
  verdict := hhalts.verdict
  stops := by
    rw [handleAll_succ]
    dsimp only
    rw [hmet, Option.elim_some, handle_of_unfailed hhandle hunfailed]
    exact hhalts.stops
  fs := hhalts.fs
  writes := hhalts.writes
  events := by
    rw [List.take_succ_cons, List.append_cons]
    exact hhalts.events

/-- **One run goes the way of the other**, and comes to its end with it or stops at the
first line that says failed. -/
theorem handleAll_beside (hquiet : plan.Quiet) (houtline : w.fs.outline = start.outline)
    (hrun : ({ plan.lenient with filters } : Engine).handleAll operation items walk files w =
      (.ok (files ++ more), u)) :
    ((∀ file ∈ more, file.action ≠ .failed) →
        ({ plan.strict with filters } : Engine).handleAll operation items walk files w =
          (.ok (files ++ more), u)) ∧
      ∀ k file, more[k]? = some file → file.action = .failed →
        (∀ earlier ∈ more.take k, earlier.action ≠ .failed) →
        ∃ item failure halfway after, Halts plan filters operation start items walk files more w k
          item failure halfway after := by
  induction items generalizing walk files more w with
  | zero =>
      have hfiles : files = files ++ more := Except.ok.inj (Prod.mk.inj hrun).1
      obtain rfl : more = [] := by simpa using hfiles
      exact ⟨fun _ => hrun, fun k file hfile => by simp at hfile⟩
  | succ items ih =>
      have hnext := Walk.next_of_outline_eq houtline filters walk
      rw [handleAll_succ] at hrun
      rw [handleAll_succ]
      dsimp only at hrun ⊢
      cases hmet : (Walk.next filters w.fs walk).1.met? with
      | none =>
          rw [hmet] at hrun
          have hfiles : files = files ++ more := Except.ok.inj (Prod.mk.inj hrun).1
          obtain rfl : more = [] := by simpa using hfiles
          exact ⟨fun _ => hrun, fun k file hfile => by simp at hfile⟩
      | some met =>
          rw [hmet, Option.elim_some] at hrun
          rw [Option.elim_some]
          obtain ⟨first, v, hhandle, hgoes⟩ := goOn_eq_ok hrun
          obtain ⟨others, hothers⟩ := handleAll_extends hgoes
          obtain rfl : more = first :: others := by simpa using hothers
          rw [List.append_cons files first others] at hgoes
          have hkept : v.fs.outline = start.outline := by
            have hdeed := (handle_reply (e := { plan.lenient with filters }) operation
              hquiet.lenient met (w.tellAll (Walk.next filters w.fs walk).2.2)).2
            rw [hhandle] at hdeed
            exact hdeed.outline.trans houtline
          obtain ⟨hsame, hhalts⟩ := ih hkept hgoes
          refine ⟨fun hunfailed => ?_, fun k file hfile hfailed hfirst => ?_⟩
          · obtain ⟨hunfailed, hrest⟩ := List.forall_mem_cons.mp hunfailed
            rw [handle_of_unfailed hhandle hunfailed, List.append_cons]
            exact hsame hrest
          cases k with
          | zero =>
              obtain rfl : first = file := Option.some.inj hfile
              obtain ⟨failure, after, hhalt⟩ := Halts.first hquiet hnext hmet hhandle hfailed
              exact ⟨met, failure, w, after, hhalt⟩
          | succ k =>
              rw [List.take_succ_cons, List.forall_mem_cons] at hfirst
              obtain ⟨item, failure, halfway, after, hhalt⟩ := hhalts k file hfile hfailed hfirst.2
              exact ⟨item, failure, halfway, after, hhalt.cons hnext hmet hhandle hfirst.1⟩

end Engine

/-! ## What a run leaves behind that stops -/

/-- A path leads to what it led to, and reads as it did. -/
def FileSystem.KeptAt (before after : FileSystem) (path : Path) : Prop :=
  after.readText path = before.readText path ∧
    ∀ l, before.canonical? path = some l → after.find? l = before.find? l

/-- Among some items there is no further name of the file that a path leads to. -/
def HardLinks.Spare (links : HardLinks) (fs : FileSystem) (items : List (Except Failure Path))
    (path : Path) : Prop :=
  ∀ other l k, .ok other ∈ items → fs.canonical? other = some k → fs.canonical? path = some l →
    l ∉ links.others k

/-- **What a run leaves behind that stops at the item `k`**, the first that
fails, where a run that keeps going writes the lines `files` and is at `halfway`
before that item. -/
structure Interrupted (plan : Plan) (operation : Operation) (before : World)
    (items : List (Except Failure Path)) (files : List FileReport) (k : Nat) (failure : Failure)
    (halfway after : World) : Prop where
  /-- The failure is what is wrong with the item. -/
  fails : ∃ item, items[k]? = some item ∧ plan.Fails operation before.fs item failure
  /-- Its wording is the error text of the line. -/
  wording : ∃ file, files[k]? = some file ∧ file.error = some failure.message.toList
  fs : after.fs = halfway.fs
  /-- The file that failed is as it was. -/
  kept : ∀ path, items[k]? = some (.ok path) → before.fs.KeptAt after.fs path
  /-- So are those after it, unless they have been handled by a further name. -/
  untouched : ∀ path, .ok path ∈ items.drop k → plan.links.Spare before.fs (items.take k) path →
    before.fs.KeptAt after.fs path
  /-- Whatever has changed is a name of a file that has been handled. -/
  changed : ∀ l, after.fs.find? l ≠ before.fs.find? l → ∃ path k', .ok path ∈ items.take k ∧
    before.fs.canonical? path = some k' ∧ plan.links.Names k' l
  /-- Nothing is asked of the files after it. -/
  requests : ∃ calls, after.writes = before.writes ++ calls ∧
    ∀ call ∈ calls, .ok call.path ∈ items.take (k + 1)
  /-- The last thing that is told is how far the run came, and which files it
  changed. -/
  warning : ∃ told, after.events = told ++
    (let changed := (files.take k).filter fun file => file.action.changesContent
    let verb := if plan.dryRun then "to change" else "changed"
    Event.message .warn .run
        s!"Stopped {operation.word} after {k} scanned, {changed.length} {verb}" ::
      changed.map fun file => Event.message .warn .run s!"  {file.path.display}")

namespace Engine

open Plan

variable {plan : Plan} {filters : List NameFilter} {operation : Operation} {w : World}
  {items : List (Except Failure Path)} {files : List FileReport} {k : Nat}

/-- A file stays as it was when nothing has happened to any of its names. -/
theorem keptAt_of_worked {before after : FileSystem} (hworked : before.Worked after) {path : Path}
    (hsame : ∀ l, before.canonical? path = some l → after.find? l = before.find? l) :
    before.KeptAt after path :=
  ⟨FileSystem.readText_congr hworked.outline hsame, hsame⟩

/-- **A run that stops leaves what a run that keeps going has before the first
item that fails.** -/
theorem Halts.interrupted {budget : Nat} {walk : Walk} {item : Except Failure Path}
    {failure : Failure} {halfway after : World} (hquiet : plan.Quiet)
    (hholds : plan.links.Holds w.fs)
    (hheaders : ¬ (operation = .synchronize ∧ plan.headers.isEmpty = true))
    (hitems : Walk.survey filters w.fs budget walk = items) (hk : k ≤ budget)
    (haccounts : List.Forall₂ (plan.Accounts operation w.fs) items files)
    (hhalts : Halts plan filters operation w.fs budget walk [] files w k item failure halfway
      after) :
    Interrupted plan operation w items files k failure halfway after := by
  obtain ⟨hitem, hkeeps, hverdict, _, hfs, hwrites, told, hevents⟩ := hhalts
  rw [hitems] at hitem
  rw [List.nil_append] at hkeeps hevents
  have hsurvey : Walk.survey filters w.fs k walk = items.take k :=
    hitems ▸ Walk.survey_take hk walk
  obtain ⟨⟨hworked, _, hchanged, calls, hcalls, hpaths⟩, _⟩ :=
    handleAll_underway (e := { plan.lenient with filters }) hquiet.lenient hholds hheaders hkeeps
  rw [hsurvey] at hchanged hpaths
  have hfails : plan.Fails operation w.fs item failure :=
    (fails_congr hheaders hworked item failure).mp ((verdict_eq_error_iff hheaders).mp hverdict)
  rw [← hfs] at hworked hchanged
  obtain ⟨hlength, hget⟩ := List.getElem?_eq_some_iff.mp hitem
  have hlengths := haccounts.length_eq
  constructor
  case fails => exact ⟨item, hitem, hfails⟩
  case wording =>
    have haccount := haccounts.get hlength (hlengths ▸ hlength)
    rw [List.get_eq_getElem, hget] at haccount
    exact ⟨_, List.getElem?_eq_getElem _, (haccount.loses failure hfails).2⟩
  case fs => exact hfs
  case kept =>
    intro path hpath
    obtain rfl : item = .ok path := Option.some.inj (hitem.symm.trans hpath)
    refine keptAt_of_worked hworked fun l hl => ?_
    by_contra hne
    exact not_fails_of_workable hl ((hworked.files l).resolve_left hne).1 hfails
  case untouched =>
    intro path hpath hspare
    refine keptAt_of_worked hworked fun l hl => ?_
    by_contra hne
    obtain ⟨other, j, hother, hj, hnames⟩ := hchanged l hne
    rcases hnames with rfl | hfurther
    · -- No file is met twice under one name.
      have hpairwise : items.Pairwise (Walk.Apart w.fs) := hitems ▸ Walk.survey_apart _ _
      rw [← List.take_append_drop k items, List.pairwise_append] at hpairwise
      exact (hpairwise.2.2 _ hother _ hpath).canonical?_ne hj hl
    · exact hspare other l j hother hj hl hfurther
  case changed => exact hchanged
  case requests =>
    refine ⟨calls ++ plan.requested operation halfway.fs [item], ?_, fun call hcall => ?_⟩
    · rw [hwrites, hcalls, List.append_assoc]
    · rw [List.take_add_one, hitem]
      rcases List.mem_append.mp hcall with hcall | hcall
      · exact List.mem_append_left _ (hpaths call hcall)
      · exact List.mem_append_right _ (path_of_requested hcall)
  case warning =>
    refine ⟨told, ?_⟩
    rw [hevents, interruption, List.length_take, Nat.min_eq_left (by omega)]
    rfl

end Engine

namespace Sample

/-- Four directories with a text in each.  The second text cannot be read, and the
third is the first by a further name. -/
def paired : FileSystem where
  entries := [([['w']], .directory), ([['w'], ['a']], .file (.text ['(', ')', 'x'])),
    ([['v']], .directory), ([['v'], ['a']], .file (.text ['(', ')', 'y'])),
    ([['u']], .directory), ([['u'], ['a']], .file (.text ['(', ')', 'x'])),
    ([['t']], .directory), ([['t'], ['a']], .file (.text ['(', ')', 'z']))]
  distinct := by decide
  current := []
  denied := [([['v'], ['a']], .reading)]

/-- The four directories. -/
def corners : List Path := [⟨['w']⟩, ⟨['v']⟩, ⟨['u']⟩, ⟨['t']⟩]

/-- The two names of the first text. -/
def pair : HardLinks where
  numbers := [([['w'], ['a']], 0), ([['u'], ['a']], 0)]

theorem pair_holds : pair.Holds paired := .of_numbers (by decide) (by decide)

/-- The plan of the small run for these directories. -/
def pairing : Plan := { plan with links := pair }

/-- What is wrong with the second text. -/
def illegible : Failure := .file .read ⟨['v', '/', 'a']⟩ .accessDenied

/-- What selects the texts. -/
def filters : List NameFilter := [.excluded ["__init__.py".toList], .pattern ⟨['*'], [.anyText]⟩]

/-- The four texts are met in order. -/
theorem collect_paired :
    collect filters paired corners = .ok [⟨['w', '/', 'a']⟩, ⟨['v', '/', 'a']⟩,
      ⟨['u', '/', 'a']⟩, ⟨['t', '/', 'a']⟩] := by cbv

/-- The last text is no further name of the first. -/
theorem last_spare : pair.Spare paired [.ok ⟨['w', '/', 'a']⟩] ⟨['t', '/', 'a']⟩ := by
  intro other l k hother hk hl
  obtain rfl : other = ⟨['w', '/', 'a']⟩ := by simpa using hother
  obtain rfl : [['w'], ['a']] = k := Option.some.inj hk
  obtain rfl : [['t'], ['a']] = l := Option.some.inj hl
  decide

end Sample

end LicenseHeaders

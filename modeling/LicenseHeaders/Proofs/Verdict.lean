import LicenseHeaders.Proofs.Outcome
import LicenseHeaders.Proofs.Sharing

/-!
# What a run answers to an item

A dry run decides as a real run does and leaves out the writing, so the one
thing it cannot foresee is a request to write that is refused.  A run that keeps
going decides as one that does not, and writes down what the other stops at.
The verdict on an item is what all of them have in common; the line in the
report and the answer of a run are read off it.

* `handle_reply` — handling an item answers by its verdict, whatever the mode
  of the run, and changes the disk as much as the mode allows, under all names
  of the file;
* `outcome_eq_prospect` — where nothing is refused, a real run comes to the
  verdict of a dry run.
-/

namespace LicenseHeaders

/-- A plan whose runs nothing interferes with, be they dry or real: no edits by
others and no diff file.  Files can have further names. -/
structure Plan.Quiet (plan : Plan) : Prop where
  undisturbed : plan.detector.edits = []
  unsaved : plan.diff.saved = none

/-- A plan whose runs nothing interferes with, where each file has one name. -/
structure Plan.Calm (plan : Plan) : Prop extends plan.Quiet where
  unlinked : plan.links = {}

namespace Plan

section

variable (plan : Plan) (operation : Operation)

/-- The change that a file is to come to, or what stands in its way before
anything is written. -/
def prospect (fs : FileSystem) (path : Path) : Except Failure (Option Change) :=
  match fs.readText path with
  | .error cause => .error (.file .read path cause)
  | .ok content => plan.transform operation content

/-- What a run decides about an item. -/
def verdict (fs : FileSystem) : Except Failure Path → Except Failure (Option Change)
  | .error failure => .error failure
  | .ok path =>
    if plan.dryRun then plan.prospect operation fs path else plan.outcome operation fs path

/-- The path that stands for an item in the report. -/
def subject : Except Failure Path → Path
  | .error failure => failure.path?.getD ⟨[]⟩
  | .ok path => path

/-- The line of the report about an item. -/
def line (fs : FileSystem) (item : Except Failure Path) : FileReport :=
  match plan.verdict operation fs item with
  | .ok change => ⟨subject item, actionOf change, none⟩
  | .error failure => ⟨subject item, .failed, some failure.message.toList⟩

/-- What a run answers to an item: its line, or the failure to stop at. -/
def reply (fs : FileSystem) (item : Except Failure Path) : Except Failure FileReport :=
  match plan.verdict operation fs item with
  | .ok _ => .ok (plan.line operation fs item)
  | .error failure => if plan.keepGoing then .ok (plan.line operation fs item) else .error failure

/-- The contents that a run over items gives to files. -/
def given (fs : FileSystem) (items : List (Except Failure Path)) : List (Location × Text) :=
  if plan.dryRun then [] else plan.newContents operation fs items

/-- The requests to write that a run over items makes. -/
def requested (fs : FileSystem) (items : List (Except Failure Path)) : List WriteCall :=
  if plan.dryRun then [] else items.filterMap (plan.writeCall? operation fs)

end

variable {plan : Plan} {operation : Operation} {fs gs : FileSystem}

theorem Plain.calm (hplain : plan.Plain) : plan.Calm :=
  ⟨⟨hplain.undisturbed, hplain.unsaved⟩, hplain.unlinked⟩

/-! ## Verdicts and lines -/

/-- A verdict that succeeds makes the line of a change or of none. -/
theorem line_of_ok {item : Except Failure Path} {change : Option Change}
    (hverdict : plan.verdict operation fs item = .ok change) :
    plan.line operation fs item = ⟨subject item, actionOf change, none⟩ := by
  simp only [line, hverdict]

/-- A verdict that fails makes the line of a failure. -/
theorem line_of_error {item : Except Failure Path} {failure : Failure}
    (hverdict : plan.verdict operation fs item = .error failure) :
    plan.line operation fs item = ⟨subject item, .failed, some failure.message.toList⟩ := by
  simp only [line, hverdict]

/-- An entry is about the path of its item. -/
@[simp] theorem path_entry (plan : Plan) (operation : Operation) (fs : FileSystem)
    (item : Except Failure Path) : (plan.entry operation fs item).path = subject item := by
  cases item with
  | error failure => rfl
  | ok path =>
      rw [entry]
      split <;> rfl

/-- The line about an item is about its path. -/
@[simp] theorem path_line (plan : Plan) (operation : Operation) (fs : FileSystem)
    (item : Except Failure Path) : (plan.line operation fs item).path = subject item := by
  rw [line]
  split <;> rfl

/-- In a real run the line about an item is its entry. -/
theorem line_of_real (hreal : plan.dryRun = false) (item : Except Failure Path) :
    plan.line operation fs item = plan.entry operation fs item := by
  cases item with
  | error failure => rfl
  | ok path =>
      have hverdict : plan.verdict operation fs (.ok path) = plan.outcome operation fs path := by
        simp [verdict, hreal]
      cases houtcome : plan.outcome operation fs path with
      | error failure => simp only [line, entry, hverdict, houtcome, subject]
      | ok change => simp only [line, entry, hverdict, houtcome, subject]

/-- **A line says failed exactly where the verdict is a failure**, which it then
tells about. -/
theorem line_failed_iff {item : Except Failure Path} :
    (plan.line operation fs item).action = .failed ↔
      ∃ failure, plan.verdict operation fs item = .error failure ∧
        (plan.line operation fs item).error = some failure.message.toList := by
  cases hverdict : plan.verdict operation fs item with
  | error failure =>
      rw [line_of_error hverdict]
      simp
  | ok change =>
      have hunfailed : actionOf change ≠ .failed := by
        cases item with
        | error failure => cases hverdict
        | ok path =>
            rw [verdict] at hverdict
            split at hverdict
            · -- The action of a prospect is that of a change, and no change is a failure.
              cases change with
              | none => exact Action.noConfusion
              | some change =>
                  intro hfailed
                  rw [prospect] at hverdict
                  split at hverdict
                  · cases hverdict
                  · have haction := transform_action hverdict
                    rw [show change.action = .failed from hfailed] at haction
                    cases haction
            · exact (outcome_action hverdict).2
      rw [line_of_ok hverdict]
      simp [hunfailed]

/-- A run goes on after an item whose verdict is no failure, and after every
item when it keeps going. -/
theorem reply_of_goes {item : Except Failure Path}
    (hgoes : plan.keepGoing = true ∨ (plan.line operation fs item).action ≠ .failed) :
    plan.reply operation fs item = .ok (plan.line operation fs item) := by
  rw [reply]
  cases hverdict : plan.verdict operation fs item with
  | ok change => rfl
  | error failure =>
      have hfailed : (plan.line operation fs item).action = .failed := by
        rw [line_of_error hverdict]
      exact if_pos (hgoes.resolve_right fun hunfailed => hunfailed hfailed)

/-- A run stops at a failure, unless it keeps going. -/
theorem reply_eq_error_iff {item : Except Failure Path} {failure : Failure} :
    plan.reply operation fs item = .error failure ↔
      plan.keepGoing = false ∧ plan.verdict operation fs item = .error failure := by
  rw [reply]
  cases plan.verdict operation fs item with
  | ok change => simp
  | error other => cases plan.keepGoing <;> simp

/-- An answer that does not stop a run is a line. -/
theorem eq_line_of_reply {item : Except Failure Path} {file : FileReport}
    (hreply : plan.reply operation fs item = .ok file) : file = plan.line operation fs item := by
  rw [reply] at hreply
  split at hreply
  · exact (Except.ok.inj hreply).symm
  · split at hreply
    · exact (Except.ok.inj hreply).symm
    · cases hreply

/-! ## Contents and requests -/

@[simp] theorem given_nil : plan.given operation fs [] = [] := by
  simp [given, newContents]

/-- New contents are given item by item. -/
theorem given_append (items more : List (Except Failure Path)) :
    plan.given operation fs (items ++ more) =
      plan.given operation fs items ++ plan.given operation fs more := by
  unfold given newContents
  split
  · rfl
  · exact List.filterMap_append

@[simp] theorem requested_nil : plan.requested operation fs [] = [] := by
  simp [requested]

theorem requested_append (items more : List (Except Failure Path)) :
    plan.requested operation fs (items ++ more) =
      plan.requested operation fs items ++ plan.requested operation fs more := by
  unfold requested
  split
  · rfl
  · exact List.filterMap_append

/-- A run that is not dry gives every new content. -/
theorem given_of_real (hreal : plan.dryRun = false) (items : List (Except Failure Path)) :
    plan.given operation fs items = plan.newContents operation fs items := by
  simp [given, hreal]

/-- A run that is not dry requests every write. -/
theorem requested_of_real (hreal : plan.dryRun = false) (items : List (Except Failure Path)) :
    plan.requested operation fs items = items.filterMap (plan.writeCall? operation fs) := by
  simp [requested, hreal]

/-- An item whose verdict is a failure gives no file a new content. -/
theorem given_of_error {item : Except Failure Path} {failure : Failure}
    (hverdict : plan.verdict operation fs item = .error failure) :
    plan.given operation fs [item] = [] := by
  unfold given
  split
  · rfl
  · next hreal =>
    cases item with
    | error failure => rfl
    | ok path =>
        rw [verdict, if_neg hreal] at hverdict
        simp [newContents, newContent?, hverdict]

/-- New contents only go into files. -/
theorem outline_given (items : List (Except Failure Path)) :
    (fs.rewrite (plan.given operation fs items)).outline = fs.outline := by
  unfold given
  split
  · rfl
  · exact outline_newContents items

/-- A file that differs from all that have been handled is as it was. -/
theorem unaware_given {items : List (Except Failure Path)} {item : Except Failure Path}
    (hapart : ∀ other ∈ items, Walk.Apart fs item other) :
    Unaware fs (fs.rewrite (plan.given operation fs items)) item := by
  unfold given
  split
  · exact fun path _ l _ => rfl
  · exact unaware_of_apart fun other hother _ => hapart other hother

/-! ## Congruence -/

section

variable (plan operation) {item : Except Failure Path} (houtline : gs.outline = fs.outline)
  (hsame : Unaware fs gs item)

include houtline hsame

/-- A verdict depends on the own file only. -/
theorem verdict_congr : plan.verdict operation gs item = plan.verdict operation fs item := by
  cases item with
  | error failure => rfl
  | ok path =>
      have hread := FileSystem.readText_congr houtline (hsame path rfl)
      simp only [verdict, prospect, hread, outcome_congr houtline (hsame path rfl)]

/-- An answer depends on the own file only. -/
theorem reply_congr : plan.reply operation gs item = plan.reply operation fs item := by
  simp only [reply, line, verdict_congr plan operation houtline hsame]

theorem given_congr : plan.given operation gs [item] = plan.given operation fs [item] := by
  simp only [given, newContents, List.filterMap_cons, List.filterMap_nil,
    newContent?_congr plan operation houtline hsame]

theorem requested_congr :
    plan.requested operation gs [item] = plan.requested operation fs [item] := by
  simp only [requested, List.filterMap_cons, List.filterMap_nil,
    writeCall?_congr plan operation houtline hsame]

end

/-! ## Dry and real -/

/-- What a file comes to is its prospect, unless its new content is refused. -/
theorem outcome_eq (plan : Plan) (operation : Operation) (fs : FileSystem) (path : Path) :
    plan.outcome operation fs path =
      match plan.prospect operation fs path with
      | .ok (some change) =>
        match fs.writeText path change.text with
        | .error cause => .error (.file .write path cause)
        | .ok _ => .ok (some change)
      | other => other := by
  unfold outcome prospect
  cases fs.readText path with
  | error cause => rfl
  | ok content =>
      dsimp only
      match plan.transform operation content with
      | .error failure => rfl
      | .ok none => rfl
      | .ok (some change) => rfl

/-- No prospect fails for a refused request. -/
theorem prospect_ne_write {path other : Path} {cause : Cause} :
    plan.prospect operation fs path ≠ .error (.file .write other cause) := by
  unfold prospect
  split
  · exact nofun
  · intro htransform
    cases transform_error htransform

/-- **What is settled before anything is written** is the same in a dry run and a
real one, and concerns no disk. -/
theorem settled_of_prospect {path : Path} {answer : Except Failure (Option Change)}
    (hprospect : plan.prospect operation fs path = answer)
    (hunwritten : ∀ change, answer ≠ .ok (some change)) :
    plan.verdict operation fs (.ok path) = answer ∧ plan.given operation fs [.ok path] = [] ∧
      plan.requested operation fs [.ok path] = [] := by
  have houtcome : plan.outcome operation fs path = answer := by
    rw [outcome_eq, hprospect]
    split
    · exact absurd rfl (hunwritten _)
    · rfl
  refine ⟨?_, ?_, ?_⟩
  · rw [verdict, houtcome, hprospect, ite_self]
  · have hnew : plan.newContent? operation fs (.ok path) = none := by
      rw [newContent?, houtcome]
      split
      · exact absurd rfl (hunwritten _)
      · rfl
    simp [given, newContents, hnew]
  · have hcall : plan.writeCall? operation fs (.ok path) = none := by
      rw [writeCall?, houtcome]
      split
      · exact absurd rfl (hunwritten _)
      · exact absurd hprospect prospect_ne_write
      · rfl
    simp [requested, hcall]

/-- **Where nothing is refused, the outcome of a file is its prospect.** -/
theorem outcome_eq_prospect {path : Path}
    (hgranted : ∀ call, plan.writeCall? operation fs (.ok path) = some call →
      call.refusal = none) :
    plan.outcome operation fs path = plan.prospect operation fs path := by
  have houtcome := plan.outcome_eq operation fs path
  split at houtcome
  · next change hprospect =>
    rw [hprospect]
    split at houtcome
    · next cause _ =>
      have hcall : plan.writeCall? operation fs (.ok path) = some ⟨path, some cause⟩ := by
        simp only [writeCall?, houtcome]
      exact absurd (hgranted _ hcall) (by simp)
    · exact houtcome
  · exact houtcome

end Plan

namespace Engine

open Plan

variable {e : Engine} {operation : Operation}

/-! ## Handling an item -/

/-- What handling an item does to the disk. -/
structure Deed (e : Engine) (operation : Operation) (item : Except Failure Path)
    (before after : World) : Prop where
  fs : after.fs = e.links.rewrite before.fs (e.given operation before.fs [item])
  writes : after.writes = before.writes ++ e.requested operation before.fs [item]

/-- An item that gives no file a new content and requests nothing leaves the disk
alone. -/
theorem Deed.of_idle {item : Except Failure Path} {before after : World}
    (hidle : before.Idle after) (hgiven : e.given operation before.fs [item] = [])
    (hrequested : e.requested operation before.fs [item] = []) :
    Deed e operation item before after where
  fs := by
    rw [hgiven, hidle.fs]
    rfl
  writes := by rw [hrequested, hidle.writes, List.append_nil]

/-- **A change is committed as the verdict on its file says**, dry or real. -/
theorem commit_reply {path : Path} {change : Change} {w w' : World}
    (hprospect : e.prospect operation w.fs path = .ok (some change)) (hidle : w.Idle w') :
    ((e.commit operation path change.text w').1.map fun _ => change.action) =
        (e.verdict operation w.fs (.ok path)).map actionOf ∧
      Deed e operation (.ok path) w (e.commit operation path change.text w').2 := by
  by_cases hdry : e.dryRun = true
  · rw [verdict, if_pos hdry, hprospect, commit, if_pos hdry]
    refine ⟨rfl, Deed.of_idle (hidle.trans (w'.idle_tell _)) ?_ ?_⟩
    · rw [given, if_pos hdry]
    · rw [requested, if_pos hdry]
  · have hreal : e.dryRun = false := Bool.eq_false_iff.mpr hdry
    rw [verdict, if_neg hdry]
    cases hwrite : w.fs.writeText path change.text with
    | error cause =>
        have houtcome : e.outcome operation w.fs path = .error (.file .write path cause) := by
          simp only [outcome_eq, hprospect, hwrite]
        rw [commit_of_refused hreal (by rw [hidle.fs, hwrite]), houtcome]
        refine ⟨rfl, ?_, ?_⟩
        · simp [given_of_real hreal, newContents, newContent?, houtcome, World.call, hidle.fs]
        · simp [requested_of_real hreal, writeCall?, houtcome, World.call, hidle.writes]
    | ok written =>
        have houtcome : e.outcome operation w.fs path = .ok (some change) := by
          simp only [outcome_eq, hprospect, hwrite]
        obtain ⟨l, _, hlookup, _, _, hput⟩ := outcome_eq_some houtcome
        have hwritten : written = w.fs.put l (.file (.text change.text)) :=
          Except.ok.inj (hwrite.symm.trans hput)
        have hlocation := FileSystem.canonical?_of_lookup hlookup
        have hcarry := e.links.carry_put (.text change.text) hlocation
          (FileSystem.lookup_eq_ok_iff.mp hlookup).2
        obtain ⟨event, hevent⟩ := commit_of_written operation (w := w') hreal
          (by rw [hidle.fs, hwrite])
        rw [hevent, houtcome]
        refine ⟨rfl, ?_, ?_⟩
        · simp [given_of_real hreal, newContents, newContent?, houtcome, World.call, hlocation,
            hwritten, hcarry, HardLinks.rewrite_singleton]
        · simp [requested_of_real hreal, writeCall?, houtcome, World.call, hidle.writes]

/-- **All that processing a file can come to.**  Either its prospect is no change,
and then nothing is written, or the diff of a change is put out and the change
is committed. -/
theorem process_cases (operation : Operation) (hpure : e.detector.edits = []) (path : Path)
    (w : World) :
    (∃ answer, e.prospect operation w.fs path = answer ∧
        (∀ change, answer ≠ .ok (some change)) ∧
        (e.process operation path w).1 = answer.map actionOf ∧
        w.Idle (e.process operation path w).2) ∨
      ∃ content change v, w.fs.readText path = .ok content ∧
        e.prospect operation w.fs path = .ok (some change) ∧ w.Idle v ∧
        e.process operation path w =
          match e.commit operation path change.text (e.putDiff path content change.text v) with
          | (.error failure, w) => (.error failure, w)
          | (.ok (), w) => (.ok change.action, w) := by
  unfold process
  dsimp only
  have htold := w.idle_tell (.message .trace .run s!"Processing file: {path.display}")
  generalize w.tell (.message .trace .run s!"Processing file: {path.display}") = w₁ at htold ⊢
  rw [htold.fs]
  cases hread : w.fs.readText path with
  | error cause =>
      refine .inl ⟨.error (.file .read path cause), ?_, nofun, rfl, htold⟩
      simp only [prospect, hread]
  | ok content =>
      have hprospect : e.prospect operation w.fs path = e.transform operation content := by
        simp only [prospect, hread]
      obtain ⟨hanswer, hasked⟩ := change_eq operation hpure content w₁
      dsimp only
      generalize e.change operation content w₁ = changed at hanswer hasked ⊢
      obtain ⟨answer, w₂⟩ := changed
      dsimp only at hanswer hasked
      rw [← hanswer] at hprospect
      have hidle := htold.trans hasked
      match answer with
      | .error failure => exact .inl ⟨_, hprospect, nofun, rfl, hidle⟩
      | .ok none => exact .inl ⟨_, hprospect, nofun, rfl, hidle⟩
      | .ok (some change) => exact .inr ⟨content, change, w₂, rfl, hprospect, hidle, rfl⟩

/-- **Processing a file answers by its verdict.** -/
theorem process_reply (operation : Operation) (hquiet : e.toPlan.Quiet) (path : Path) (w : World) :
    (e.process operation path w).1 = (e.verdict operation w.fs (.ok path)).map actionOf ∧
      Deed e operation (.ok path) w (e.process operation path w).2 := by
  obtain ⟨answer, hprospect, hunwritten, hanswer, hidle⟩ |
      ⟨content, change, v, _, hprospect, hidle, hprocess⟩ :=
    process_cases operation hquiet.undisturbed path w
  · obtain ⟨hverdict, hgiven, hrequested⟩ := settled_of_prospect hprospect hunwritten
    exact ⟨by rw [hanswer, hverdict], Deed.of_idle hidle hgiven hrequested⟩
  · have hdiff := idle_putDiff hquiet.unsaved path content change.text v
    rw [hprocess]
    generalize e.putDiff path content change.text v = v' at hdiff ⊢
    obtain ⟨hcommit, hdeed⟩ := commit_reply hprospect (hidle.trans hdiff)
    generalize e.commit operation path change.text v' = committed at hcommit hdeed ⊢
    obtain ⟨answer, after⟩ := committed
    rw [← hcommit]
    cases answer <;> exact ⟨rfl, hdeed⟩

/-- A failure is written down or handed on, and the disk is left alone. -/
theorem record_reply (path : Path) (failure : Failure) (w : World) :
    (e.record path failure w).1 =
        (if e.keepGoing then .ok ⟨path, .failed, some failure.message.toList⟩
        else .error failure) ∧
      w.Idle (e.record path failure w).2 := by
  unfold record
  split
  · exact ⟨rfl, w.idle_tell _⟩
  · exact ⟨rfl, rfl, rfl⟩

/-- Handling a file answers by its verdict if processing it does, and leaves the
disk as that does. -/
theorem handle_of_process (e : Engine) (operation : Operation) (path : Path) (w : World) :
    ((e.process operation path w).1 = (e.verdict operation w.fs (.ok path)).map actionOf →
        (e.handle operation (.ok path) w).1 = e.reply operation w.fs (.ok path)) ∧
      (e.process operation path w).2.Idle (e.handle operation (.ok path) w).2 := by
  unfold handle
  dsimp only
  generalize e.process operation path w = processed
  obtain ⟨answer, w'⟩ := processed
  cases answer with
  | ok action =>
      refine ⟨fun hanswer => ?_, rfl, rfl⟩
      cases hverdict : e.verdict operation w.fs (.ok path) with
      | ok change =>
          rw [hverdict] at hanswer
          cases hanswer
          simp only [reply, hverdict, line_of_ok hverdict, subject]
      | error failure =>
          rw [hverdict] at hanswer
          cases hanswer
  | error failure =>
      obtain ⟨hrecord, hidle⟩ := e.record_reply path failure w'
      refine ⟨fun hanswer => ?_, hidle⟩
      cases hverdict : e.verdict operation w.fs (.ok path) with
      | ok change =>
          rw [hverdict] at hanswer
          cases hanswer
      | error other =>
          rw [hverdict] at hanswer
          cases hanswer
          simp only [reply, hverdict, line_of_error hverdict]
          exact hrecord

/-- An item without a file is written down or handed on. -/
theorem handle_failure (e : Engine) (operation : Operation) (failure : Failure) (w : World) :
    (e.handle operation (.error failure) w).1 = e.reply operation w.fs (.error failure) ∧
      w.Idle (e.handle operation (.error failure) w).2 :=
  e.record_reply (failure.path?.getD ⟨[]⟩) failure w

/-- **Handling an item answers by its verdict.** -/
theorem handle_reply (operation : Operation) (hquiet : e.toPlan.Quiet)
    (item : Except Failure Path) (w : World) :
    (e.handle operation item w).1 = e.reply operation w.fs item ∧
      Deed e operation item w (e.handle operation item w).2 := by
  cases item with
  | error failure =>
      obtain ⟨hanswer, hidle⟩ := e.handle_failure operation failure w
      have hrequested : e.requested operation w.fs [.error failure] = [] := by
        simp [requested, writeCall?]
      exact ⟨hanswer, Deed.of_idle hidle (given_of_error rfl) hrequested⟩
  | ok path =>
      obtain ⟨hanswer, hdeed⟩ := process_reply operation hquiet path w
      obtain ⟨hreply, hidle⟩ := e.handle_of_process operation path w
      exact ⟨hreply hanswer, hidle.fs.trans hdeed.fs, hidle.writes.trans hdeed.writes⟩

end Engine

end LicenseHeaders

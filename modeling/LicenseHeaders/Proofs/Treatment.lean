import LicenseHeaders.Proofs.Spreading
import LicenseHeaders.Proofs.Verdict

/-!
# What handling an item can do

Two files can change at most when an item is handled: the diff file, and the file
that the item is about, each under all of its names.  The file of the item then
holds what the operation makes of the text it had.

* `DiffOutput.Owns`, `DiffOutput.Opens` — where the diff file is, and that it is
  there;
* `DiffOutput.put_cases`, `Engine.putDiff_cases`, `Engine.commit_cases` — what can
  be written;
* `Engine.Treats`, `Engine.handle_treats` — what can become of an item.
-/

namespace LicenseHeaders

open FileSystem (Beside)

/-! ## The diff file -/

namespace DiffOutput

variable {d : DiffOutput} {fs gs : FileSystem} {l : Location}

/-- The place that the path of the diff file leads to. -/
def Owns (d : DiffOutput) (fs : FileSystem) (l : Location) : Prop :=
  ∃ saved, d.saved = some saved ∧ fs.locate .creation saved = .ok l

/-- The diff file is there. -/
def Opens (d : DiffOutput) (fs : FileSystem) : Prop :=
  ∀ l, d.Owns fs l → ∃ old, fs.find? l = some (.file old)

/-- Which locations a diff file has does not depend on contents. -/
theorem owns_congr (houtline : gs.outline = fs.outline) : d.Owns gs = d.Owns fs := by
  funext l
  simp only [Owns, FileSystem.locate_of_outline_eq houtline]

/-- Whether a diff file can be opened does not depend on contents. -/
theorem Opens.congr (hopens : d.Opens fs) (houtline : gs.outline = fs.outline) : d.Opens gs := by
  intro l hl
  rw [owns_congr houtline] at hl
  obtain ⟨old, hold⟩ := hopens l hl
  exact FileSystem.file_of_outline_eq houtline hold

/-- To empty a diff file is to write the empty text to it. -/
theorem writeText_of_init {saved : Path} {emptied : FileSystem} (hsaved : d.saved = some saved)
    (hinit : d.init fs = .ok emptied) : fs.writeText saved [] = .ok emptied := by
  unfold init at hinit
  rw [hsaved] at hinit
  dsimp only at hinit
  split at hinit
  · next hwrite =>
    cases hinit
    exact hwrite
  · cases hinit

/-- **The diff file is empty when it has been emptied**, wherever its path leads, and
nothing else has been changed. -/
theorem emptied_of_init {saved : Path} {emptied : FileSystem} (hsaved : d.saved = some saved)
    (hinit : d.init fs = .ok emptied) :
    ∃ l, emptied.locate .creation saved = .ok l ∧ emptied.find? l = some (.file (.text [])) ∧
      ∀ k, k ≠ l → emptied.find? k = fs.find? k := by
  obtain ⟨l, _, hlocate, hempty, hkept⟩ :=
    HardLinks.located_modified {} (writeText_of_init hsaved hinit)
  rw [HardLinks.carry_none] at hlocate hempty hkept
  exact ⟨l, hlocate, hempty, fun k hk => hkept k (mt HardLinks.names_none_iff.mp hk)⟩

/-- **All that putting out a diff can come to.**  Nothing is written, because there is no
diff file or it cannot be opened, or the diff is added to it. -/
theorem put_cases (d : DiffOutput) (path : Path) (old new : Text) (w : World) :
    (d.put path old new w).2.fs = w.fs ∧
        (d.saved = none ∨ ∃ failure, (d.put path old new w).1 = .error failure) ∨
      ∃ saved t, d.saved = some saved ∧ (d.put path old new w).1 = .ok () ∧
        w.fs.appendText saved t = .ok (d.put path old new w).2.fs := by
  unfold put
  split
  · dsimp only
    have htold : (if d.shown then w.tellAll (shownLines (Diff.render path old new)) else w).fs =
        w.fs := by
      split <;> rfl
    generalize (if d.shown then w.tellAll (shownLines (Diff.render path old new)) else w) = v
      at htold ⊢
    split
    · next hunsaved => exact .inl ⟨htold, .inl hunsaved⟩
    · next saved hsaved =>
      rw [htold]
      split
      · next written hwrite => exact .inr ⟨saved, _, hsaved, rfl, hwrite⟩
      · exact .inl ⟨htold, .inr ⟨_, rfl⟩⟩
  · next hinactive =>
    have hunsaved : d.saved = none := by
      have hneither : d.isActive = false := Bool.eq_false_iff.mpr hinactive
      simpa using (Bool.or_eq_false_iff.mp hneither).2
    exact .inl ⟨rfl, .inl hunsaved⟩

/-- An item that is not about the diff file. -/
def Spares (d : DiffOutput) (fs : FileSystem) (item : Except Failure Path) : Prop :=
  ∀ path l, item = .ok path → fs.canonical? path = some l → ¬ d.Owns fs l

/-- Whether an item is another file than the diff file does not depend on contents.
-/
theorem spares_congr (houtline : gs.outline = fs.outline) {item : Except Failure Path} :
    d.Spares gs item ↔ d.Spares fs item := by
  simp only [Spares, FileSystem.canonical?_of_outline_eq houtline, owns_congr houtline]

end DiffOutput

namespace Engine

open Plan

variable {e : Engine} {operation : Operation}

/-! ## What can be written -/

/-- **All that putting out a diff can come to** in a run: nothing is written, or the diff
file is, under all of its names. -/
theorem putDiff_cases {w : World} (hopens : e.diff.Opens w.fs) (path : Path) (old new : Text) :
    (e.putDiff path old new w).fs = w.fs ∨ ∃ l held content, e.diff.Owns w.fs l ∧
      w.fs.find? l = some (.file held) ∧
      (e.putDiff path old new w).fs = e.links.write w.fs l content := by
  have hput := e.diff.put_cases path old new w
  unfold putDiff
  generalize e.diff.put path old new w = output at hput ⊢
  obtain ⟨answer, v⟩ := output
  rcases hput with ⟨hsame, hunsaved | ⟨failure, hfailed⟩⟩ | ⟨saved, t, hsaved, hdone, hwrite⟩
  · refine .inl (Eq.trans ?_ hsame)
    cases answer with
    | ok _ => simp only [DiffOutput.carry, hunsaved]
    | error failure => rfl
  · dsimp only at hfailed
    rw [hfailed]
    exact .inl hsame
  · obtain ⟨l, _, hlocate, _, hwritten⟩ := e.links.carry_modified hwrite
    have hown : e.diff.Owns w.fs l := ⟨saved, hsaved, hlocate⟩
    obtain ⟨held, hheld⟩ := hopens l hown
    dsimp only at hdone
    rw [hdone]
    refine .inr ⟨l, held, _, hown, hheld, Eq.trans ?_ hwritten⟩
    simp only [DiffOutput.carry, hsaved]

/-- **All that committing a change can come to** where there is a file: a dry run only
tells, a write is refused, or the file has its new content. -/
theorem commit_cases (operation : Operation) {path : Path} {l : Location} {held : Content}
    {w : World} (new : Text) (hlookup : w.fs.lookup .target path = .ok (l, .file held)) :
    e.dryRun = true ∧ (e.commit operation path new w).2.fs = w.fs ∨
      (∃ failure, (e.commit operation path new w).1 = .error failure) ∧
        (e.commit operation path new w).2.fs = w.fs ∨
      (e.commit operation path new w).2.fs = e.links.write w.fs l (.text new) := by
  have hwrite := FileSystem.writeText_of_lookup new hlookup
  have hcarry := e.links.carry_put (.text new) (FileSystem.canonical?_of_lookup hlookup)
    (FileSystem.lookup_eq_ok_iff.mp hlookup).2
  unfold commit
  split
  · next hdry => exact .inl ⟨hdry, rfl⟩
  · split
    · next cause hrefused => exact .inr (.inl ⟨⟨_, rfl⟩, rfl⟩)
    · next written hwritten =>
      refine .inr (.inr ?_)
      rw [hwritten] at hwrite
      split at hwrite
      · cases hwrite
        exact hcarry
      · cases hwrite

/-! ## What can become of an item -/

variable {path : Path} {w : World}

/-- The answer to a processed change is that to its commitment. -/
theorem process_of_commit {content : Text} {change : Change} {v : World}
    (hprocess : e.process operation path w =
      match e.commit operation path change.text (e.putDiff path content change.text v) with
      | (.error failure, w) => (.error failure, w)
      | (.ok (), w) => (.ok change.action, w)) :
    (e.process operation path w).1 =
        ((e.commit operation path change.text (e.putDiff path content change.text v)).1.map
          fun _ => change.action) ∧
      (e.process operation path w).2 =
        (e.commit operation path change.text (e.putDiff path content change.text v)).2 := by
  rw [hprocess]
  generalize e.commit operation path change.text (e.putDiff path content change.text v) = committed
  obtain ⟨answer, after⟩ := committed
  cases answer <;> exact ⟨rfl, rfl⟩

/-- The line about an item is about its path. -/
theorem path_of_handle {item : Except Failure Path} {w w' : World} {file : FileReport}
    (hhandle : e.handle operation item w = (.ok file, w')) : file.path = subject item := by
  have hrecord : ∀ {path failure v}, e.record path failure v = (.ok file, w') →
      file.path = path := by
    intro path failure v hrecord
    unfold record at hrecord
    split at hrecord
    · cases hrecord
      rfl
    · cases hrecord
  unfold handle at hhandle
  split at hhandle
  · exact hrecord hhandle
  · split at hhandle
    · cases hhandle
      rfl
    · exact hrecord hhandle

/-- What has not failed has been processed. -/
theorem process_of_handle {file : FileReport}
    (hhandle : (e.handle operation (.ok path) w).1 = .ok file)
    (hunfailed : file.action ≠ .failed) :
    (e.process operation path w).1 = .ok file.action := by
  unfold handle at hhandle
  dsimp only at hhandle
  generalize e.process operation path w = processed at hhandle ⊢
  obtain ⟨answer, v⟩ := processed
  cases answer with
  | ok action =>
      obtain rfl := Except.ok.inj hhandle
      rfl
  | error failure =>
      have hrecord := (e.record_reply path failure v).1
      rw [hhandle] at hrecord
      split at hrecord
      · exact absurd (congrArg FileReport.action (Except.ok.inj hrecord)) hunfailed
      · cases hrecord

/-- A location is a name of the diff file. -/
def DiffAt (e : Engine) (fs : FileSystem) : Location → Prop := e.links.Spread (e.diff.Owns fs)

/-- Putting out a diff changes the names of the diff file at most, and they keep
agreeing. -/
theorem putDiff_spreads (hopens : e.diff.Opens w.fs) (hholds : e.links.Holds w.fs) (path : Path)
    (old new : Text) :
    Beside (e.DiffAt w.fs) w.fs (e.putDiff path old new w).fs ∧
      e.links.Holds (e.putDiff path old new w).fs := by
  obtain hsame | ⟨l, held, content, hown, hheld, hwritten⟩ := putDiff_cases hopens path old new
  · exact ⟨.of_eq hsame, hsame ▸ hholds⟩
  · rw [hwritten]
    exact ⟨HardLinks.beside_write hown hheld, hholds.write hheld⟩

/-- **What handling an item can do.**  Names that agree keep agreeing.  Apart from the
diff file, only the file of the item can change, under all of its names, and then to
what the operation makes of its text.  An answer that is no failure is the action of
the change which the operation makes of this text. -/
structure Treats (e : Engine) (operation : Operation) (item : Except Failure Path)
    (fs gs : FileSystem) (answer : Action → Prop) : Prop where
  outline : gs.outline = fs.outline
  holds : e.links.Holds gs
  files : ∀ k, ¬ e.DiffAt fs k → gs.find? k = fs.find? k ∨
    ∃ path l content change, item = .ok path ∧ fs.canonical? path = some l ∧
      e.links.Names l k ∧ fs.find? k = some (.file (.text content)) ∧
      e.transform operation content = .ok (some change) ∧
      gs.find? k = some (.file (.text change.text))
  action : ∀ a, answer a → a ≠ .failed → ∃ path l content change, item = .ok path ∧
    fs.canonical? path = some l ∧ fs.find? l = some (.file (.text content)) ∧
    e.transform operation content = .ok change ∧ a = actionOf change ∧
    (e.dryRun = false → gs.find? l = some (.file (.text (textAfter content change))))

/-- What does nothing to the disk does nothing about an item that is not to be changed. -/
theorem Treats.of_unwritten {item : Except Failure Path} {fs : FileSystem}
    (hholds : e.links.Holds fs) {answer : Action → Prop}
    (haction : ∀ a, answer a → a ≠ .failed → ∃ path l content, item = .ok path ∧
      fs.canonical? path = some l ∧ fs.find? l = some (.file (.text content)) ∧
      e.transform operation content = .ok none ∧ a = .unchanged) :
    e.Treats operation item fs fs answer where
  outline := rfl
  holds := hholds
  files := fun _ _ => .inl rfl
  action := by
    intro a ha hunfailed
    obtain ⟨path, l, content, rfl, hl, hfile, htransform, rfl⟩ := haction a ha hunfailed
    exact ⟨path, l, content, none, rfl, hl, hfile, htransform, rfl, fun _ => hfile⟩

section

variable (operation) (hpure : e.detector.edits = []) (hopens : e.diff.Opens w.fs)
  (hholds : e.links.Holds w.fs)

include hpure hopens hholds

/-- **What processing a file can do.** -/
theorem process_treats (path : Path) :
    e.Treats operation (.ok path) w.fs (e.process operation path w).2.fs
      fun a => (e.process operation path w).1 = .ok a := by
  obtain ⟨answer, hprospect, hunwritten, hanswer, hidle⟩ |
      ⟨content, change, v, hread, hprospect, hidle, hprocess⟩ :=
    process_cases operation hpure path w
  · -- Nothing is to be written.
    rw [hidle.fs, hanswer]
    refine .of_unwritten hholds fun a ha _ => ?_
    cases answer with
    | error failure => cases ha
    | ok change =>
        cases change with
        | some change => exact absurd rfl (hunwritten change)
        | none =>
            rw [prospect] at hprospect
            split at hprospect
            · cases hprospect
            · next content hread =>
              obtain ⟨l, hlookup, _⟩ := FileSystem.readText_eq_ok_iff.mp hread
              exact ⟨path, l, content, rfl, FileSystem.canonical?_of_lookup hlookup,
                (FileSystem.lookup_eq_ok_iff.mp hlookup).2, hprospect, (Except.ok.inj ha).symm⟩
  · obtain ⟨l, hlookup, _⟩ := FileSystem.readText_eq_ok_iff.mp hread
    obtain ⟨hlocate, hfile⟩ := FileSystem.lookup_eq_ok_iff.mp hlookup
    have hl := FileSystem.canonical?_of_lookup hlookup
    have htransform : e.transform operation content = .ok (some change) := by
      simpa [prospect, hread] using hprospect
    obtain ⟨hanswer, hafter⟩ := process_of_commit hprocess
    obtain ⟨hbeside, hnow⟩ := putDiff_spreads (w := v) (hidle.fs ▸ hopens) (hidle.fs ▸ hholds)
      path content change.text
    rw [hidle.fs] at hbeside
    generalize e.putDiff path content change.text v = v' at hanswer hafter hbeside hnow
    obtain ⟨held, hheld⟩ := FileSystem.file_of_outline_eq hbeside.outline hfile
    have hlookup' : v'.fs.lookup .target path = .ok (l, .file held) := by
      refine FileSystem.lookup_eq_ok_iff.mpr ⟨?_, hheld⟩
      rw [FileSystem.locate_of_outline_eq hbeside.outline, hlocate]
    have haction : ∀ a, (e.process operation path w).1 = .ok a →
        (∃ u, (e.commit operation path change.text v').1 = .ok u) ∧ change.action = a := by
      intro a ha
      rw [hanswer] at ha
      cases hcommit : (e.commit operation path change.text v').1 with
      | error failure =>
          rw [hcommit] at ha
          cases ha
      | ok u =>
          rw [hcommit] at ha
          exact ⟨⟨u, rfl⟩, Except.ok.inj ha⟩
    rw [hafter]
    obtain ⟨hdry, hsame⟩ | ⟨⟨failure, hfailed⟩, hsame⟩ | hwritten :=
      commit_cases operation change.text hlookup'
    · rw [hsame]
      refine ⟨hbeside.outline, hnow, fun k hk => .inl (hbeside.same k hk), fun a ha _ => ?_⟩
      exact ⟨path, l, content, some change, rfl, hl, hfile, htransform, (haction a ha).2.symm,
        fun hreal => absurd hdry (by rw [hreal]; exact Bool.noConfusion)⟩
    · rw [hsame]
      refine ⟨hbeside.outline, hnow, fun k hk => .inl (hbeside.same k hk), fun a ha _ => ?_⟩
      obtain ⟨⟨u, hdone⟩, _⟩ := haction a ha
      cases hfailed.symm.trans hdone
    · rw [hwritten]
      refine ⟨?_, hnow.write hheld, fun k hk => ?_, fun a ha _ => ?_⟩
      · rw [e.links.outline_write hheld, hbeside.outline]
      · by_cases hnames : e.links.Names l k
        · exact .inr ⟨path, l, content, change, rfl, hl, hnames, hholds.find? hnames hfile,
            htransform, HardLinks.find?_write_of_names hnow hheld hnames⟩
        · exact .inl ((HardLinks.find?_write_of_not_names hnames).trans (hbeside.same k hk))
      · exact ⟨path, l, content, some change, rfl, hl, hfile, htransform, (haction a ha).2.symm,
          fun _ => HardLinks.find?_write_self (FileSystem.ne_nil_of_file hheld)⟩

/-- **What handling an item can do**, be it a file or a failure. -/
theorem handle_treats (item : Except Failure Path) :
    e.Treats operation item w.fs (e.handle operation item w).2.fs
      fun a => ∃ file, (e.handle operation item w).1 = .ok file ∧ file.action = a := by
  cases item with
  | error failure =>
      obtain ⟨hanswer, hidle⟩ := e.handle_failure operation failure w
      rw [hidle.fs, hanswer]
      refine .of_unwritten hholds fun a ha hunfailed => absurd ?_ hunfailed
      obtain ⟨file, hreply, rfl⟩ := ha
      rw [eq_line_of_reply hreply, line_of_error rfl]
  | ok path =>
      have htreats := process_treats operation hpure hopens hholds path
      obtain ⟨_, hidle⟩ := e.handle_of_process operation path w
      rw [hidle.fs]
      refine ⟨htreats.outline, htreats.holds, htreats.files, fun a ha hunfailed => ?_⟩
      obtain ⟨file, hfile, rfl⟩ := ha
      exact htreats.action _ (process_of_handle hfile hunfailed) hunfailed

end

end Engine

end LicenseHeaders

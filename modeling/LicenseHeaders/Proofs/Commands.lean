import LicenseHeaders.CommandLine.Execution
import LicenseHeaders.Proofs.Preparation
import LicenseHeaders.Proofs.Spreading

/-!
# Commands that fail before the first file

A command prepares more than a call does: it asks for the current directory,
loads the settings, merges them with its options, loads the headers and empties
its diff file, in this order, and then builds its engine and looks at the roots.
What it prints when it fails tells the steps apart, since each of them is worded in
its own way.

* `Options.Fault`, `Options.Sound` — what can be wrong before the diff file is
  emptied, and what has been loaded when nothing is;
* `Options.plan_cases` — all that preparing a command can come to;
* `Failure.eq_directoryMissing`, `Fault.attempt_ne` — the wordings;
* `faults_found_first` — what becomes of calls and commands with faults.
-/

namespace LicenseHeaders

/-! ## Tasks -/

namespace Task

/-- The second task starts from the world that the first one leaves, unless that one
fails. -/
theorem bind_apply {α β : Type} (task : Task α) (next : α → Task β) (w : World) :
    (task >>= next) w = match task w with
      | (.ok a, w) => next a w
      | (.error trouble, w) => (.error trouble, w) := by
  change ExceptT.bindCont next (task w).1 (task w).2 = _
  rcases task w with ⟨answer, w'⟩
  cases answer <;> rfl

section

variable {α β : Type} {task : Task α} {next : α → Task β} {w w' v : World} {trouble : Trouble}

theorem bind_of_ok {a : α} (hfirst : task w = (.ok a, v)) : (task >>= next) w = next a v := by
  rw [bind_apply, hfirst]

theorem bind_of_error (hfirst : task w = (.error trouble, v)) :
    (task >>= next) w = (.error trouble, v) := by
  rw [bind_apply, hfirst]

/-- A task that goes on with another one fails as the one or as the other. -/
theorem bind_error (hfailed : (task >>= next) w = (.error trouble, w')) :
    task w = (.error trouble, w') ∨
      ∃ a v, task w = (.ok a, v) ∧ next a v = (.error trouble, w') := by
  rcases hfirst : task w with ⟨answer, v⟩
  cases answer with
  | ok a => exact .inr ⟨a, v, rfl, (bind_of_ok hfirst).symm.trans hfailed⟩
  | error other =>
      cases (bind_of_error hfirst : (task >>= next) w = _).symm.trans hfailed
      exact .inl rfl

end

/-- A step of a run fails as a task with the trouble of its failure. -/
theorem ofStep_error {α : Type} {trouble : Failure → Trouble}
    {step : World → Except Failure α × World} {w w' : World} {found : Trouble}
    (hfailed : ofStep trouble step w = (.error found, w')) :
    ∃ failure, found = trouble failure ∧ step w = (.error failure, w') := by
  unfold ofStep at hfailed
  split at hfailed
  · cases hfailed
  · next failure _ hstep =>
    cases hfailed
    exact ⟨failure, rfl, hstep⟩

/-- Building an engine changes nothing on the disk. -/
theorem fs_of_start {trouble : Failure → Trouble} {plan : Plan} {w w' : World} {e : Engine}
    (hstart : ofStep trouble plan.start w = (.ok e, w')) : w'.fs = w.fs := by
  unfold ofStep Plan.start at hstart
  cases hengine : plan.engine with
  | error failure =>
      simp only [hengine] at hstart
      cases hstart
  | ok engine =>
      simp only [hengine] at hstart
      cases hstart
      rfl

theorem ofOutput_of_ok {change : FileSystem → Except OutputFailure FileSystem} {w : World}
    {fs : FileSystem} (hchange : change w.fs = .ok fs) :
    ofOutput change w = (.ok (), { w with fs := fs }) := by
  simp only [ofOutput, hchange]

/-- An output that fails leaves the world as it was. -/
theorem ofOutput_of_error {change : FileSystem → Except OutputFailure FileSystem} {w : World}
    {failure : OutputFailure} (hchange : change w.fs = .error failure) :
    ofOutput change w = (.error (.ofOutput failure), w) := by
  simp only [ofOutput, hchange]

end Task

/-! ## Preparing a command -/

namespace Options

variable {o : Options} {environment : Environment} {fs : FileSystem}

/-- What can be wrong with a command before it empties its diff file, and the
trouble that is: the current directory is gone, the settings cannot be loaded, the
selection that they make with the options is invalid, or a header cannot be
loaded. -/
inductive Fault (o : Options) (environment : Environment) (fs : FileSystem) : Trouble → Prop where
  | astray {cause : Cause} (hastray : fs.currentPath = .error cause) :
      Fault o environment fs ⟨"Failed to get current directory", [cause.message]⟩
  | settings {path : Path} {failure : SettingsFailure}
      (hload : (LicenseHeaders.loadSettings fs (o.settingsSource environment fs.current.path)).1 =
        .error (path, failure)) :
      Fault o environment fs (.ofSettings path failure)
  | selection {settings : SelectionSettings} {invalid : InvalidSetting}
      (hload : (LicenseHeaders.loadSettings fs (o.settingsSource environment fs.current.path)).1 =
        .ok settings)
      (hmerge : (settings.merge { pattern := o.pattern, exclude := o.exclude }).2 =
        .error invalid) :
      Fault o environment fs ⟨"Invalid selection options", [invalid.message]⟩
  | header {source : Path} {failure : Failure}
      (hfirst : FirstFault (fun source => ∃ t, loadHeader fs source = .ok t) o.licenses source)
      (hload : loadHeader fs source = .error failure) :
      Fault o environment fs (.whileTrying "Failed to load license headers" failure)

/-- Nothing is wrong with a command before it empties its diff file: it knows the
current directory, and has loaded settings that make a valid selection with its
options, and the texts of its headers. -/
structure Sound (o : Options) (environment : Environment) (fs : FileSystem)
    (settings : SelectionSettings) (texts : List Text) : Prop where
  located : fs.currentPath = .ok fs.current.path
  loaded : (LicenseHeaders.loadSettings fs (o.settingsSource environment fs.current.path)).1 =
    .ok settings
  valid : (settings.merge { pattern := o.pattern, exclude := o.exclude }).2 = .ok ()
  headers : (loadTexts fs o.licenses).1 = .ok texts

/-- Nothing is at fault then. -/
theorem Sound.not_fault {settings : SelectionSettings} {texts : List Text}
    (hsound : o.Sound environment fs settings texts) (trouble : Trouble) :
    ¬ o.Fault environment fs trouble := by
  intro hfault
  cases hfault with
  | astray hother => cases hsound.located.symm.trans hother
  | settings hother => cases hsound.loaded.symm.trans hother
  | selection hother hinvalid =>
      cases hsound.loaded.symm.trans hother
      cases hsound.valid.symm.trans hinvalid
  | header hfirst hother =>
      cases hsound.headers.symm.trans (loadTexts_eq_error_iff.mpr ⟨_, hother, hfirst⟩)

/-- The plan of a command that has loaded settings and headers. -/
def planWith (o : Options) (links : HardLinks) (settings : SelectionSettings)
    (texts : List Text) : Plan where
  headers := ⟨texts⟩
  criteria := (settings.merge { pattern := o.pattern, exclude := o.exclude }).1.criteria
  diff := o.diffOutput
  links := links
  dryRun := o.dryRun
  keepGoing := o.keepGoing

section

variable (o environment) (w : World)

/-- The current directory is known, or is at fault. -/
theorem currentPath_cases :
    (∃ trouble, Task.currentPath w = (.error trouble, w) ∧ o.Fault environment w.fs trouble) ∨
      w.fs.currentPath = .ok w.fs.current.path ∧
        Task.currentPath w = (.ok w.fs.current.path, w) := by
  by_cases hthere : w.fs.isDirectory w.fs.current = true
  · have hpath : w.fs.currentPath = .ok w.fs.current.path := if_pos hthere
    exact .inr ⟨hpath, by rw [Task.currentPath, hpath]⟩
  · have hpath : w.fs.currentPath = .error .noSuchEntry := if_neg hthere
    exact .inl ⟨_, by rw [Task.currentPath, hpath], .astray hpath⟩

/-- The settings are loaded, or are at fault. -/
theorem loadSettings_cases :
    ∃ events, (∃ trouble, o.loadSettings environment w.fs.current.path w =
          (.error trouble, w.tellAll events) ∧ o.Fault environment w.fs trouble) ∨
      ∃ settings, o.loadSettings environment w.fs.current.path w =
          (.ok settings, w.tellAll events) ∧
        (LicenseHeaders.loadSettings w.fs
          (o.settingsSource environment w.fs.current.path)).1 = .ok settings := by
  have hfault : ∀ path failure, (LicenseHeaders.loadSettings w.fs
      (o.settingsSource environment w.fs.current.path)).1 = .error (path, failure) →
        o.Fault environment w.fs (.ofSettings path failure) := fun _ _ => .settings
  unfold loadSettings
  dsimp only
  generalize LicenseHeaders.loadSettings w.fs
    (o.settingsSource environment w.fs.current.path) = loaded at hfault ⊢
  obtain ⟨answer, events⟩ := loaded
  refine ⟨events, ?_⟩
  cases answer with
  | error fault => exact .inl ⟨_, rfl, hfault _ _ rfl⟩
  | ok settings => exact .inr ⟨settings, rfl, rfl⟩

/-- The selection is valid, or is at fault. -/
theorem chooseCriteria_cases (settings : SelectionSettings) :
    (∃ invalid, (settings.merge { pattern := o.pattern, exclude := o.exclude }).2 = .error invalid ∧
        o.chooseCriteria settings w =
          (.error ⟨"Invalid selection options", [invalid.message]⟩, w)) ∨
      ∃ events, (settings.merge { pattern := o.pattern, exclude := o.exclude }).2 = .ok () ∧
        o.chooseCriteria settings w =
          (.ok (settings.merge { pattern := o.pattern, exclude := o.exclude }).1.criteria,
            w.tellAll events) := by
  unfold chooseCriteria
  generalize settings.merge { pattern := o.pattern, exclude := o.exclude } = merged
  obtain ⟨settings, answer⟩ := merged
  cases answer with
  | error invalid => exact .inl ⟨invalid, rfl, rfl⟩
  | ok valid => exact .inr ⟨_, rfl, rfl⟩

/-- The headers are loaded, or one of them is at fault. -/
theorem loadHeaders_cases :
    ∃ events, (∃ failure, (loadTexts w.fs o.licenses).1 = .error failure ∧
        o.loadHeaders w =
          (.error (.whileTrying "Failed to load license headers" failure), w.tellAll events)) ∨
      ∃ texts, (loadTexts w.fs o.licenses).1 = .ok texts ∧
        o.loadHeaders w = (.ok ⟨texts⟩, w.tellAll events) := by
  unfold loadHeaders LicenseHeaders.loadHeaders
  dsimp only
  generalize loadTexts w.fs o.licenses = loaded
  obtain ⟨answer, events⟩ := loaded
  cases answer with
  | error failure => exact ⟨_, .inl ⟨failure, rfl, rfl⟩⟩
  | ok texts => exact ⟨_, .inr ⟨texts, rfl, rfl⟩⟩

end

/-- **All that preparing a command can come to.**  A fault ends it and nothing has
been changed; without one, the diff file is emptied, if that can be done, and
the plan is the one for what has been loaded. -/
theorem plan_cases (o : Options) (environment : Environment) (links : HardLinks) (w : World) :
    (∃ trouble w', o.plan environment links w = (.error trouble, w') ∧ w'.fs = w.fs ∧
      o.Fault environment w.fs trouble) ∨
      ∃ settings texts, o.Sound environment w.fs settings texts ∧
        ((∃ failure w', o.plan environment links w = (.error (.ofOutput failure), w') ∧
            o.emptyDiff links w.fs = .error failure) ∨
          ∃ w', o.plan environment links w = (.ok (o.planWith links settings texts), w') ∧
            o.emptyDiff links w.fs = .ok w'.fs) := by
  unfold plan
  obtain ⟨trouble, hasked, hfault⟩ | ⟨hlocated, hasked⟩ := currentPath_cases o environment w
  · exact .inl ⟨trouble, _, Task.bind_of_error hasked, rfl, hfault⟩
  rw [Task.bind_of_ok hasked]
  obtain ⟨events, ⟨trouble, hload, hfault⟩ | ⟨settings, hload, hsettings⟩⟩ :=
    loadSettings_cases o environment w
  · exact .inl ⟨trouble, _, Task.bind_of_error hload, rfl, hfault⟩
  rw [Task.bind_of_ok hload]
  obtain ⟨invalid, hmerge, hchoose⟩ | ⟨told, hmerge, hchoose⟩ :=
    chooseCriteria_cases o (w.tellAll events) settings
  · exact .inl ⟨_, _, Task.bind_of_error hchoose, rfl, .selection hsettings hmerge⟩
  rw [Task.bind_of_ok hchoose]
  obtain ⟨remarks, ⟨failure, htexts, hheaders⟩ | ⟨texts, htexts, hheaders⟩⟩ :=
    loadHeaders_cases o ((w.tellAll events).tellAll told)
  · obtain ⟨source, hsource, hfirst⟩ := loadTexts_eq_error_iff.mp htexts
    exact .inl ⟨_, _, Task.bind_of_error hheaders, rfl, .header hfirst hsource⟩
  rw [Task.bind_of_ok hheaders]
  refine .inr ⟨settings, texts, ⟨hlocated, hsettings, hmerge, htexts⟩, ?_⟩
  cases hinit : o.emptyDiff links w.fs with
  | error failure =>
      exact .inl ⟨failure, _, Task.bind_of_error (Task.ofOutput_of_error hinit), rfl⟩
  | ok emptied => exact .inr ⟨_, Task.bind_of_ok (Task.ofOutput_of_ok hinit), rfl⟩

end Options

namespace Options

variable {o : Options} {links : HardLinks} {fs emptied : FileSystem}

/-- A diff file is emptied by writing the empty text to it. -/
theorem emptyDiff_eq_ok (hemptied : o.emptyDiff links fs = .ok emptied) :
    o.savedDiff = none ∧ emptied = fs ∨ ∃ saved written, o.savedDiff = some saved ∧
      fs.writeText saved [] = .ok written ∧ emptied = links.carry saved written := by
  unfold emptyDiff DiffOutput.init at hemptied
  split at hemptied
  · next hunsaved =>
    cases hemptied
    exact .inl ⟨hunsaved, by rw [DiffOutput.carry, hunsaved]⟩
  · next saved hsaved =>
    split at hemptied
    · next written hwrite =>
      cases hemptied
      exact .inr ⟨saved, written, hsaved, hwrite, by rw [DiffOutput.carry, hsaved]⟩
    · cases hemptied

/-- The diff file is the one thing that emptying it changes. -/
theorem emptied_eq (hemptied : o.emptyDiff links fs = .ok emptied) :
    emptied = fs ∨ ∃ saved l, o.savedDiff = some saved ∧ fs.locate .creation saved = .ok l ∧
      emptied = links.write fs l (.text []) := by
  obtain ⟨_, hsame⟩ | ⟨saved, written, hsaved, hwrite, rfl⟩ := emptyDiff_eq_ok hemptied
  · exact .inl hsame
  · obtain ⟨l, _, hlocate, _, hwritten⟩ := links.carry_modified hwrite
    exact .inr ⟨saved, l, hsaved, hlocate, hwritten⟩

/-- A diff file can only not be created. -/
theorem emptyDiff_eq_error {failure : OutputFailure}
    (hfailed : o.emptyDiff links fs = .error failure) :
    ∃ path cause, failure = .createDiff path cause := by
  unfold emptyDiff DiffOutput.init at hfailed
  split at hfailed
  · cases hfailed
  · next path _ =>
    split at hfailed
    · cases hfailed
    · next cause _ => exact ⟨path, cause, (Except.error.inj hfailed).symm⟩

end Options

/-! ## Wordings -/

/-- What a run attempts once all has been prepared. -/
def Operation.attempt (operation : Operation) : String :=
  s!"Failed to {operation.word} license headers"

/-- A letter at the beginning of a longer text. -/
theorem letter_append {s first rest : String} {i : Nat} {c : Char} (hs : s = first ++ rest)
    (hletter : first.toList[i]? = some c) : s.toList[i]? = some c := by
  obtain ⟨hi, _⟩ := List.getElem?_eq_some_iff.mp hletter
  rw [hs, String.toList_append, List.getElem?_append_left hi, hletter]

/-- How the wording of a failure begins. -/
def Failure.opening : Failure → String
  | .headerMissing _ => "License header file not found: "
  | .directoryMissing _ => "Directory not found: "
  | .file _ _ _ => "Failed to "
  | .noHeader => "At least one license header is required to synchronize"
  | .badPattern _ _ => "Invalid file name pattern '"
  | .traversal _ _ => "Failed to traverse "

/-- A message begins with the opening of its kind of failure. -/
theorem Failure.message_eq (failure : Failure) :
    ∃ rest, failure.message = failure.opening ++ rest := by
  cases failure with
  | headerMissing | directoryMissing => exact ⟨_, rfl⟩
  | noHeader => exact ⟨"", String.append_empty.symm⟩
  | file task path cause =>
      refine ⟨task.words ++ (" " ++ (path.display ++ (": " ++ cause.message))), ?_⟩
      change "Failed to " ++ task.words ++ " " ++ path.display ++ ": " ++ cause.message =
        "Failed to " ++ _
      simp only [String.append_assoc]
  | badPattern pattern fault =>
      refine ⟨String.ofList pattern ++ ("': " ++ fault.message), ?_⟩
      change "Invalid file name pattern '" ++ String.ofList pattern ++ "': " ++ fault.message =
        "Invalid file name pattern '" ++ _
      simp only [String.append_assoc]
  | traversal path cause =>
      refine ⟨path.display ++ (": " ++ traversalDetail path cause), ?_⟩
      change "Failed to traverse " ++ path.display ++ ": " ++ traversalDetail path cause =
        "Failed to traverse " ++ _
      simp only [String.append_assoc]

/-- The first letter of what is said of a failure. -/
def Failure.initial : Failure → Char
  | .headerMissing _ => 'L'
  | .directoryMissing _ => 'D'
  | .noHeader => 'A'
  | .badPattern _ _ => 'I'
  | .file _ _ _ | .traversal _ _ => 'F'

/-- A message begins with the initial of its kind of failure. -/
theorem Failure.letter_message (failure : Failure) :
    failure.message.toList[0]? = some failure.initial := by
  obtain ⟨rest, hmessage⟩ := failure.message_eq
  refine letter_append hmessage ?_
  cases failure <;> simp only [opening, initial] <;> decide

/-- A root that leads to no directory is told apart from all other failures. -/
theorem Failure.eq_directoryMissing {failure : Failure} {path : Path}
    (hmessage : failure.message = (Failure.directoryMissing path).message) :
    failure = .directoryMissing path := by
  have hinitial : failure.initial = 'D' := by
    have hletter := failure.letter_message
    rw [hmessage, letter_message] at hletter
    exact (Option.some.inj hletter).symm
  cases failure with
  | directoryMissing other =>
      have htext : ("Directory not found: " ++ other.display).toList =
          ("Directory not found: " ++ path.display).toList := congrArg String.toList hmessage
      rw [String.toList_append, String.toList_append] at htext
      have hdisplay := List.append_cancel_left htext
      rw [Path.display, Path.display, String.toList_ofList, String.toList_ofList] at hdisplay
      rw [show other = path from congrArg Path.mk hdisplay]
  | headerMissing | file | noHeader | badPattern | traversal => simp [initial] at hinitial

/-- The attempts before a run are worded otherwise: the eleventh characters
differ. -/
theorem Operation.attempt_ne (operation : Operation) {attempt : String}
    (hletter : attempt.toList[10]? = some 'l' ∨ attempt.toList[10]? = some 'c' ∨
      attempt.toList[10]? = some 'g') :
    attempt ≠ operation.attempt := by
  rintro rfl
  cases operation with
  | synchronize =>
      change ("Failed to synchronize license headers" : String).toList[10]? = _ ∨
        ("Failed to synchronize license headers" : String).toList[10]? = _ ∨
          ("Failed to synchronize license headers" : String).toList[10]? = _ at hletter
      revert hletter
      decide
  | remove =>
      change ("Failed to remove license headers" : String).toList[10]? = _ ∨
        ("Failed to remove license headers" : String).toList[10]? = _ ∨
          ("Failed to remove license headers" : String).toList[10]? = _ at hletter
      revert hletter
      decide

namespace Trouble

variable {operation : Operation}

/-- A failure to load settings is not announced as an operation is. -/
theorem ofSettings_ne {path : Path} {failure : SettingsFailure} :
    (ofSettings path failure).attempt ≠ operation.attempt :=
  operation.attempt_ne
    (.inl (letter_append (rfl : _ = "Failed to load config from " ++ path.display) (by decide)))

theorem createDiff_ne {path : Path} {cause : Cause} :
    (ofOutput (.createDiff path cause)).attempt ≠ operation.attempt :=
  operation.attempt_ne
    (.inr (.inl
      (letter_append (rfl : _ = "Failed to create diff file: " ++ path.display) (by decide))))

theorem badPattern_ne {pattern : Text} {fault : Pattern.Fault} :
    (ofFailure (.badPattern pattern fault)).attempt ≠ operation.attempt := by
  obtain ⟨rest, hmessage⟩ := (Failure.badPattern pattern fault).message_eq
  have hletter : "Invalid file name pattern '".toList[10]? = some 'l' := by decide
  exact operation.attempt_ne (.inl (letter_append hmessage hletter))

end Trouble

/-! ## Commands -/

/-- A fault is worded otherwise than the failure of a run. -/
theorem Options.Fault.attempt_ne {o : Options} {environment : Environment} {fs : FileSystem}
    {trouble : Trouble} (hfault : o.Fault environment fs trouble) (operation : Operation) :
    trouble.attempt ≠ operation.attempt := by
  cases hfault with
  | astray =>
      have hletter : "Failed to get current directory".toList[10]? = some 'g' := by decide
      exact operation.attempt_ne (.inr (.inr hletter))
  | settings => exact Trouble.ofSettings_ne
  | selection =>
      have hletter : "Invalid selection options".toList[10]? = some 'l' := by decide
      exact operation.attempt_ne (.inl hletter)
  | header =>
      have hletter : "Failed to load license headers".toList[10]? = some 'l' := by decide
      exact operation.attempt_ne (.inl hletter)

namespace Request

variable {r : Request} {environment : Environment} {links : HardLinks} {w w' : World}
  {trouble : Trouble}

/-- An engine can only not be built for want of a pattern. -/
theorem start_error {plan : Plan}
    (hstart : Task.ofStep Trouble.ofFailure plan.start w = (.error trouble, w')) :
    ∃ pattern fault, trouble = .ofFailure (.badPattern pattern fault) := by
  obtain ⟨failure, rfl, hfailed⟩ := Task.ofStep_error hstart
  unfold Plan.start Plan.engine at hfailed
  cases hfilters : plan.criteria.filters with
  | ok filters =>
      simp only [hfilters] at hfailed
      cases hfailed
  | error fault =>
      simp only [hfilters] at hfailed
      cases hfailed
      exact ⟨_, fault, rfl⟩

/-- A command with a fault ends with one, and leaves the disk as it was. -/
theorem perform_of_fault (links : HardLinks)
    (hfault : r.options.Fault environment w.fs trouble) :
    ∃ found w', r.perform environment links w = (.error found, w') ∧ w'.fs = w.fs ∧
      r.options.Fault environment w.fs found := by
  obtain ⟨found, w', hplan, hfs, hfound⟩ | ⟨_, _, hsound, _⟩ :=
    r.options.plan_cases environment links w
  · exact ⟨found, w', Task.bind_of_error hplan, hfs, hfound⟩
  · exact absurd hfault (hsound.not_fault trouble)

/-- **A command that misses a root** has emptied its diff file and done nothing
else. -/
theorem perform_rootless {path : Path}
    (hperform : r.perform environment links w =
      (.error (.whileTrying r.operation.attempt (.directoryMissing path)), w')) :
    r.options.emptyDiff links w.fs = .ok w'.fs ∧
      FirstFault (fun root => w'.fs.leadsToDirectory root = true) r.options.directories path := by
  obtain ⟨found, v, hplan, _, hfound⟩ |
      ⟨settings, texts, _, ⟨failure, v, hplan, hinit⟩ | ⟨v, hplan, hinit⟩⟩ :=
    r.options.plan_cases environment links w
  · have hsame := Prod.mk.inj ((Task.bind_of_error hplan).symm.trans hperform)
    obtain rfl := Except.error.inj hsame.1
    exact absurd rfl (hfound.attempt_ne r.operation)
  · have hsame := Prod.mk.inj ((Task.bind_of_error hplan).symm.trans hperform)
    obtain ⟨saved, cause, rfl⟩ := Options.emptyDiff_eq_error hinit
    exact absurd (congrArg Trouble.attempt (Except.error.inj hsame.1)) Trouble.createDiff_ne
  · rcases Task.bind_error ((Task.bind_of_ok hplan).symm.trans hperform) with
      hstart | ⟨engine, u, hstart, hrun⟩
    · obtain ⟨pattern, fault, htrouble⟩ := start_error hstart
      exact absurd (congrArg Trouble.attempt htrouble.symm) Trouble.badPattern_ne
    · obtain ⟨failure, htrouble, hran⟩ := Task.ofStep_error hrun
      obtain rfl : failure = .directoryMissing path :=
        Failure.eq_directoryMissing (List.cons.inj (Trouble.mk.inj htrouble).2).1.symm
      obtain ⟨rfl, ⟨_, hother⟩ | ⟨_, hroots⟩⟩ := Engine.run_preliminary hran rfl
      · cases hother
      · obtain ⟨root, hroot, hfirst⟩ := Walk.start_eq_error_iff.mp hroots
        cases hroot
        have hfs : w'.fs = v.fs := Task.fs_of_start hstart
        exact ⟨hinit.trans (congrArg Except.ok hfs.symm), hfirst⟩

end Request

/-- A command that ends in trouble says so and leaves the disk as it is then. -/
theorem execute_of_trouble {environment : Environment} {links : HardLinks} {fs : FileSystem}
    {arguments : List Text} {request : Request}
    (hrequest : Request.ofArguments arguments = .ok request)
    {trouble : Trouble} {w' : World}
    (hperform : request.perform environment links { fs := fs } = (.error trouble, w'))
    (timing : Timing) :
    ∃ told, execute environment timing fs arguments links =
      ⟨1, told ++ [(.err, trouble.text)], w'.fs⟩ := by
  unfold execute
  rw [hrequest]
  dsimp only
  rw [hperform]
  exact ⟨_, rfl⟩

/-- **What can be checked before the first file is checked before.**

A call with a fault fails with it.  A call that fails with a missing or unreadable
header, without the header it needs, with an invalid pattern or a missing
directory has such a fault: the header that it names is the first source that
cannot be loaded, and the directory is the first root that is none.  It has
written nothing.

A command that has lost its current directory, whose settings or headers cannot be
loaded, or whose selection is invalid, ends with one of these faults and leaves
all files as they were.  One that ends because a root leads to no directory names
the first such root, and has emptied its diff file under all of its names, if it
has one, and done nothing else. -/
theorem faults_found_first :
    (∀ (operation : Operation) (sources roots : List Path) (w : World) (links : HardLinks),
      (∀ failure, CallFault w.fs operation sources roots failure →
        ∃ w', runFromSources operation sources roots w links = (.error failure, w')) ∧
      ∀ failure w', runFromSources operation sources roots w links = (.error failure, w') →
        failure.isPreliminary = true →
          CallFault w.fs operation sources roots failure ∧ w'.fs = w.fs ∧
            w'.writes = w.writes) ∧
    ∀ (environment : Environment) (timing : Timing) (links : HardLinks) (fs : FileSystem)
      (arguments : List Text) (request : Request), Request.ofArguments arguments = .ok request →
      ((∃ trouble, request.options.Fault environment fs trouble) →
        ∃ trouble told, request.options.Fault environment fs trouble ∧
          execute environment timing fs arguments links =
            ⟨1, told ++ [(.err, trouble.text)], fs⟩) ∧
      ∀ path w', request.perform environment links { fs := fs } =
          (.error (.whileTrying request.operation.attempt (.directoryMissing path)), w') →
        FirstFault (fun root => w'.fs.leadsToDirectory root = true) request.options.directories
            path ∧
          (∃ told, execute environment timing fs arguments links = ⟨1, told, w'.fs⟩) ∧
          (w'.fs = fs ∨ ∃ saved l, request.options.savedDiff = some saved ∧
            fs.locate .creation saved = .ok l ∧ w'.fs = links.write fs l (.text [])) := by
  refine ⟨fun operation sources roots w links => ⟨fun failure => runFromSources_of_fault,
    fun failure w' => fault_of_runFromSources⟩, ?_⟩
  intro environment timing links fs arguments request hrequest
  refine ⟨?_, fun path w' hperform => ?_⟩
  · rintro ⟨trouble, hfault⟩
    obtain ⟨found, w', hperform, hfs, hfound⟩ :=
      request.perform_of_fault (w := { fs := fs }) links hfault
    obtain ⟨told, hexecute⟩ := execute_of_trouble hrequest hperform timing
    exact ⟨found, told, hfound, hexecute.trans (congrArg (Outcome.mk 1 _) hfs)⟩
  · obtain ⟨hinit, hfirst⟩ := Request.perform_rootless hperform
    obtain ⟨told, hexecute⟩ := execute_of_trouble hrequest hperform timing
    exact ⟨hfirst, ⟨_, hexecute⟩, Options.emptied_eq hinit⟩

namespace Sample

/-- A command that asks for a directory that there is not. -/
def rootless : List Text := ["remove", "--licenses", "w/a", "--directories", "w", "x",
  "--save-diff", "w/d"].map String.toList

/-- A command that asks for a header that there is not, and for such a directory. -/
def headerless : List Text := ["remove", "--licenses", "n", "--directories", "x"].map String.toList

/-- What the first command asks for. -/
def rootlessRequest : Request where
  operation := .remove
  options := {
    licenses := [⟨['w', '/', 'a']⟩]
    directories := [⟨['w']⟩, ⟨['x']⟩]
    savedDiff := some ⟨['w', '/', 'd']⟩ }

/-- What the second command asks for. -/
def headerlessRequest : Request where
  operation := .remove
  options := { licenses := [⟨['n']⟩], directories := [⟨['x']⟩] }

end Sample

/-- A call and a command without one of their directories, and a command that
lacks its header as well. -/
theorem faults_found_first_sample :
    (∃ w', runFromSources .remove [⟨['w', '/', 'a']⟩] [⟨['w']⟩, ⟨['x']⟩] { fs := Sample.tree } =
        (.error (.directoryMissing ⟨['x']⟩), w') ∧ w'.fs = Sample.tree) ∧
      Request.ofArguments Sample.rootless = .ok Sample.rootlessRequest ∧
      (Sample.rootlessRequest.perform (fun _ => none) {} { fs := Sample.tree }).1 =
        .error (.whileTrying Operation.remove.attempt (.directoryMissing ⟨['x']⟩)) ∧
      ((execute (fun _ => none) {} Sample.tree Sample.rootless).fs = Sample.tree ∨
        ∃ l, Sample.tree.locate .creation ⟨['w', '/', 'd']⟩ = .ok l ∧
          (execute (fun _ => none) {} Sample.tree Sample.rootless).fs =
            Sample.tree.put l (.file (.text []))) ∧
      Request.ofArguments Sample.headerless = .ok Sample.headerlessRequest ∧
      (execute (fun _ => none) {} Sample.tree Sample.headerless).exitCode = 1 ∧
      (execute (fun _ => none) {} Sample.tree Sample.headerless).fs = Sample.tree := by
  have hloads : ∃ t, loadHeader Sample.tree ⟨['w', '/', 'a']⟩ = .ok t := ⟨_, by cbv⟩
  have hfault : CallFault Sample.tree .remove [⟨['w', '/', 'a']⟩] [⟨['w']⟩, ⟨['x']⟩]
      (.directoryMissing ⟨['x']⟩) := by
    refine .directory (List.forall_mem_singleton.mpr hloads) (fun h => Operation.noConfusion h.1)
      ⟨[⟨['w']⟩], [], rfl, ?_, ?_⟩
    · exact List.forall_mem_singleton.mpr (by decide)
    · decide
  have hmissing : loadHeader Sample.tree ⟨['n']⟩ = .error (.headerMissing ⟨['n']⟩) := by cbv
  have hheaderless : Sample.headerlessRequest.options.Fault (fun _ => none) Sample.tree
      (.whileTrying "Failed to load license headers" (.headerMissing ⟨['n']⟩)) := by
    refine .header ⟨[], [], rfl, List.forall_mem_nil _, ?_⟩ hmissing
    rintro ⟨t, ht⟩
    cases hmissing.symm.trans ht
  have hrootlessRequest : Request.ofArguments Sample.rootless = .ok Sample.rootlessRequest := by cbv
  have hheaderlessRequest : Request.ofArguments Sample.headerless =
      .ok Sample.headerlessRequest := by cbv
  have hperform : (Sample.rootlessRequest.perform (fun _ => none) {} { fs := Sample.tree }).1 =
      .error (.whileTrying Operation.remove.attempt (.directoryMissing ⟨['x']⟩)) := rfl
  obtain ⟨hcalls, hcommands⟩ := faults_found_first
  obtain ⟨hfails, hquiet⟩ := hcalls .remove [⟨['w', '/', 'a']⟩] [⟨['w']⟩, ⟨['x']⟩]
    { fs := Sample.tree } {}
  obtain ⟨w', hrun⟩ := hfails _ hfault
  obtain ⟨_, ⟨told, hexecute⟩, hfs⟩ :=
    (hcommands (fun _ => none) {} {} Sample.tree _ _ hrootlessRequest).2 _ _
      (Prod.ext hperform rfl)
  obtain ⟨_, _, _, hended⟩ :=
    (hcommands (fun _ => none) {} {} Sample.tree _ _ hheaderlessRequest).1 ⟨_, hheaderless⟩
  refine ⟨⟨w', hrun, (hquiet _ _ hrun rfl).2.1⟩, hrootlessRequest, hperform, ?_,
    hheaderlessRequest, by rw [hended], by rw [hended]⟩
  rw [hexecute]
  refine hfs.imp_right ?_
  rintro ⟨saved, l, hsaved, hlocate, hwritten⟩
  obtain rfl := Option.some.inj hsaved
  exact ⟨l, hlocate, hwritten.trans (HardLinks.write_none _ l _)⟩

end LicenseHeaders

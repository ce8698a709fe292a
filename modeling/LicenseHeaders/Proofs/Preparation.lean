import LicenseHeaders.Proofs.Reloading

/-!
# Faults that are found before the first file

A run can fail for reasons that have nothing to do with the files: a header
cannot be loaded or there is none, or a root leads to no directory.  All of this
is looked at in a fixed order before the first file is, and the first fault ends
the run.  What a run finds on its way is of another kind
(`Engine.handleAll_error`), so a failure of the first kind says that no file has
been touched.

* `FirstFault` — the first member of a list with which something is wrong;
* `Engine.run_preliminary` — a run that fails so leaves everything as it was;
* `CallFault` — what can be wrong with a call; it fails so if something is
  (`runFromSources_of_fault`), and only then (`fault_of_runFromSources`).
-/

namespace LicenseHeaders

/-! ## Faults of a list -/

/-- The first member of a list with which something is wrong. -/
def FirstFault {α : Type} (sound : α → Prop) (members : List α) (a : α) : Prop :=
  ∃ before rest, members = before ++ a :: rest ∧ (∀ b ∈ before, sound b) ∧ ¬ sound a

/-! ## Failures on the way -/

/-- Failures that are found before the first file is looked at. -/
def Failure.isPreliminary : Failure → Bool
  | .headerMissing _ | .directoryMissing _ | .noHeader | .badPattern _ _ => true
  | .file .readHeader _ _ => true
  | .file _ _ _ | .traversal _ _ => false

namespace Walk

variable {filters : List NameFilter} {fs : FileSystem}

/-- A root that cannot be entered is a directory that cannot be traversed. -/
theorem enter_failed {w : Walk} {root : Path} {failure : Failure}
    (henter : (enter filters fs w root).1 = .failed failure) :
    ∃ path cause, failure = .traversal path cause := by
  unfold enter at henter
  split at henter
  · exact ⟨_, _, (Progress.failed.inj henter).symm⟩
  · cases henter
  · exact absurd henter (offer_ne_failed _ _ _)
  · split at henter
    · exact ⟨_, _, (Progress.failed.inj henter).symm⟩
    · cases henter
    · exact absurd henter (offer_ne_failed _ _ _)

/-- A step only fails to get on in the tree. -/
theorem step_failed {w : Walk} {failure : Failure}
    (hstep : (step filters fs w).1 = .failed failure) :
    ∃ path cause, failure = .traversal path cause := by
  unfold step at hstep
  split at hstep
  · exact ⟨_, _, (Progress.failed.inj hstep).symm⟩
  · cases hstep
  · exact absurd hstep (offer_ne_failed _ _ _)
  · split at hstep
    · exact absurd hstep (offer_ne_failed _ _ _)
    · cases hstep
  · split at hstep
    · cases hstep
    · exact enter_failed hstep

/-- So the failures that a walk meets are about directories. -/
theorem nextWithin_failure {steps : Nat} {w : Walk} {events : List Event} {failure : Failure}
    (hnext : (nextWithin filters fs steps w events).1 = .failure failure) :
    ∃ path cause, failure = .traversal path cause := by
  induction steps generalizing w events with
  | zero => cases hnext
  | succ steps ih =>
      have hstep : (step filters fs w).1 = .failed failure →
          ∃ path cause, failure = .traversal path cause := step_failed
      rw [nextWithin] at hnext
      generalize step filters fs w = after at hstep hnext
      obtain ⟨progress, w', new⟩ := after
      cases progress with
      | yielded path => cases hnext
      | failed other =>
          cases hnext
          exact hstep rfl
      | finished => cases hnext
      | moved => exact ih hnext

end Walk

namespace Engine

variable {e : Engine} {operation : Operation}

/-- Handling a file fails in an access to it, or for want of a canonical header. -/
theorem process_error {path : Path} {w w' : World} {failure : Failure}
    (hprocess : e.process operation path w = (.error failure, w'))
    (hheaders : ¬ (operation = .synchronize ∧ e.headers.isEmpty = true)) :
    failure.isPreliminary = false := by
  unfold process at hprocess
  dsimp only at hprocess
  split at hprocess
  · cases hprocess
    rfl
  · next content _ =>
    split at hprocess
    · next other _ hchange =>
      cases hprocess
      exfalso
      unfold change at hchange
      cases operation with
      | remove => cases hchange
      | synchronize =>
          dsimp only at hchange
          cases hcanonical : e.headers.canonical? with
          | none =>
              have hempty : e.headers.texts = [] := List.head?_eq_none_iff.mp hcanonical
              exact hheaders ⟨rfl, by rw [HeaderSet.isEmpty, hempty]; rfl⟩
          | some canonical =>
              rw [hcanonical] at hchange
              cases hchange
    · cases hprocess
    · split at hprocess
      · next hcommit =>
        cases hprocess
        unfold commit at hcommit
        split at hcommit
        · cases hcommit
        · split at hcommit
          · cases hcommit
            rfl
          · cases hcommit
      · cases hprocess

/-- Handling an item fails with none of the failures of the preparation. -/
theorem handle_error {item : Except Failure Path} {w w' : World} {failure : Failure}
    (hheaders : ¬ (operation = .synchronize ∧ e.headers.isEmpty = true))
    (hitem : (∃ path, item = .ok path) ∨ ∃ path cause, item = .error (.traversal path cause))
    (hhandle : e.handle operation item w = (.error failure, w')) :
    failure.isPreliminary = false := by
  have hrecord : ∀ {path other w}, e.record path other w = (.error failure, w') →
      failure = other := by
    intro path other w hrecord
    unfold record at hrecord
    split at hrecord
    · cases hrecord
    · cases hrecord
      rfl
  unfold handle at hhandle
  rcases hitem with ⟨path, rfl⟩ | ⟨path, cause, rfl⟩
  · dsimp only at hhandle
    split at hhandle
    · cases hhandle
    · next hprocess => exact hrecord hhandle ▸ process_error hprocess hheaders
  · rw [hrecord hhandle]
    rfl

/-- **What a run finds on its way** is no failure that it should have found
before. -/
theorem handleAll_error {items : Nat} {walk : Walk} {files : List FileReport} {w w' : World}
    {failure : Failure}
    (hheaders : ¬ (operation = .synchronize ∧ e.headers.isEmpty = true))
    (hrun : e.handleAll operation items walk files w = (.error failure, w')) :
    failure.isPreliminary = false := by
  induction items generalizing walk files w with
  | zero => cases hrun
  | succ items ih =>
      rw [handleAll] at hrun
      have hnext : ∀ failure, (Walk.next e.filters w.fs walk).1 = .failure failure →
          ∃ path cause, failure = .traversal path cause := fun _ => Walk.nextWithin_failure
      generalize Walk.next e.filters w.fs walk = after at hrun hnext
      obtain ⟨item, walk', events⟩ := after
      cases item with
      | done => cases hrun
      | failure met =>
          obtain ⟨path, cause, rfl⟩ := hnext met rfl
          dsimp only at hrun
          split at hrun
          · next hhandle =>
            cases hrun
            exact handle_error hheaders (.inr ⟨path, cause, rfl⟩) hhandle
          · exact ih hrun
      | file path =>
          dsimp only at hrun
          split at hrun
          · next hhandle =>
            cases hrun
            exact handle_error hheaders (.inl ⟨path, rfl⟩) hhandle
          · exact ih hrun

/-- **A failure that should be found before the first file** leaves everything as
it was: the headers that are needed are missing, or a root leads to no
directory. -/
theorem run_preliminary {roots : List Path} {w w' : World} {failure : Failure}
    (hrun : e.run operation roots w = (.error failure, w'))
    (hpreliminary : failure.isPreliminary = true) :
    w' = w ∧
      ((operation = .synchronize ∧ e.headers.isEmpty = true) ∧ failure = .noHeader ∨
        ¬ (operation = .synchronize ∧ e.headers.isEmpty = true) ∧
          Walk.start w.fs roots = .error failure) := by
  by_cases hheaders : operation = .synchronize ∧ e.headers.isEmpty = true
  · cases (run_of_headerless roots w hheaders).symm.trans hrun
    exact ⟨rfl, .inl ⟨hheaders, rfl⟩⟩
  · cases hstart : Walk.start w.fs roots with
    | error other =>
        cases (run_of_rootless hheaders hstart).symm.trans hrun
        exact ⟨rfl, .inr ⟨hheaders, rfl⟩⟩
    | ok walk =>
        unfold run at hrun
        rw [if_neg hheaders, hstart] at hrun
        dsimp only at hrun
        split at hrun
        · next hall =>
          cases hrun
          rw [handleAll_error hheaders hall] at hpreliminary
          cases hpreliminary
        · cases hrun

end Engine

/-! ## Calls -/

/-- The roots are looked at in order. -/
theorem Walk.start_eq_error_iff {fs : FileSystem} {roots : List Path} {failure : Failure} :
    Walk.start fs roots = .error failure ↔ ∃ root, failure = .directoryMissing root ∧
      FirstFault (fun root => fs.leadsToDirectory root = true) roots root := by
  unfold start
  constructor
  · intro hstart
    split at hstart
    · next root hfound =>
      obtain ⟨hroot, before, rest, rfl, hbefore⟩ := List.find?_eq_some_iff_append.mp hfound
      refine ⟨root, (Except.error.inj hstart).symm, before, rest, rfl, fun other hother => ?_, ?_⟩
      · simpa using hbefore other hother
      · simpa using hroot
    · cases hstart
  · rintro ⟨root, rfl, before, rest, rfl, hbefore, hroot⟩
    have hfound : ((before ++ root :: rest).find? fun root => !fs.leadsToDirectory root) =
        some root := by
      refine List.find?_eq_some_iff_append.mpr ⟨by simpa using hroot, before, rest, rfl, ?_⟩
      exact fun other hother => by simpa using hbefore other hother
    rw [hfound]

/-- The sources are loaded in order, up to the first that cannot be. -/
theorem loadTexts_eq_error_iff {fs : FileSystem} {sources : List Path} {failure : Failure} :
    (loadTexts fs sources).1 = .error failure ↔ ∃ source, loadHeader fs source = .error failure ∧
      FirstFault (fun source => ∃ t, loadHeader fs source = .ok t) sources source := by
  constructor
  · intro hload
    induction sources with
    | nil => cases hload
    | cons first rest ih =>
        rw [loadTexts] at hload
        cases hfirst : loadHeader fs first with
        | error other =>
            rw [hfirst] at hload
            cases hload
            refine ⟨first, hfirst, [], rest, rfl, List.forall_mem_nil _, ?_⟩
            rintro ⟨t, ht⟩
            cases hfirst.symm.trans ht
        | ok t =>
            rw [hfirst] at hload
            dsimp only at hload
            cases hrest : (loadTexts fs rest).1 with
            | ok texts =>
                rw [hrest] at hload
                cases hload
            | error other =>
                rw [hrest] at hload
                cases hload
                obtain ⟨source, hsource, before, others, rfl, hbefore, hfault⟩ := ih hrest
                exact ⟨source, hsource, first :: before, others, rfl,
                  List.forall_mem_cons.mpr ⟨⟨t, hfirst⟩, hbefore⟩, hfault⟩
  · rintro ⟨source, hsource, before, rest, rfl, hbefore, _⟩
    induction before with
    | nil => rw [List.nil_append, loadTexts, hsource]
    | cons first before ih =>
        obtain ⟨⟨t, hfirst⟩, hothers⟩ := List.forall_mem_cons.mp hbefore
        rw [List.cons_append, loadTexts, hfirst]
        dsimp only
        rw [ih hothers, Except.map]

/-- When no source is at fault, all texts are loaded. -/
theorem loadTexts_of_loaded {fs : FileSystem} {sources : List Path}
    (hsources : ∀ source ∈ sources, ∃ t, loadHeader fs source = .ok t) :
    ∃ texts, (loadTexts fs sources).1 = .ok texts := by
  cases hload : (loadTexts fs sources).1 with
  | ok texts => exact ⟨texts, rfl⟩
  | error failure =>
      obtain ⟨source, _, before, rest, rfl, _, hfault⟩ := loadTexts_eq_error_iff.mp hload
      exact absurd (hsources source (by simp)) hfault

/-- A failure to load a header names the source. -/
theorem path?_of_loadHeader {fs : FileSystem} {source : Path} {failure : Failure}
    (hload : loadHeader fs source = .error failure) : failure.path? = some source := by
  unfold loadHeader at hload
  split at hload
  · split at hload
    · cases hload
    · cases hload
      rfl
  · cases hload
    rfl

/-- What can be wrong with a call: a source cannot be loaded, there is none where
one is needed, or a root leads to no directory. -/
inductive CallFault (fs : FileSystem) (operation : Operation) (sources roots : List Path) :
    Failure → Prop where
  | header {source : Path} {failure : Failure}
      (hfirst : FirstFault (fun source => ∃ t, loadHeader fs source = .ok t) sources source)
      (hload : loadHeader fs source = .error failure) (hnames : failure.path? = some source) :
      CallFault fs operation sources roots failure
  | headerless (hoperation : operation = .synchronize) (hsources : sources = []) :
      CallFault fs operation sources roots .noHeader
  | directory {root : Path} (hsources : ∀ source ∈ sources, ∃ t, loadHeader fs source = .ok t)
      (hheaders : ¬ (operation = .synchronize ∧ sources = []))
      (hfirst : FirstFault (fun root => fs.leadsToDirectory root = true) roots root) :
      CallFault fs operation sources roots (.directoryMissing root)

theorem World.tellAll_append (w : World) (events more : List Event) :
    w.tellAll (events ++ more) = (w.tellAll events).tellAll more := by
  simp only [World.tellAll, List.append_assoc]

section

variable {operation : Operation} {sources roots : List Path} {w w' : World} {links : HardLinks}
  {failure : Failure}

/-- A call whose headers cannot be loaded ends there. -/
theorem runFromSources_of_unloaded (hload : (loadTexts w.fs sources).1 = .error failure) :
    ∃ events, runFromSources operation sources roots w links =
      (.error failure, w.tellAll events) := by
  unfold runFromSources loadHeaders
  generalize loadTexts w.fs sources = loaded at hload ⊢
  obtain ⟨answer, events⟩ := loaded
  dsimp only at hload
  subst hload
  exact ⟨events, rfl⟩

/-- A call whose headers can be loaded runs an engine with them. -/
theorem runFromSources_of_loaded {texts : List Text}
    (hload : (loadTexts w.fs sources).1 = .ok texts) :
    ∃ (e : Engine) (events : List Event), (e.headers.isEmpty = true ↔ sources = []) ∧
      runFromSources operation sources roots w links =
        e.run operation roots (w.tellAll events) := by
  have htexts := loadTexts_eq_ok_iff.mp hload
  obtain ⟨events, hrun⟩ := runFromSources_eq operation roots links htexts
  cases hfilters : (Plan.ofTexts texts links).criteria.filters with
  | error fault =>
      have husual : (({} : Criteria).filters).toOption.isSome = true := by cbv
      rw [show ({} : Criteria).filters = .error fault from hfilters] at husual
      cases husual
  | ok filters =>
      set e : Engine := { Plan.ofTexts texts links with filters := filters }
      have hengine : (Plan.ofTexts texts links).engine = .ok e :=
        Plan.engine_eq_ok_iff.mpr ⟨hfilters, rfl⟩
      refine ⟨e, events ++ e.warnings, ?_, ?_⟩
      · have hlength := congrArg List.length htexts
        rw [List.length_map, List.length_map] at hlength
        rw [HeaderSet.isEmpty, List.isEmpty_iff, ← List.length_eq_zero_iff,
          ← List.length_eq_zero_iff, hlength]
        rfl
      · rw [hrun, Plan.run_eq hengine, World.tellAll_append]

/-- **A call with a fault fails.** -/
theorem runFromSources_of_fault (hfault : CallFault w.fs operation sources roots failure) :
    ∃ w', runFromSources operation sources roots w links = (.error failure, w') := by
  cases hfault with
  | header hfirst hload _ =>
      obtain ⟨events, hrun⟩ :=
        runFromSources_of_unloaded (loadTexts_eq_error_iff.mpr ⟨_, hload, hfirst⟩)
      exact ⟨_, hrun⟩
  | headerless hoperation hsources =>
      have hnone : ∀ source ∈ sources, ∃ t, loadHeader w.fs source = .ok t :=
        hsources ▸ List.forall_mem_nil _
      obtain ⟨texts, hload⟩ := loadTexts_of_loaded hnone
      obtain ⟨e, events, hempty, hrun⟩ := runFromSources_of_loaded hload
      exact ⟨_, hrun.trans (Engine.run_of_headerless roots _ ⟨hoperation, hempty.mpr hsources⟩)⟩
  | directory hsources hheaders hfirst =>
      obtain ⟨texts, hload⟩ := loadTexts_of_loaded hsources
      obtain ⟨e, events, hempty, hrun⟩ := runFromSources_of_loaded hload
      have hneeded : ¬ (operation = .synchronize ∧ e.headers.isEmpty = true) :=
        fun h => hheaders ⟨h.1, hempty.mp h.2⟩
      have hstart : Walk.start w.fs roots = .error (.directoryMissing _) :=
        Walk.start_eq_error_iff.mpr ⟨_, rfl, hfirst⟩
      exact ⟨_, hrun.trans (Engine.run_of_rootless hneeded hstart)⟩

/-- **A call that fails before the first file** has a fault, and leaves the disk as
it was. -/
theorem fault_of_runFromSources
    (hrun : runFromSources operation sources roots w links = (.error failure, w'))
    (hpreliminary : failure.isPreliminary = true) :
    CallFault w.fs operation sources roots failure ∧ w'.fs = w.fs ∧ w'.writes = w.writes := by
  cases hload : (loadTexts w.fs sources).1 with
  | error other =>
      obtain ⟨events, hended⟩ := runFromSources_of_unloaded hload
      cases hended.symm.trans hrun
      obtain ⟨source, hsource, hfirst⟩ := loadTexts_eq_error_iff.mp hload
      exact ⟨.header hfirst hsource (path?_of_loadHeader hsource), rfl, rfl⟩
  | ok texts =>
      obtain ⟨e, events, hempty, hran⟩ := runFromSources_of_loaded hload
      obtain ⟨rfl, hcases⟩ := Engine.run_preliminary (hran.symm.trans hrun) hpreliminary
      refine ⟨?_, rfl, rfl⟩
      rcases hcases with ⟨⟨hoperation, hnone⟩, rfl⟩ | ⟨hneeded, hstart⟩
      · exact .headerless hoperation (hempty.mp hnone)
      · obtain ⟨root, rfl, hfirst⟩ := Walk.start_eq_error_iff.mp hstart
        refine .directory (fun source hsource => ?_)
          (fun h => hneeded ⟨h.1, hempty.mpr h.2⟩) hfirst
        obtain ⟨t, hread⟩ := readText_of_texts (loadTexts_eq_ok_iff.mp hload) hsource
        exact ⟨t, loadHeader_eq_ok_iff.mpr hread⟩

end

end LicenseHeaders

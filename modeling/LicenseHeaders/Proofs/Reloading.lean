import LicenseHeaders.Proofs.Idempotence

/-!
# Running again from the sources

The entry points load the headers from their sources before every run, and the
sources can be among the files that the run rewrites.  The next run then has
other headers.  Synchronizing is safe all the same: the first source contains
the canonical header, which it is, so it stays as it is and settles everything.
Removing is not: a source that has lost only a part of its text is a header of
its own the next time.

* `readText_cases` — what a run makes of any file that can be read;
* `run_unchanged_iff` — when a run changes nothing;
* `reloaded_unchanged_iff` — when the second of two calls changes nothing.
-/

namespace LicenseHeaders

/-! ## Loading -/

section

variable {fs : FileSystem}

/-- A header is the text of its source. -/
theorem loadHeader_eq_ok_iff {source : Path} {t : Text} :
    loadHeader fs source = .ok t ↔ fs.readText source = .ok t := by
  unfold loadHeader
  constructor
  · intro hload
    split at hload
    · split at hload
      · next hread =>
        cases hload
        exact hread
      · cases hload
    · cases hload
  · intro hread
    obtain ⟨l, hlookup, _⟩ := FileSystem.readText_eq_ok_iff.mp hread
    have hexists : fs.pathExists source = true := by simp only [FileSystem.pathExists, hlookup]
    rw [if_pos hexists, hread]

/-- The headers are the texts of the sources, in order. -/
theorem loadTexts_eq_ok_iff {sources : List Path} {texts : List Text} :
    (loadTexts fs sources).1 = .ok texts ↔ sources.map fs.readText = texts.map .ok := by
  induction sources generalizing texts with
  | nil => cases texts <;> simp [loadTexts]
  | cons source rest ih =>
      rw [loadTexts, List.map_cons]
      cases hload : loadHeader fs source with
      | error failure =>
          constructor
          · intro h
            cases h
          · intro hmaps
            cases texts with
            | nil => cases hmaps
            | cons t others =>
                have hread := loadHeader_eq_ok_iff.mpr (List.cons.inj hmaps).1
                cases hload.symm.trans hread
      | ok t =>
          have hread := loadHeader_eq_ok_iff.mp hload
          dsimp only
          rcases hrest : loadTexts fs rest with ⟨loaded, events⟩
          rw [hrest] at ih
          rw [hread]
          cases loaded with
          | ok others =>
              have hothers := ih.mp rfl
              cases texts with
              | nil => simp [Except.map]
              | cons first texts =>
                  rw [hothers, List.map_cons, List.cons.injEq, Except.map, Except.ok.injEq,
                    List.cons.injEq, Except.ok.injEq,
                    List.map_inj_right fun _ _ h => Except.ok.inj h]
          | error failure =>
              constructor
              · intro h
                cases h
              · intro hmaps
                cases texts with
                | nil => cases hmaps
                | cons first texts => cases ih.mpr (List.cons.inj hmaps).2

variable {sources : List Path} {texts : List Text}

/-- The texts are those of the sources. -/
theorem mem_texts_iff (hload : sources.map fs.readText = texts.map .ok) {t : Text} :
    t ∈ texts ↔ ∃ source ∈ sources, fs.readText source = .ok t := by
  have hmem : (.ok t : Except Cause Text) ∈ texts.map .ok ↔ t ∈ texts :=
    List.mem_map_of_injective fun _ _ h => Except.ok.inj h
  rw [← hmem, ← hload, List.mem_map]

/-- Each source of loaded texts can be read. -/
theorem readText_of_texts (hload : sources.map fs.readText = texts.map .ok) {source : Path}
    (hsource : source ∈ sources) : ∃ t, fs.readText source = .ok t := by
  have hmem := List.mem_map_of_mem (f := fs.readText) hsource
  rw [hload] at hmem
  obtain ⟨t, _, hread⟩ := List.mem_map.mp hmem
  exact ⟨t, hread.symm⟩

theorem exists_texts (hreadable : ∀ source ∈ sources, ∃ t, fs.readText source = .ok t) :
    ∃ texts : List Text, sources.map fs.readText = texts.map .ok := by
  induction sources with
  | nil => exact ⟨[], rfl⟩
  | cons source rest ih =>
      obtain ⟨⟨t, hread⟩, hrest⟩ := List.forall_mem_cons.mp hreadable
      obtain ⟨texts, htexts⟩ := ih hrest
      exact ⟨t :: texts, by rw [List.map_cons, List.map_cons, hread, htexts]⟩

end

/-- The plan of the entry points. -/
def Plan.ofTexts (texts : List Text) (links : HardLinks := {}) : Plan :=
  { headers := ⟨texts⟩, links }

theorem Plan.plain_ofTexts (texts : List Text) : (Plan.ofTexts texts).Plain :=
  ⟨rfl, rfl, rfl, rfl⟩

/-- **Loading comes first**, and leaves the disk alone. -/
theorem runFromSources_eq (operation : Operation) {sources : List Path} (roots : List Path)
    {w : World} {texts : List Text} (links : HardLinks)
    (hload : sources.map w.fs.readText = texts.map .ok) :
    ∃ events, runFromSources operation sources roots w links =
      (Plan.ofTexts texts links).run operation roots (w.tellAll events) := by
  have htexts := loadTexts_eq_ok_iff.mpr hload
  unfold runFromSources loadHeaders
  generalize loadTexts w.fs sources = loaded at htexts ⊢
  obtain ⟨answer, events⟩ := loaded
  dsimp only at htexts
  subst htexts
  exact ⟨_, rfl⟩

/-- A call that returns a report has loaded its headers. -/
theorem texts_of_runFromSources {operation : Operation} {sources roots : List Path} {w w' : World}
    {report : Report} (hrun : runFromSources operation sources roots w = (.ok report, w')) :
    ∃ texts : List Text, sources.map w.fs.readText = texts.map .ok := by
  cases hload : (loadTexts w.fs sources).1 with
  | ok texts => exact ⟨texts, loadTexts_eq_ok_iff.mp hload⟩
  | error failure =>
      unfold runFromSources loadHeaders at hrun
      generalize loadTexts w.fs sources = loaded at hload hrun
      obtain ⟨answer, events⟩ := loaded
      dsimp only at hload
      subst hload
      cases hrun

/-- A file that is spared has a text that the operation leaves alone. -/
theorem Plan.transform_of_spared {plan : Plan} {operation : Operation} {fs : FileSystem}
    {path : Path} {content : Text} (hspared : plan.outcome operation fs path = .ok none)
    (hread : fs.readText path = .ok content) : plan.transform operation content = .ok none := by
  rw [outcome, hread] at hspared
  dsimp only at hspared
  split at hspared
  · cases hspared
  · next htransform => exact htransform
  · split at hspared <;> cases hspared

namespace Engine

open Plan

variable {e : Engine} {operation : Operation} {roots : List Path} {before after : FileSystem}
  {walk : Walk} {report : Report} {calls : List WriteCall}

/-! ## What a run makes of a file -/

/-- **Any file that can be read** is as it was in the end, or it is the file of
an item and holds what the operation makes of its text. -/
theorem Completed.readText_cases
    (hdone : e.Completed operation roots before walk report after calls) {p : Path} {t : Text}
    (hread : before.readText p = .ok t) :
    after.readText p = .ok t ∨
      ∃ path change, .ok path ∈ e.items before roots walk ∧
        e.outcome operation before path = .ok (some change) ∧
        e.transform operation t = .ok (some change) ∧ after.readText p = .ok change.text := by
  obtain ⟨l, hlookup, hgrants⟩ := FileSystem.readText_eq_ok_iff.mp hread
  by_cases hnew : l ∈ (e.newContents operation before (e.items before roots walk)).map (·.1)
  · right
    obtain ⟨row, hrow, rfl⟩ := List.mem_map.mp hnew
    obtain ⟨item, hitem, hrow⟩ := List.mem_filterMap.mp hrow
    cases item with
    | error failure => cases hrow
    | ok path =>
        obtain ⟨change, houtcome, hcanonical, htext⟩ := newContent?_eq_some hrow
        obtain ⟨k, content, hlookup', _, htransform, _⟩ := outcome_eq_some houtcome
        -- Both paths lead to one location, so the item's text is the one that was read.
        obtain rfl : k = row.1 :=
          Option.some.inj ((FileSystem.canonical?_of_lookup hlookup').symm.trans hcanonical)
        obtain ⟨hlocate, hfind⟩ := FileSystem.lookup_eq_ok_iff.mp hlookup
        have hfile := hfind.symm.trans (FileSystem.lookup_eq_ok_iff.mp hlookup').2
        cases hfile
        refine ⟨path, change, hitem, houtcome, htransform,
          FileSystem.readText_eq_ok_iff.mpr ⟨row.1, FileSystem.lookup_eq_ok_iff.mpr ⟨?_, ?_⟩, ?_⟩⟩
        · rw [FileSystem.locate_of_outline_eq hdone.outline, hlocate]
        · exact htext ▸ hdone.find?_of_newContent? hitem hrow
        · rw [FileSystem.grants_of_outline_eq hdone.outline, hgrants]
  · left
    rw [← hread]
    refine FileSystem.readText_congr hdone.outline fun k hk => ?_
    obtain rfl : l = k :=
      Option.some.inj ((FileSystem.canonical?_of_lookup hlookup).symm.trans hk)
    rw [hdone.fs]
    exact FileSystem.find?_rewrite_of_not_mem hnew

/-! ## Runs that change nothing -/

/-- A report counts no change when no entry has one. -/
theorem changedCount_eq_zero_iff :
    report.changedCount = 0 ↔ ∀ file ∈ report.files, file.action.changesContent = false := by
  rw [Report.changedCount, Report.changed, List.length_eq_zero_iff, List.filter_eq_nil_iff]
  exact forall₂_congr fun _ _ => Bool.not_eq_true _ ▸ Iff.rfl

/-- An item that leaves its file as it is. -/
def Spares (e : Engine) (operation : Operation) (fs : FileSystem)
    (item : Except Failure Path) : Prop :=
  ∃ path, item = .ok path ∧ e.outcome operation fs path = .ok none

/-- In a run that stops at failures every item has an outcome. -/
theorem Completed.outcome_of_mem
    (hdone : e.Completed operation roots before walk report after calls)
    (hstrict : e.keepGoing = false) {item : Except Failure Path}
    (hitem : item ∈ e.items before roots walk) :
    ∃ path change, item = .ok path ∧ e.outcome operation before path = .ok change ∧
      e.entry operation before item = ⟨path, actionOf change, none⟩ :=
  outcome_of_entry fun hfailed => hdone.goes item hitem ⟨hstrict, hfailed⟩

/-- **A run changes nothing exactly if it spares all files.** -/
theorem run_unchanged_iff (hplain : e.toPlan.Plain) (hstrict : e.keepGoing = false) {w : World}
    (hstart : Walk.start w.fs roots = .ok walk)
    (hheaders : ¬ (operation = .synchronize ∧ e.headers.isEmpty = true)) :
    (∃ report w', e.run operation roots w = (.ok report, w') ∧ report.changedCount = 0 ∧
        w'.fs = w.fs) ↔
      ∀ item ∈ e.items w.fs roots walk, e.Spares operation w.fs item := by
  constructor
  · rintro ⟨report, w', hrun, hnone, _⟩ item hitem
    obtain ⟨walk', calls, hdone, _⟩ := run_completed hplain hrun
    obtain rfl : walk = walk' := Except.ok.inj (hstart.symm.trans hdone.start)
    obtain ⟨path, change, rfl, houtcome, hentry⟩ := hdone.outcome_of_mem hstrict hitem
    refine ⟨path, rfl, ?_⟩
    have hquiet : (e.entry operation w.fs (.ok path)).action.changesContent = false :=
      changedCount_eq_zero_iff.mp hnone _ (hdone.files ▸ List.mem_map_of_mem hitem)
    rw [hentry, (outcome_action houtcome).1] at hquiet
    rw [houtcome, Option.isNone_iff_eq_none.mp (Option.isSome_eq_false_iff.mp hquiet)]
  · intro hspares
    have hgoes : ∀ item ∈ e.items w.fs roots walk, ¬ e.Stops operation w.fs item := by
      rintro item hitem ⟨_, hfailed⟩
      obtain ⟨path, rfl, houtcome⟩ := hspares item hitem
      rw [entry_of_ok houtcome] at hfailed
      cases hfailed
    obtain ⟨report, w', _, hrun, hdone, _⟩ := run_of_unstopped hplain hstart hheaders hgoes
    refine ⟨report, w', hrun, ?_, ?_⟩
    · refine changedCount_eq_zero_iff.mpr fun file hfile => ?_
      rw [hdone.files] at hfile
      obtain ⟨item, hitem, rfl⟩ := List.mem_map.mp hfile
      obtain ⟨path, rfl, houtcome⟩ := hspares item hitem
      rw [entry_of_ok houtcome]
      rfl
    · have hnothing : e.newContents operation w.fs (e.items w.fs roots walk) = [] := by
        refine List.filterMap_eq_nil_iff.mpr fun item hitem => ?_
        obtain ⟨path, rfl, houtcome⟩ := hspares item hitem
        simp only [newContent?, houtcome]
      rw [hdone.fs, hnothing, FileSystem.rewrite_nil]

/-! ## The next run -/

/-- The engine with other headers. -/
def reloaded (e : Engine) (texts : List Text) : Engine := { e with headers := ⟨texts⟩ }

/-- The headers do not matter to what a run meets. -/
theorem items_reloaded (e : Engine) (texts : List Text) (fs : FileSystem) (roots : List Path)
    (walk : Walk) : (e.reloaded texts).items fs roots walk = e.items fs roots walk := rfl

section

variable (hdone : e.Completed operation roots before walk report after calls)
  (hverbatim : e.detector.present = verbatim)

include hdone hverbatim

/-- Files that a run has settled are spared by the next one, if they are settled
for its headers, too. -/
theorem Completed.spares_reloaded (hstrict : e.keepGoing = false) {texts : List Text}
    (hsettled : ∀ t, Settled operation e.headers t → Settled operation ⟨texts⟩ t) :
    ∀ item ∈ e.items before roots walk, (e.reloaded texts).Spares operation after item := by
  intro item hitem
  obtain ⟨path, change, rfl, houtcome, _⟩ := hdone.outcome_of_mem hstrict hitem
  obtain ⟨content, _, htransform, hafter⟩ := hdone.readText_of_outcome hitem houtcome
  have hverbatim' : (e.reloaded texts).detector.present = verbatim := hverbatim
  have hspared : (e.reloaded texts).transform operation (textAfter content change) = .ok none :=
    transform_of_settled hverbatim' (hsettled _ (settled_textAfter hverbatim htransform))
  exact ⟨path, rfl, by simp only [outcome, hafter, hspared]⟩

/-- **A run leaves the canonical header in its source**, which contains it. -/
theorem Completed.readText_of_canonical (hoperation : operation = .synchronize) {source : Path}
    {canonical : Text} (hcanonical : e.headers.canonical? = some canonical)
    (hread : before.readText source = .ok canonical) : after.readText source = .ok canonical := by
  rcases hdone.readText_cases hread with hsame | ⟨path, change, _, _, htransform, _⟩
  · exact hsame
  · subst hoperation
    have hsettled : Settled .synchronize e.headers canonical :=
      ⟨canonical, hcanonical, List.infix_rfl⟩
    cases htransform.symm.trans (transform_of_settled hverbatim hsettled)

variable {sources : List Path} {texts : List Text}
  (hload : sources.map before.readText = e.headers.texts.map .ok)
  (hreload : sources.map after.readText = texts.map .ok)

include hload hreload

/-- After synchronizing, texts are settled for the headers that are loaded
next. -/
theorem Completed.settled_reloaded (hoperation : operation = .synchronize) {t : Text}
    (hsettled : Settled .synchronize e.headers t) : Settled .synchronize ⟨texts⟩ t := by
  obtain ⟨canonical, hcanonical, hinfix⟩ := hsettled
  obtain ⟨others, hothers⟩ := List.head?_eq_some_iff.mp hcanonical
  rw [hothers] at hload
  refine ⟨canonical, ?_, hinfix⟩
  cases sources with
  | nil => cases hload
  | cons source rest =>
      obtain ⟨hread, _⟩ := List.cons.inj hload
      have hkept := hdone.readText_of_canonical hverbatim hoperation hcanonical hread
      cases texts with
      | nil => cases hreload
      | cons first texts =>
          obtain ⟨hfirst, _⟩ := List.cons.inj hreload
          rw [hkept, Except.ok.injEq] at hfirst
          rw [hfirst]
          rfl

/-- **The next run changes nothing** exactly if it synchronizes, or if every
source is as it was or empty. -/
theorem Completed.spares_reloaded_iff (hstrict : e.keepGoing = false) :
    (∀ item ∈ e.items before roots walk, (e.reloaded texts).Spares operation after item) ↔
      operation = .synchronize ∨ ∀ source ∈ sources,
        after.readText source = before.readText source ∨ after.readText source = .ok [] := by
  constructor
  · intro hspares
    cases operation with
    | synchronize => exact .inl rfl
    | remove =>
        refine .inr fun source hsource => ?_
        obtain ⟨t, hread⟩ := readText_of_texts hload hsource
        rcases hdone.readText_cases hread with hsame | ⟨path, change, hitem, houtcome, _, hafter⟩
        · exact .inl (hsame.trans hread.symm)
        -- The source has a new text; that is a header now, and no longer found in any file.
        · obtain ⟨_, hpath, hspared⟩ := hspares _ hitem
          cases hpath
          obtain ⟨_, _, _, hchanged⟩ := hdone.readText_of_outcome hitem houtcome
          have hunchanged := Except.ok.inj (transform_of_spared hspared hchanged)
          have hfree : HeaderFree texts change.text :=
            strip_eq_none_iff.mp (Option.map_eq_none_iff.mp hunchanged)
          have hlisted : change.text ∈ texts :=
            (mem_texts_iff hreload).mpr ⟨source, hsource, hafter⟩
          have hempty : change.text = [] := by
            by_contra hne
            exact hfree _ hlisted hne List.infix_rfl
          exact .inr (hempty ▸ hafter)
  · rintro (rfl | hsources)
    · exact hdone.spares_reloaded hverbatim hstrict fun t =>
        hdone.settled_reloaded hverbatim hload hreload rfl
    · cases operation with
      | synchronize =>
          exact hdone.spares_reloaded hverbatim hstrict fun t =>
            hdone.settled_reloaded hverbatim hload hreload rfl
      | remove =>
          refine hdone.spares_reloaded hverbatim hstrict fun t hfree h hlisted hne => ?_
          obtain ⟨source, hsource, hread⟩ := (mem_texts_iff hreload).mp hlisted
          rcases hsources source hsource with hsame | hempty
          · exact hfree h ((mem_texts_iff hload).mpr ⟨source, hsource, hsame ▸ hread⟩) hne
          · exact absurd (Except.ok.inj (hread.symm.trans hempty)) hne

end

end Engine

open Engine

/-- **Running again from the sources.**  When a call that loads its headers from
`sources` returns a report, the same call after it returns a report without a
change and leaves the file system as it is, if it synchronizes; if it removes,
exactly when the first call has left each source with the text it had or with
none. -/
theorem reloaded_unchanged_iff {operation : Operation} {sources roots : List Path} {w w' v : World}
    {report : Report} (hrun : runFromSources operation sources roots w = (.ok report, w'))
    (hfs : v.fs = w'.fs) :
    (∃ again v', runFromSources operation sources roots v = (.ok again, v') ∧
        again.changedCount = 0 ∧ v'.fs = v.fs) ↔
      operation = .synchronize ∨ ∀ source ∈ sources,
        w'.fs.readText source = w.fs.readText source ∨ w'.fs.readText source = .ok [] := by
  obtain ⟨texts, hload⟩ := texts_of_runFromSources hrun
  obtain ⟨told, hfirst⟩ := runFromSources_eq operation roots {} hload
  rw [hfirst] at hrun
  obtain ⟨⟨_, filters⟩, walk, calls, hengine, hplan, hdone, _⟩ :=
    Plan.run_completed (Plan.plain_ofTexts texts) hrun
  dsimp only at hplan
  subst hplan
  set e : Engine := ⟨Plan.ofTexts texts, filters⟩
  have hreadable : ∀ source ∈ sources, ∃ t, w'.fs.readText source = .ok t := by
    intro source hsource
    obtain ⟨t, hread⟩ := readText_of_texts hload hsource
    rcases hdone.readText_cases hread with hsame | ⟨_, change, _, _, _, hafter⟩
    · exact ⟨t, hsame⟩
    · exact ⟨change.text, hafter⟩
  obtain ⟨texts', hreload⟩ := exists_texts hreadable
  obtain ⟨told', hsecond⟩ := runFromSources_eq (w := v) operation roots {} (hfs ▸ hreload)
  have hengine' : (Plan.ofTexts texts').engine = .ok (e.reloaded texts') :=
    Plan.engine_eq_ok_iff.mpr ⟨(Plan.engine_eq_ok_iff.mp hengine).1, rfl⟩
  have hheaders : ¬ (operation = .synchronize ∧ (e.reloaded texts').headers.isEmpty = true) := by
    have hfewer := congrArg List.isEmpty hload
    have hsame := congrArg List.isEmpty hreload
    rw [List.isEmpty_map, List.isEmpty_map] at hfewer hsame
    have hempty : (e.reloaded texts').headers.isEmpty = e.headers.isEmpty :=
      hsame.symm.trans hfewer
    rw [hempty]
    exact hdone.headers
  have hitems : (e.reloaded texts').items v.fs roots walk = e.items w.fs roots walk := by
    rw [items_reloaded, hfs]
    exact hdone.items_again
  have hunchanged := run_unchanged_iff (e := e.reloaded texts')
    (w := (v.tellAll told').tellAll (e.reloaded texts').warnings) (Plan.plain_ofTexts texts') rfl
    (hfs ▸ hdone.start_again) hheaders
  rw [hsecond, Plan.run_eq hengine']
  refine hunchanged.trans ?_
  rw [World.tellAll_fs, World.tellAll_fs, hitems, hfs]
  exact hdone.spares_reloaded_iff rfl hload hreload rfl

namespace Sample

/-- Two headers, the second of which is a selected file. -/
def overlapping (first : Text) : FileSystem where
  entries := [([['h']], .file (.text first)), ([['w']], .directory),
    ([['w'], ['b', '.', 'p', 'y']], .file (.text ['x', 'y']))]
  distinct := by simp
  current := []
  denied := []

def sources : List Path := [⟨['h']⟩, ⟨['w', '/', 'b', '.', 'p', 'y']⟩]

def synchronization : Except Failure Report × World :=
  synchronizeTrees sources [⟨['w']⟩] { fs := overlapping ['z'] }

def synchronized : Report where
  operation := .synchronize
  dryRun := false
  files := [⟨⟨['w', '/', 'b', '.', 'p', 'y']⟩, .replaced, none⟩]

/-- The second source is retired by the first. -/
theorem synchronization_report : synchronization.1 = .ok synchronized := by cbv

def removal : Except Failure Report × World :=
  removeFromTrees sources [⟨['w']⟩] { fs := overlapping ['x'] }

def removed : Report where
  operation := .remove
  dryRun := false
  files := [⟨⟨['w', '/', 'b', '.', 'p', 'y']⟩, .stripped, none⟩]

end Sample

/-- Synchronizing a directory with one of the sources in it, and again. -/
theorem reloaded_unchanged_iff_sample :
    runFromSources .synchronize Sample.sources [⟨['w']⟩] { fs := Sample.overlapping ['z'] } =
        (.ok Sample.synchronized, Sample.synchronization.2) ∧
      ∃ again v', runFromSources .synchronize Sample.sources [⟨['w']⟩] Sample.synchronization.2 =
          (.ok again, v') ∧
        again.changedCount = 0 ∧ v'.fs = Sample.synchronization.2.fs := by
  have hrun : runFromSources .synchronize Sample.sources [⟨['w']⟩]
      { fs := Sample.overlapping ['z'] } = (.ok Sample.synchronized, Sample.synchronization.2) :=
    Prod.ext Sample.synchronization_report rfl
  exact ⟨hrun, (reloaded_unchanged_iff hrun rfl).mpr (.inl rfl)⟩

/-- **Removing is not done after one run** when a source is among the files: the
first run leaves a part of it, and the second run removes that part as well. -/
theorem removal_unfinished :
    Sample.removal.1 = .ok Sample.removed ∧
      Sample.removal.2.fs.readText ⟨['w', '/', 'b', '.', 'p', 'y']⟩ = .ok ['y'] ∧
      (removeFromTrees Sample.sources [⟨['w']⟩] Sample.removal.2).1 = .ok Sample.removed ∧
      Sample.removed.changedCount = 1 ∧
      (removeFromTrees Sample.sources [⟨['w']⟩] Sample.removal.2).2.fs.readText
        ⟨['w', '/', 'b', '.', 'p', 'y']⟩ = .ok [] := by
  refine ⟨?_, ?_, ?_, rfl, ?_⟩
  · cbv
  · cbv
  · cbv
  · cbv

end LicenseHeaders

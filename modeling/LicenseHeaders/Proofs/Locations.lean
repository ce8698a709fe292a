import LicenseHeaders.Proofs.Accounting
import LicenseHeaders.Proofs.Rootwise

/-!
# Files by their locations

A run handles files by their paths, but what becomes of a file depends on its
location alone: on its content and on the rights there (`Plan.fate`).  So the
contents that a run gives to files, and its counts, can be read off the
locations of the files that it meets and the number of its failures.

* `Walk.places` — the locations of the files that a walk meets;
* `Plan.toOption_outcome` — what becomes of a file by its location;
* `Engine.Completed.scannedCount_eq`, `failedCount_eq` — the counts of a run.
-/

namespace LicenseHeaders

namespace Walk

variable {fs : FileSystem} {items : List (Except Failure Path)}

/-- The location of a file that a walk meets. -/
def place? (fs : FileSystem) : Except Failure Path → Option Location
  | .error _ => none
  | .ok path => fs.canonical? path

/-- The locations of the files that a walk meets. -/
def places (fs : FileSystem) (items : List (Except Failure Path)) : List Location :=
  items.filterMap (place? fs)

/-- All files that a walk meets are found by their paths. -/
def Resolved (fs : FileSystem) (items : List (Except Failure Path)) : Prop :=
  ∀ path, .ok path ∈ items → fs.canonical? path ≠ none

/-- The places of items are where their paths lead. -/
theorem mem_places {l : Location} :
    l ∈ places fs items ↔ ∃ path, .ok path ∈ items ∧ fs.canonical? path = some l := by
  rw [places, List.mem_filterMap]
  constructor
  · rintro ⟨item, hitem, hplace⟩
    cases item with
    | error failure => cases hplace
    | ok path => exact ⟨path, hitem, hplace⟩
  · rintro ⟨path, hpath, hl⟩
    exact ⟨.ok path, hpath, hl⟩

/-- No location is met twice. -/
theorem nodup_places (hapart : items.Pairwise (Apart fs)) : (places fs items).Nodup := by
  rw [List.Nodup, places, List.pairwise_filterMap]
  refine hapart.imp fun {a b} hapart l hl k hk => ?_
  cases a with
  | error failure => cases hl
  | ok p =>
      cases b with
      | error failure => cases hk
      | ok q =>
          intro hsame
          exact hapart.canonical?_ne hl (hsame ▸ hk)

/-- **Counting what a walk meets**: its failures, and its files by their locations. -/
theorem countP_items (hresolved : Resolved fs items) {p : Except Failure Path → Bool}
    {q : Location → Bool} (hfailed : ∀ failure, p (.error failure) = true)
    (hplaced : ∀ path l, fs.canonical? path = some l → p (.ok path) = q l) :
    items.countP p = (failures items).length + (places fs items).countP q := by
  induction items with
  | nil => rfl
  | cons item rest ih =>
      have hrest : Resolved fs rest := fun path hpath =>
        hresolved path (List.mem_cons_of_mem _ hpath)
      have hcount := ih hrest
      cases item with
      | error failure =>
          rw [List.countP_cons_of_pos (hfailed failure), failures_error, List.length_cons, hcount]
          have hplaces : places fs (.error failure :: rest) = places fs rest := rfl
          rw [hplaces]
          omega
      | ok path =>
          obtain ⟨l, hl⟩ := Option.ne_none_iff_exists'.mp (hresolved path List.mem_cons_self)
          have hplaces : places fs (.ok path :: rest) = l :: places fs rest :=
            List.filterMap_cons_some hl
          rw [List.countP_cons, failures_ok, hplaced path l hl, hplaces, List.countP_cons, hcount]
          omega

end Walk

/-! ## Fates -/

namespace Plan

variable {plan : Plan} {operation : Operation} {fs : FileSystem}

/-- What becomes of the file at a location: the change that it comes to, if any, or
nothing when an access is refused. -/
def fate (plan : Plan) (operation : Operation) (fs : FileSystem) (l : Location) :
    Option (Option Change) :=
  match fs.find? l with
  | some (.file (.text content)) =>
    if fs.grants .reading l then
      match plan.transform operation content with
      | .error _ => none
      | .ok none => some none
      | .ok (some change) => if fs.grants .writing l then some (some change) else none
    else none
  | _ => none

/-- The new content of the file at a location. -/
def contentAt? (plan : Plan) (operation : Operation) (fs : FileSystem) (l : Location) :
    Option (Location × Text) :=
  (plan.fate operation fs l).join.map fun change => (l, change.text)

/-- **What becomes of a file depends on its location alone.** -/
theorem toOption_outcome {path : Path} {l : Location} (hl : fs.canonical? path = some l) :
    (plan.outcome operation fs path).toOption = plan.fate operation fs l := by
  cases hread : fs.readText path with
  | ok content =>
      obtain ⟨k, hlookup, hgrants⟩ := FileSystem.readText_eq_ok_iff.mp hread
      obtain rfl : k = l :=
        Option.some.inj ((FileSystem.canonical?_of_lookup hlookup).symm.trans hl)
      have hfind := (FileSystem.lookup_eq_ok_iff.mp hlookup).2
      simp only [outcome, hread, fate, hfind, hgrants, if_true]
      cases plan.transform operation content with
      | error failure => rfl
      | ok change =>
          cases change with
          | none => rfl
          | some change =>
              have hwrite := FileSystem.writeText_of_lookup change.text hlookup
              by_cases hgranted : fs.grants .writing k = true
              · simp only [hwrite, if_pos hgranted, Except.toOption]
              · simp only [hwrite, if_neg hgranted, Except.toOption]
  | error cause =>
      obtain ⟨entry, hlookup⟩ := FileSystem.lookup_of_canonical? hl
      have hfind := (FileSystem.lookup_eq_ok_iff.mp hlookup).2
      have hnone : plan.fate operation fs l = none := by
        unfold fate
        rw [hfind]
        split
        · next content htext =>
          refine if_neg fun hgrants => ?_
          rw [Option.some.inj htext] at hlookup
          have htext := FileSystem.readText_eq_ok_iff.mpr ⟨l, hlookup, hgrants⟩
          cases hread.symm.trans htext
        · rfl
      rw [hnone, outcome, hread]
      rfl

/-- What a path is to hold depends on the place that it leads to. -/
theorem newContent?_of_place {path : Path} {l : Location} (hl : fs.canonical? path = some l) :
    plan.newContent? operation fs (.ok path) = plan.contentAt? operation fs l := by
  rw [contentAt?, ← toOption_outcome hl, newContent?]
  cases plan.outcome operation fs path with
  | error failure => rfl
  | ok change =>
      cases change with
      | none => rfl
      | some change =>
          rw [hl]
          rfl

/-- An entry says that its file has failed if its location has no fate. -/
theorem action_entry_eq_failed {path : Path} {l : Location} (hl : fs.canonical? path = some l) :
    (plan.entry operation fs (.ok path)).action = .failed ↔ plan.fate operation fs l = none := by
  rw [← toOption_outcome hl]
  cases houtcome : plan.outcome operation fs path with
  | error failure =>
      rw [entry_of_error houtcome]
      exact iff_of_true rfl rfl
  | ok change =>
      rw [entry_of_ok houtcome]
      exact iff_of_false (outcome_action houtcome).2 (Option.some_ne_none change)

/-- **New contents by locations.** -/
theorem newContents_eq {items : List (Except Failure Path)} (hresolved : Walk.Resolved fs items) :
    plan.newContents operation fs items =
      (Walk.places fs items).filterMap (plan.contentAt? operation fs) := by
  rw [Walk.places, List.filterMap_filterMap, newContents]
  refine List.filterMap_congr fun item hitem => ?_
  cases item with
  | error failure => rfl
  | ok path =>
      obtain ⟨l, hl⟩ := Option.ne_none_iff_exists'.mp (hresolved path hitem)
      rw [newContent?_of_place hl, Walk.place?, hl]
      rfl

end Plan

/-! ## Counts -/

namespace Engine.Completed

open Plan Walk

variable {e : Engine} {operation : Operation} {roots : List Path} {before after : FileSystem}
  {walk : Walk} {report : Report} {calls : List WriteCall}
  (hdone : e.Completed operation roots before walk report after calls)
  (hresolved : Resolved before (e.items before roots walk))

include hdone hresolved

/-- A run scans the files at the locations that its walk meets, and adds its
failures. -/
theorem scannedCount_eq : report.scannedCount = (failures (e.items before roots walk)).length +
    (places before (e.items before roots walk)).length := by
  have hcount := countP_items hresolved (p := fun _ => true) (q := fun _ => true)
    (fun _ => rfl) (fun _ _ _ => rfl)
  rw [List.countP_true, List.countP_true] at hcount
  rw [Report.scannedCount, hdone.files, List.length_map, hcount]

/-- A run fails at the locations without a fate, and at its failures. -/
theorem failedCount_eq : report.failedCount = (failures (e.items before roots walk)).length +
    (places before (e.items before roots walk)).countP fun l =>
      (e.fate operation before l).isNone := by
  rw [Report.failedCount, Report.failed, hdone.files, ← List.countP_eq_length_filter,
    List.countP_map]
  refine countP_items hresolved (fun _ => rfl) fun path l hl => ?_
  rw [Function.comp_apply, Bool.eq_iff_iff, decide_eq_true_eq, Option.isNone_iff_eq_none]
  exact action_entry_eq_failed hl

end Engine.Completed

end LicenseHeaders

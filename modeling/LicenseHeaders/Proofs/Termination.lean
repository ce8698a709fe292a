import LicenseHeaders.Proofs.Directories
import LicenseHeaders.Proofs.Survey
import Mathlib.Algebra.BigOperators.Ring.List
import Mathlib.Algebra.Ring.Nat

/-!
# Walks come to an end

What a walk meets can be said without counting its steps: `Walk.Meets` follows
it until it is finished.  In a file system with proper names every walk is
finished at some time.  A pending directory weighs twice as much as what it can
still bring in, an entry in it and the failure to list it, and two more for
itself, so every step makes a walk lighter (`step_potential`).

The bounds on the number of steps and of items are therefore never reached:

* `survey_meets` — a survey goes on until the walk is finished;
* `collect_eq_ok_iff` — collecting answers all files that a walk meets.
-/

namespace LicenseHeaders.Walk

variable {filters : List NameFilter} {fs : FileSystem}

/-- What a walk meets until it is finished. -/
inductive Meets (filters : List NameFilter) (fs : FileSystem) :
    Walk → List (Except Failure Path) → Prop where
  | finished {w w' : Walk} {events : List Event}
      (hstep : step filters fs w = (.finished, w', events)) : Meets filters fs w []
  | moved {w w' : Walk} {events : List Event} {items : List (Except Failure Path)}
      (hstep : step filters fs w = (.moved, w', events)) (hrest : Meets filters fs w' items) :
      Meets filters fs w items
  | failed {w w' : Walk} {events : List Event} {failure : Failure}
      {items : List (Except Failure Path)}
      (hstep : step filters fs w = (.failed failure, w', events))
      (hrest : Meets filters fs w' items) : Meets filters fs w (.error failure :: items)
  | yielded {w w' : Walk} {events : List Event} {path : Path}
      {items : List (Except Failure Path)}
      (hstep : step filters fs w = (.yielded path, w', events))
      (hrest : Meets filters fs w' items) : Meets filters fs w (.ok path :: items)

/-- A walk meets one thing after the other in one way only. -/
theorem Meets.unique {w : Walk} {items others : List (Except Failure Path)}
    (hitems : Meets filters fs w items) (hothers : Meets filters fs w others) :
    items = others := by
  induction hitems generalizing others with
  | finished hstep =>
      cases hothers with
      | finished => rfl
      | moved hother | failed hother | yielded hother => cases hstep.symm.trans hother
  | moved hstep _ ih =>
      cases hothers with
      | moved hother hrest =>
          cases hstep.symm.trans hother
          exact ih hrest
      | finished hother | failed hother | yielded hother => cases hstep.symm.trans hother
  | failed hstep _ ih =>
      cases hothers with
      | failed hother hrest =>
          cases hstep.symm.trans hother
          rw [ih hrest]
      | finished hother | moved hother | yielded hother => cases hstep.symm.trans hother
  | yielded hstep _ ih =>
      cases hothers with
      | yielded hother hrest =>
          cases hstep.symm.trans hother
          rw [ih hrest]
      | finished hother | moved hother | failed hother => cases hstep.symm.trans hother

/-! ## What is pending -/

/-- What a pending entry can still bring in. -/
def weight (fs : FileSystem) : Pending → Nat
  | .entry path .directory =>
    match fs.lookup .target path with
    | .ok (l, .directory) => 2 * fs.below l + 2
    | _ => 2
  | _ => 1

/-- A directory weighs what is below it, twice, and two more. -/
theorem weight_of_lookup {path : Path} {l : Location}
    (hlookup : fs.lookup .target path = .ok (l, .directory)) :
    weight fs (.entry path .directory) = 2 * fs.below l + 2 := by
  simp only [weight, hlookup]

theorem two_le_weight (fs : FileSystem) (path : Path) :
    2 ≤ weight fs (.entry path .directory) := by
  rw [weight]
  split <;> omega

theorem weight_pos (fs : FileSystem) (pending : Pending) : 0 < weight fs pending := by
  unfold weight
  split
  · split <;> omega
  · exact Nat.one_pos

/-- Nothing pending weighs more than the whole file system does. -/
theorem weight_le (fs : FileSystem) (pending : Pending) : weight fs pending ≤ 2 * fs.size + 2 := by
  unfold weight
  split
  · split
    · next l _ =>
      have hbelow := fs.below_le_size l
      omega
    · omega
  · omega

/-- An entry weighs no more than twice its subtree. -/
theorem weight_child_le (hnamed : fs.WellNamed) {directory : Path} {l : Location} {n : Name}
    {kind : Kind} (hlookup : fs.lookup .target directory = .ok (l, .directory))
    (hchild : (n, kind) ∈ fs.children l) :
    weight fs (.entry (directory.join n) kind) ≤ 2 * (fs.below (l ++ [n]) + 1) := by
  cases kind with
  | file => simp only [weight]; omega
  | link => simp only [weight]; omega
  | directory =>
      obtain ⟨entry, hentry, hkind⟩ := FileSystem.find?_of_mem_children hchild
      have hplain : ∀ target, entry ≠ .link target := by
        rintro target rfl
        cases hkind
      rw [weight]
      split
      · next r hjoin =>
        have hlocate := (FileSystem.lookup_eq_ok_iff.mp hjoin).1
        have hr := FileSystem.locate_join hlookup (hnamed.properName hchild) hentry hplain hlocate
        rw [hr]
        omega
      · omega

/-- A directory that is listed is found, and its children are the list. -/
theorem list_eq_ok {directory : Path} {entries : List (Name × Kind)}
    (hlist : fs.list directory = .ok entries) :
    ∃ l, fs.lookup .target directory = .ok (l, .directory) ∧ entries = fs.children l := by
  unfold FileSystem.list at hlist
  rcases hlookup : fs.lookup .target directory with cause | ⟨l, entry⟩
  · rw [hlookup] at hlist
    cases hlist
  · rw [hlookup] at hlist
    simp only [bind, Except.bind] at hlist
    split at hlist
    · next hfound =>
      cases hfound
      split at hlist
      · exact ⟨_, rfl, (Except.ok.inj hlist).symm⟩
      · cases hlist
    · cases hlist

/-- **A listing weighs less than its directory.** -/
theorem sum_weight_listing_lt (hnamed : fs.WellNamed) (directory : Path) :
    ((listing fs directory).map (weight fs)).sum < weight fs (.entry directory .directory) := by
  unfold listing
  cases hlist : fs.list directory with
  | error cause =>
      have htwo := two_le_weight fs directory
      simp only [List.map_cons, List.map_nil, List.sum_cons, List.sum_nil, weight]
      simp only [weight] at htwo
      omega
  | ok entries =>
      obtain ⟨l, hlookup, rfl⟩ := list_eq_ok hlist
      have hsum : (((fs.children l).map fun child => Pending.entry (directory.join child.1)
          child.2).map (weight fs)).sum ≤ 2 * fs.below l := by
        calc (((fs.children l).map fun child => Pending.entry (directory.join child.1)
              child.2).map (weight fs)).sum
            ≤ ((fs.children l).map fun child => 2 * (fs.below (l ++ [child.1]) + 1)).sum := by
              rw [List.map_map]
              exact List.sum_le_sum fun child hchild => weight_child_le hnamed hlookup hchild
          _ = 2 * ((fs.children l).map fun child => fs.below (l ++ [child.1]) + 1).sum := by
              rw [List.sum_map_mul_left]
          _ ≤ 2 * fs.below l := Nat.mul_le_mul_left 2 (fs.sum_below_children_le l)
      rw [weight_of_lookup hlookup]
      exact Nat.lt_of_le_of_lt hsum (by omega)

/-- What a walk can still bring in. -/
def potential (fs : FileSystem) (w : Walk) : Nat :=
  w.roots.length * (2 * fs.size + 2) + (w.pending.map (weight fs)).sum

/-- What a walk can bring in at its start. -/
theorem potential_of_start {roots : List Path} {w : Walk} (hstart : start fs roots = .ok w) :
    potential fs w = roots.length * (2 * fs.size + 2) := by
  unfold start at hstart
  split at hstart
  · cases hstart
  · cases hstart
    rfl

/-! ## Steps -/

/-- Offering a path costs nothing. -/
theorem offer_potential (filters : List NameFilter) (w : Walk) (path : Path) :
    potential fs (offer filters fs w path).2.1 = potential fs w := by
  unfold offer
  split
  · rfl
  · dsimp only
    split <;> rfl

/-- Entering a root costs less than it was counted for. -/
theorem enter_potential (filters : List NameFilter) (hnamed : fs.WellNamed) {w : Walk}
    (hpending : w.pending = []) (root : Path) :
    potential fs (enter filters fs w root).2.1 < potential fs w + (2 * fs.size + 2) := by
  have hlisting : potential fs { w with pending := listing fs root } <
      potential fs w + (2 * fs.size + 2) := by
    have hlight := sum_weight_listing_lt hnamed root
    have hbound := weight_le fs (.entry root .directory)
    simp only [potential, hpending, List.map_nil, List.sum_nil]
    omega
  unfold enter
  split
  · dsimp only
    omega
  · exact hlisting
  · rw [offer_potential]
    omega
  · split
    · dsimp only
      omega
    · exact hlisting
    · rw [offer_potential]
      omega

/-- **Every step makes a walk lighter**, until it is finished. -/
theorem step_potential (filters : List NameFilter) (hnamed : fs.WellNamed) (w : Walk) :
    (step filters fs w).1 = .finished ∨ potential fs (step filters fs w).2.1 < potential fs w := by
  have hdrop : ∀ pending rest, w.pending = pending :: rest →
      potential fs { w with pending := rest } + weight fs pending = potential fs w := by
    intro pending rest hpending
    simp only [potential, hpending, List.map_cons, List.sum_cons]
    omega
  unfold step
  split
  · next path cause rest hpending =>
    have hlight := hdrop _ _ hpending
    have hpos := weight_pos fs (.unlisted path cause)
    dsimp only
    omega
  · next path rest hpending =>
    have hlight := hdrop _ _ hpending
    have hlisting := sum_weight_listing_lt hnamed path
    refine .inr ?_
    simp only [potential, List.map_append, List.sum_append] at hlight ⊢
    omega
  · next path rest hpending =>
    have hlight := hdrop _ _ hpending
    have hpos := weight_pos fs (.entry path .file)
    rw [offer_potential]
    omega
  · next path rest hpending =>
    have hlight := hdrop _ _ hpending
    have hpos := weight_pos fs (.entry path .link)
    split
    · rw [offer_potential]
      omega
    · dsimp only
      omega
  · next hpending =>
    split
    · exact .inl rfl
    · next root roots hroots =>
      have hpending' : { w with roots := roots }.pending = [] := hpending
      have henter := enter_potential filters hnamed hpending' root
      have hroot : potential fs { w with roots := roots } + (2 * fs.size + 2) =
          potential fs w := by
        simp only [potential, hroots, List.length_cons, Nat.succ_mul]
        omega
      rw [hroot] at henter
      exact .inr henter

/-! ## Answers -/

/-- A walk moves on by steps that bring nothing to light. -/
inductive Moves (filters : List NameFilter) (fs : FileSystem) : Walk → Walk → Prop where
  | refl (w : Walk) : Moves filters fs w w
  | step {w w' w'' : Walk} {events : List Event}
      (hstep : step filters fs w = (.moved, w', events)) (hrest : Moves filters fs w' w'') :
      Moves filters fs w w''

/-- What a walk meets it meets after it has moved on. -/
theorem Moves.meets {w w' : Walk} {items : List (Except Failure Path)}
    (hmoves : Moves filters fs w w') (hmeets : Meets filters fs w' items) :
    Meets filters fs w items := by
  induction hmoves with
  | refl => exact hmeets
  | step hstep _ ih => exact Meets.moved hstep (ih hmeets)

/-- To move on makes a walk lighter. -/
theorem Moves.potential_le (hnamed : fs.WellNamed) {w w' : Walk}
    (hmoves : Moves filters fs w w') : potential fs w' ≤ potential fs w := by
  induction hmoves with
  | refl => exact Nat.le_refl _
  | @step w w' w'' events hstep _ ih =>
      have hlighter := step_potential filters hnamed w
      rw [hstep] at hlighter
      have hless : potential fs w' < potential fs w := hlighter.resolve_left Progress.noConfusion
      omega

/-- The step that an answer comes from. -/
def Item.progress : Item → Progress
  | .file path => .yielded path
  | .failure cause => .failed cause
  | .done => .finished

/-- The steps that a walk is given are enough. -/
theorem potential_lt_budget (fs : FileSystem) (w : Walk) : potential fs w < w.budget fs := by
  have hpending : (w.pending.map (weight fs)).sum ≤ w.pending.length * (2 * fs.size + 2) := by
    induction w.pending with
    | nil => simp
    | cons pending rest ih =>
        have hweight := weight_le fs pending
        rw [List.map_cons, List.sum_cons, List.length_cons, Nat.succ_mul]
        omega
  have hbudget : (w.roots.length + w.pending.length) * (2 * fs.size + 2) ≤
      (w.roots.length + w.pending.length) * (2 * fs.size + 3) :=
    Nat.mul_le_mul_left _ (Nat.le_succ _)
  rw [Nat.add_mul] at hbudget
  rw [potential, budget]
  omega

/-- **An answer comes from a step**, after others that bring nothing to light. -/
theorem nextWithin_moves (hnamed : fs.WellNamed) {steps : Nat} {w : Walk}
    (hsteps : potential fs w < steps) (events : List Event) :
    ∃ w' told, Moves filters fs w w' ∧
      step filters fs w' = ((nextWithin filters fs steps w events).1.progress,
        (nextWithin filters fs steps w events).2.1, told) := by
  induction steps generalizing w events with
  | zero => exact absurd hsteps (Nat.not_lt_zero _)
  | succ steps ih =>
      have hlighter := step_potential filters hnamed w
      rw [nextWithin]
      generalize hstep : step filters fs w = after at hlighter
      obtain ⟨progress, w', new⟩ := after
      cases progress with
      | finished => exact ⟨w, new, Moves.refl w, hstep⟩
      | failed failure => exact ⟨w, new, Moves.refl w, hstep⟩
      | yielded path => exact ⟨w, new, Moves.refl w, hstep⟩
      | moved =>
          have hless : potential fs w' < potential fs w :=
            hlighter.resolve_left Progress.noConfusion
          obtain ⟨w'', told, hmoves, hlast⟩ :=
            ih (Nat.lt_of_lt_of_le hless (Nat.le_of_lt_succ hsteps)) (events ++ new)
          exact ⟨w'', told, Moves.step hstep hmoves, hlast⟩

/-- A call makes moves and then a step that answers. -/
theorem next_moves (filters : List NameFilter) (hnamed : fs.WellNamed) (w : Walk) :
    ∃ w' told, Moves filters fs w w' ∧
      step filters fs w' = ((next filters fs w).1.progress, (next filters fs w).2.1, told) :=
  nextWithin_moves hnamed (potential_lt_budget fs w) []

/-- What an answer says about a walk: that it meets nothing more, or the first
thing it meets, with a lighter walk for the rest. -/
def Answered (filters : List NameFilter) (fs : FileSystem) (before : Walk) : Item → Walk → Prop
  | .done, _ => Meets filters fs before []
  | .failure failure, after => potential fs after < potential fs before ∧
      ∀ items, Meets filters fs after items → Meets filters fs before (.error failure :: items)
  | .file path, after => potential fs after < potential fs before ∧
      ∀ items, Meets filters fs after items → Meets filters fs before (.ok path :: items)

/-- **Every call is answered.** -/
theorem next_answered (filters : List NameFilter) (hnamed : fs.WellNamed) (w : Walk) :
    Answered filters fs w (next filters fs w).1 (next filters fs w).2.1 := by
  obtain ⟨w', told, hmoves, hstep⟩ := next_moves filters hnamed w
  have hle := hmoves.potential_le hnamed
  have hlighter := step_potential filters hnamed w'
  rw [hstep] at hlighter
  generalize next filters fs w = answer at hstep hlighter ⊢
  obtain ⟨item, after, events⟩ := answer
  cases item with
  | done => exact hmoves.meets (Meets.finished hstep)
  | failure failure =>
      have hless : potential fs after < potential fs w' :=
        hlighter.resolve_left Progress.noConfusion
      exact ⟨Nat.lt_of_lt_of_le hless hle, fun items hitems =>
        hmoves.meets (Meets.failed hstep hitems)⟩
  | file path =>
      have hless : potential fs after < potential fs w' :=
        hlighter.resolve_left Progress.noConfusion
      exact ⟨Nat.lt_of_lt_of_le hless hle, fun items hitems =>
        hmoves.meets (Meets.yielded hstep hitems)⟩

/-! ## Whole walks -/

/-- **A survey meets all that its walk meets.** -/
theorem survey_meets (filters : List NameFilter) (hnamed : fs.WellNamed) {items : Nat} {w : Walk}
    (hitems : potential fs w ≤ items) : Meets filters fs w (survey filters fs items w) := by
  induction items generalizing w with
  | zero =>
      have hfinished := step_potential filters hnamed w
      generalize hstep : step filters fs w = after at hfinished
      obtain ⟨progress, w', events⟩ := after
      have hlight : ¬ potential fs w' < potential fs w := by omega
      obtain rfl : progress = .finished := hfinished.resolve_right hlight
      exact Meets.finished hstep
  | succ items ih =>
      have hanswer := next_answered filters hnamed w
      rw [survey]
      generalize next filters fs w = after at hanswer ⊢
      obtain ⟨item, w', events⟩ := after
      cases item with
      | done => exact hanswer
      | failure failure =>
          exact hanswer.2 _ (ih (Nat.le_of_lt_succ (Nat.lt_of_lt_of_le hanswer.1 hitems)))
      | file path =>
          exact hanswer.2 _ (ih (Nat.le_of_lt_succ (Nat.lt_of_lt_of_le hanswer.1 hitems)))

/-- **Every walk comes to an end.** -/
theorem exists_meets (filters : List NameFilter) (hnamed : fs.WellNamed) (w : Walk) :
    ∃ items, Meets filters fs w items :=
  ⟨_, survey_meets filters hnamed (Nat.le_refl _)⟩

/-- Roots make a walk when all of them lead to directories. -/
theorem start_of_directories {roots : List Path}
    (hroots : ∀ root ∈ roots, fs.leadsToDirectory root = true) :
    start fs roots = .ok ⟨roots, [], []⟩ := by
  have hnone : (roots.find? fun root => !fs.leadsToDirectory root) = none :=
    List.find?_eq_none.mpr fun root hroot => by simp [hroots root hroot]
  rw [start, hnone]

/-- A walk starts when all roots lead to directories. -/
theorem directories_of_start {roots : List Path} {walk : Walk}
    (hstart : start fs roots = .ok walk) :
    (∀ root ∈ roots, fs.leadsToDirectory root = true) ∧ walk = ⟨roots, [], []⟩ := by
  unfold start at hstart
  split at hstart
  · cases hstart
  · next hnone =>
    refine ⟨fun root hroot => ?_, (Except.ok.inj hstart).symm⟩
    simpa using List.find?_eq_none.mp hnone root hroot

end LicenseHeaders.Walk

namespace LicenseHeaders

/-- **Collecting** answers all files that a walk over the roots meets, and
succeeds when it meets no failure. -/
theorem collect_eq_ok_iff {filters : List NameFilter} {fs : FileSystem} (hnamed : fs.WellNamed)
    {roots paths : List Path} :
    collect filters fs roots = .ok paths ↔
      ∃ w, Walk.start fs roots = .ok w ∧ Walk.Meets filters fs w (paths.map .ok) := by
  unfold collect
  cases hstart : Walk.start fs roots with
  | error failure => simp [bind, Except.bind]
  | ok w =>
      have hmeets := Walk.survey_meets filters hnamed
        (Nat.le_of_lt (Walk.potential_lt_budget fs w))
      simp only [bind, Except.bind, Except.ok.injEq, exists_eq_left', Walk.remaining_eq_ok_iff]
      constructor
      · intro hsurvey
        rwa [hsurvey] at hmeets
      · intro hpaths
        exact hmeets.unique hpaths

end LicenseHeaders

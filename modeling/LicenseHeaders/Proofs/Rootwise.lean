import LicenseHeaders.Proofs.Termination

/-!
# Failures, root by root

What a walk has yielded decides which files it passes over, and nothing else.
The directories that it enters, and those that it cannot list, are the same
whatever has been seen before.  So a walk over several roots meets the failures
that walks over each single root meet, one root after the other.

* `step_inStep` — walks that differ in what they have seen go side by side;
* `Meets.failures_extends` — a walk with more roots behind its own;
* `length_failures_meets` — the number of failures is a sum over the roots.
-/

namespace LicenseHeaders

/-- The failure that a step meets. -/
def Progress.failure? : Progress → Option Failure
  | .failed failure => some failure
  | _ => none

namespace Walk

variable {filters : List NameFilter} {fs : FileSystem} {w v : Walk} {more : List Path}

/-! ## Side by side -/

/-- A walk looks at the places of another one, and at more roots behind them. -/
structure Extends (w v : Walk) (more : List Path) : Prop where
  roots : v.roots = w.roots ++ more
  pending : v.pending = w.pending

/-- A step of a walk goes with a step of another one. -/
structure InStep (more : List Path) (a b : Progress × Walk × List Event) : Prop where
  after : Extends a.2.1 b.2.1 more
  failure : b.1.failure? = a.1.failure?
  unfinished : b.1 ≠ .finished

section

variable (filters) (fs)

/-- To offer a file concerns only what has been seen. -/
theorem offer_keeps (w : Walk) (path : Path) :
    (offer filters fs w path).2.1.roots = w.roots ∧
      (offer filters fs w path).2.1.pending = w.pending ∧
      (offer filters fs w path).1.failure? = none ∧
      (offer filters fs w path).1 ≠ .finished := by
  unfold offer
  split
  · exact ⟨rfl, rfl, rfl, Progress.noConfusion⟩
  · dsimp only
    split
    · exact ⟨rfl, rfl, rfl, Progress.noConfusion⟩
    · exact ⟨rfl, rfl, rfl, Progress.noConfusion⟩

/-- Offering a path keeps two walks in step. -/
theorem offer_inStep (hextends : Extends w v more) (path : Path) :
    InStep more (offer filters fs w path) (offer filters fs v path) := by
  obtain ⟨hroots, hpending, hfailure, _⟩ := offer_keeps filters fs w path
  obtain ⟨hroots', hpending', hfailure', hunfinished⟩ := offer_keeps filters fs v path
  refine ⟨⟨?_, ?_⟩, hfailure'.trans hfailure.symm, hunfinished⟩
  · rw [hroots', hroots, hextends.roots]
  · rw [hpending', hpending, hextends.pending]

theorem enter_inStep (hextends : Extends w v more) (root : Path) :
    InStep more (enter filters fs w root) (enter filters fs v root) := by
  have hlisted : InStep more
      ((.moved, { w with pending := listing fs root }, []) : Progress × Walk × List Event)
      (.moved, { v with pending := listing fs root }, []) :=
    ⟨⟨hextends.roots, rfl⟩, rfl, Progress.noConfusion⟩
  have hoffered := offer_inStep filters fs hextends root
  unfold enter
  split
  · exact ⟨hextends, rfl, Progress.noConfusion⟩
  · exact hlisted
  · exact hoffered
  · split
    · exact ⟨hextends, rfl, Progress.noConfusion⟩
    · exact hlisted
    · exact hoffered

/-- A walk is finished when nothing is left to look at. -/
theorem step_finished (hfinished : (step filters fs w).1 = .finished) :
    w.roots = [] ∧ w.pending = [] := by
  unfold step at hfinished
  split at hfinished
  · cases hfinished
  · cases hfinished
  · exact absurd hfinished (offer_keeps filters fs _ _).2.2.2
  · split at hfinished
    · exact absurd hfinished (offer_keeps filters fs _ _).2.2.2
    · cases hfinished
  · next hpending =>
    split at hfinished
    · next hroots => exact ⟨hroots, hpending⟩
    · next root roots hroots =>
      have hself : Extends { w with roots := roots } { w with roots := roots } [] :=
        ⟨(List.append_nil _).symm, rfl⟩
      exact absurd hfinished (enter_inStep filters fs hself root).unfinished

/-- **Walks go side by side**, whatever they have seen. -/
theorem step_inStep (hextends : Extends w v more)
    (hunfinished : (step filters fs w).1 ≠ .finished) :
    InStep more (step filters fs w) (step filters fs v) := by
  obtain ⟨roots, pending, seen⟩ := w
  obtain ⟨roots', pending', seen'⟩ := v
  obtain rfl : roots' = roots ++ more := hextends.roots
  obtain rfl : pending' = pending := hextends.pending
  have hrest : ∀ rest : List Pending,
      Extends ⟨roots, rest, seen⟩ ⟨roots ++ more, rest, seen'⟩ more := fun _ => ⟨rfl, rfl⟩
  cases pending' with
  | nil =>
      cases roots with
      | nil => exact absurd rfl hunfinished
      | cons root roots =>
          have hentered := enter_inStep filters fs (w := ⟨roots, [], seen⟩)
            (v := ⟨roots ++ more, [], seen'⟩) ⟨rfl, rfl⟩ root
          exact ⟨hentered.after, hentered.failure, hentered.unfinished⟩
  | cons first rest =>
      cases first with
      | unlisted path cause => exact ⟨hrest rest, rfl, Progress.noConfusion⟩
      | entry path kind =>
          have hoffered := offer_inStep filters fs (hrest rest) path
          cases kind with
          | directory => exact ⟨hrest _, rfl, Progress.noConfusion⟩
          | file => exact hoffered
          | link =>
              unfold step
              by_cases hleads : fs.leadsToFile path = true
              · simp only [hleads, if_true]
                exact hoffered
              · simp only [hleads]
                exact ⟨hrest rest, rfl, Progress.noConfusion⟩

end

/-! ## Failures -/

/-- The failure among the things that a walk can meet. -/
def failure? : Except Failure Path → Option Failure
  | .error failure => some failure
  | .ok _ => none

/-- The failures among what a walk meets. -/
def failures (items : List (Except Failure Path)) : List Failure := items.filterMap failure?

@[simp] theorem failures_nil : failures [] = [] := rfl
@[simp] theorem failures_error (failure : Failure) (items : List (Except Failure Path)) :
    failures (.error failure :: items) = failure :: failures items := rfl
@[simp] theorem failures_ok (path : Path) (items : List (Except Failure Path)) :
    failures (.ok path :: items) = failures items := rfl

variable {items others : List (Except Failure Path)}

/-- A walk that is not finished meets the failure of its next step, if there is one,
and then those of the rest. -/
theorem Meets.failures_step (hitems : Meets filters fs w items)
    (hunfinished : (step filters fs w).1 ≠ .finished) :
    ∃ rest, Meets filters fs (step filters fs w).2.1 rest ∧
      failures items = (step filters fs w).1.failure?.toList ++ failures rest := by
  cases hitems with
  | finished hstep => exact absurd (congrArg Prod.fst hstep) hunfinished
  | moved hstep hrest =>
      rw [hstep]
      exact ⟨_, hrest, rfl⟩
  | failed hstep hrest =>
      rw [hstep]
      exact ⟨_, hrest, rfl⟩
  | yielded hstep hrest =>
      rw [hstep]
      exact ⟨_, hrest, rfl⟩

/-- What a walk with more roots meets after a step of the other one. -/
theorem Extends.failures_step (hextends : Extends w v more) (hothers : Meets filters fs v others)
    {progress : Progress} {w' : Walk} {events : List Event}
    (hstep : step filters fs w = (progress, w', events)) (hunfinished : progress ≠ .finished) :
    ∃ v' rest, Extends w' v' more ∧ Meets filters fs v' rest ∧
      failures others = progress.failure?.toList ++ failures rest := by
  have hside := step_inStep filters fs hextends (by rwa [hstep])
  obtain ⟨rest, hrest, hfailures⟩ := hothers.failures_step hside.unfinished
  rw [hstep] at hside
  rw [hside.failure] at hfailures
  exact ⟨_, rest, hside.after, hrest, hfailures⟩

/-- **With more roots behind its own**, a walk meets its own failures, and then those
below the other roots. -/
theorem Meets.failures_extends (hitems : Meets filters fs w items) (hextends : Extends w v more)
    (hothers : Meets filters fs v others) {behind : List Failure}
    (hbehind : ∀ seen rest, Meets filters fs ⟨more, [], seen⟩ rest → failures rest = behind) :
    failures others = failures items ++ behind := by
  induction hitems generalizing v others with
  | @finished w w' events hstep =>
      obtain ⟨hroots, hpending⟩ := step_finished filters fs (congrArg Prod.fst hstep)
      obtain ⟨roots, pending, seen⟩ := v
      have hmore : roots = more := hextends.roots.trans (by rw [hroots, List.nil_append])
      have hnone : pending = [] := hextends.pending.trans hpending
      subst hmore hnone
      exact hbehind seen others hothers
  | moved hstep _ ih =>
      obtain ⟨v', rest, hafter, hrest, hfailures⟩ :=
        hextends.failures_step hothers hstep Progress.noConfusion
      rw [hfailures, ih hafter hrest]
      rfl
  | failed hstep _ ih =>
      obtain ⟨v', rest, hafter, hrest, hfailures⟩ :=
        hextends.failures_step hothers hstep Progress.noConfusion
      rw [hfailures, ih hafter hrest]
      rfl
  | yielded hstep _ ih =>
      obtain ⟨v', rest, hafter, hrest, hfailures⟩ :=
        hextends.failures_step hothers hstep Progress.noConfusion
      rw [hfailures, ih hafter hrest]
      rfl

/-- A walk without roots meets nothing. -/
theorem Meets.of_nothing {seen : List (List Path.Component)}
    (hitems : Meets filters fs ⟨[], [], seen⟩ items) : items = [] := by
  cases hitems with
  | finished => rfl
  | moved hstep => cases hstep
  | failed hstep => cases hstep
  | yielded hstep => cases hstep

/-- **The failures that a walk meets do not depend on what has been seen.** -/
theorem Meets.failures_eq {roots : List Path} {pending : List Pending}
    {seen seen' : List (List Path.Component)}
    (hitems : Meets filters fs ⟨roots, pending, seen⟩ items)
    (hothers : Meets filters fs ⟨roots, pending, seen'⟩ others) :
    failures others = failures items := by
  have hextends : Extends ⟨roots, pending, seen⟩ ⟨roots, pending, seen'⟩ [] :=
    ⟨(List.append_nil roots).symm, rfl⟩
  have hall := hitems.failures_extends hextends hothers fun seen rest hrest =>
    congrArg failures hrest.of_nothing
  rwa [failures_nil, List.append_nil] at hall

/-! ## Roots -/

/-- The number of failures that a walk over a single root meets. -/
def failing (filters : List NameFilter) (fs : FileSystem) (root : Path) : Nat :=
  let walk : Walk := ⟨[root], [], []⟩
  (failures (survey filters fs (walk.budget fs) walk)).length

/-- **A walk meets the failures below each of its roots.** -/
theorem length_failures_meets (hnamed : fs.WellNamed) {roots : List Path}
    (hitems : Meets filters fs ⟨roots, [], []⟩ items) :
    (failures items).length = (roots.map (failing filters fs)).sum := by
  induction roots generalizing items with
  | nil =>
      rw [hitems.of_nothing]
      rfl
  | cons root roots ih =>
      have hsingle : Meets filters fs ⟨[root], [], []⟩ _ :=
        survey_meets filters hnamed (Nat.le_of_lt (potential_lt_budget fs _))
      obtain ⟨rest, hrest⟩ := exists_meets filters hnamed ⟨roots, [], []⟩
      have hextends : Extends ⟨[root], [], []⟩ ⟨root :: roots, [], []⟩ roots := ⟨rfl, rfl⟩
      have hall := hsingle.failures_extends hextends hitems fun seen others hothers =>
        hrest.failures_eq hothers
      rw [hall, List.length_append, ih hrest, List.map_cons, List.sum_cons]
      rfl

end Walk

end LicenseHeaders

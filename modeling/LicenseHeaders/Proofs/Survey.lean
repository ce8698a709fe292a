import LicenseHeaders.Proofs.Outline

/-!
# What a walk meets

In a tree that does not change, a walk is nothing but the list of what it
meets: the files it yields and its failures, in order (`Walk.survey`).  The list
depends on the outline of the tree alone, and no two files in it are the same
(`survey_apart`): a file is yielded only when its identity is new, and from
then on it is not.

* `remaining_eq_ok_iff` — collecting succeeds when a walk meets no failure, and
  answers the files it meets;
* `survey_take` — fewer items are the first items.
-/

namespace LicenseHeaders.Walk

variable {filters : List NameFilter} {fs : FileSystem}

/-- What a walk meets from here on, at most `items` things. -/
def survey (filters : List NameFilter) (fs : FileSystem) :
    (items : Nat) → Walk → List (Except Failure Path)
  | 0, _ => []
  | items + 1, w =>
    match next filters fs w with
    | (.done, _, _) => []
    | (.failure failure, w, _) => .error failure :: survey filters fs items w
    | (.file path, w, _) => .ok path :: survey filters fs items w

/-- Surveying reads no contents. -/
@[simp] theorem survey_outline (items : Nat) (w : Walk) :
    survey filters fs.outline items w = survey filters fs items w := by
  induction items generalizing w with
  | zero => rfl
  | succ items ih =>
      rw [survey, survey, next_outline]
      rcases next filters fs w with ⟨item, w', events⟩
      cases item <;> simp only [ih]

/-- Collecting answers exactly the files of a walk without failures. -/
theorem remaining_eq_ok_iff {items : Nat} {w : Walk} {paths : List Path} :
    remaining filters fs items w = .ok paths ↔ survey filters fs items w = paths.map .ok := by
  have hnil : ∀ paths : List Path, (.ok [] : Except Failure (List Path)) = .ok paths ↔
      ([] : List (Except Failure Path)) = paths.map .ok := by
    intro paths
    cases paths <;> simp
  induction items generalizing w paths with
  | zero => exact hnil paths
  | succ items ih =>
      rw [remaining, survey]
      rcases next filters fs w with ⟨item, w', events⟩
      cases item with
      | done => exact hnil paths
      | failure failure => cases paths <;> simp
      | file path =>
          dsimp only
          cases hremaining : remaining filters fs items w' with
          | ok others =>
              have hinjective : ∀ p q : Path, (.ok p : Except Failure Path) = .ok q → p = q :=
                fun _ _ h => Except.ok.inj h
              rw [ih.mp hremaining, Except.map, Except.ok.injEq, ← List.map_cons,
                List.map_inj_right hinjective]
          | error failure =>
              constructor
              · intro h
                cases h
              · intro hsurvey
                cases paths with
                | nil => cases hsurvey
                | cons first rest =>
                    have hrest := ih.mpr (List.cons.inj hsurvey).2
                    rw [hremaining] at hrest
                    cases hrest

/-- To offer a file is no failure. -/
theorem offer_ne_failed (w : Walk) (path : Path) (failure : Failure) :
    (offer filters fs w path).1 ≠ .failed failure := by
  unfold offer
  split
  · exact Progress.noConfusion
  · dsimp only
    split <;> exact Progress.noConfusion

end LicenseHeaders.Walk

namespace LicenseHeaders

/-! ## Identities -/

/-- The path that a step yields. -/
def Progress.path? : Progress → Option Path
  | .yielded path => some path
  | _ => none

namespace Walk

/-- The path that a walk answers. -/
def Item.path? : Item → Option Path
  | .file path => some path
  | _ => none

/-- What a walk answers to a run, unless it has come to its end. -/
def Item.met? : Item → Option (Except Failure Path)
  | .file path => some (.ok path)
  | .failure cause => some (.error cause)
  | .done => none

/-- An item has a path when it is met as one. -/
theorem Item.path?_of_met? {item : Item} {met : Except Failure Path} (hmet : item.met? = some met) :
    item.path? = met.toOption := by
  cases item <;> cases hmet <;> rfl

/-- A walk meets its next answer and what comes behind it. -/
theorem survey_succ (filters : List NameFilter) (fs : FileSystem) (items : Nat) (w : Walk) :
    survey filters fs (items + 1) w =
      (next filters fs w).1.met?.elim [] fun met =>
        met :: survey filters fs items (next filters fs w).2.1 := by
  rw [survey]
  rcases next filters fs w with ⟨item, w', events⟩
  cases item <;> rfl

/-- What happens to the identities that have been seen: a file that is yielded
is a new one and is added, and otherwise they stay as they are. -/
def Notes (fs : FileSystem) (before after : Walk) : Option Path → Prop
  | some path => identity fs path ∉ before.seen ∧ after.seen = identity fs path :: before.seen
  | none => after.seen = before.seen

section

variable (filters : List NameFilter) (fs : FileSystem)

theorem offer_notes (w : Walk) (path : Path) :
    Notes fs w (offer filters fs w path).2.1 (offer filters fs w path).1.path? := by
  unfold offer
  split
  · exact rfl
  · dsimp only
    split
    · exact rfl
    · next hnew => exact ⟨hnew, rfl⟩

theorem enter_notes (w : Walk) (root : Path) :
    Notes fs w (enter filters fs w root).2.1 (enter filters fs w root).1.path? := by
  unfold enter
  split
  · exact rfl
  · exact rfl
  · exact offer_notes filters fs w root
  · split
    · exact rfl
    · exact rfl
    · exact offer_notes filters fs w root

/-- A step yields nothing that has been seen, and remembers what it yields. -/
theorem step_notes (w : Walk) :
    Notes fs w (step filters fs w).2.1 (step filters fs w).1.path? := by
  unfold step
  split
  · exact rfl
  · exact rfl
  · next path rest _ => exact offer_notes filters fs { w with pending := rest } path
  · next path rest _ =>
    split
    · exact offer_notes filters fs { w with pending := rest } path
    · exact rfl
  · split
    · exact rfl
    · next root roots _ => exact enter_notes filters fs { w with roots := roots } root

theorem nextWithin_notes (steps : Nat) (w : Walk) (events : List Event) :
    Notes fs w (nextWithin filters fs steps w events).2.1
      (nextWithin filters fs steps w events).1.path? := by
  induction steps generalizing w events with
  | zero => exact rfl
  | succ steps ih =>
      have hstep := step_notes filters fs w
      rw [nextWithin]
      generalize step filters fs w = after at hstep ⊢
      obtain ⟨progress, w', new⟩ := after
      cases progress with
      | yielded path => exact hstep
      | failed failure => exact hstep
      | finished => exact hstep
      | moved =>
          -- A step that only moves on keeps what has been seen.
          have hseen : w'.seen = w.seen := hstep
          have hrest := ih w' (events ++ new)
          unfold Notes at hrest ⊢
          rwa [hseen] at hrest

/-- A call notes the path that it yields, and no other. -/
theorem next_notes (w : Walk) : Notes fs w (next filters fs w).2.1 (next filters fs w).1.path? :=
  nextWithin_notes filters fs _ w []

end

variable {filters : List NameFilter} {fs : FileSystem}

/-- A survey meets no file that has been seen. -/
theorem identity_not_mem_seen {items : Nat} {w : Walk} {path : Path}
    (hpath : .ok path ∈ survey filters fs items w) : identity fs path ∉ w.seen := by
  induction items generalizing w with
  | zero => cases hpath
  | succ items ih =>
      have hnotes := next_notes filters fs w
      rw [survey] at hpath
      generalize next filters fs w = after at hnotes hpath
      obtain ⟨item, w', events⟩ := after
      cases item with
      | done => cases hpath
      | failure failure =>
          have hseen : w'.seen = w.seen := hnotes
          rcases List.mem_cons.mp hpath with hhead | hrest
          · cases hhead
          · exact hseen ▸ ih hrest
      | file first =>
          obtain ⟨hnew, hseen⟩ : identity fs first ∉ w.seen ∧
            w'.seen = identity fs first :: w.seen := hnotes
          rcases List.mem_cons.mp hpath with hhead | hrest
          · cases hhead
            exact hnew
          · intro hold
            exact ih hrest (hseen ▸ List.mem_cons_of_mem _ hold)

/-- Two things a walk meets are not the same file. -/
def Apart (fs : FileSystem) (a b : Except Failure Path) : Prop :=
  ∀ p q, a = .ok p → b = .ok q → identity fs p ≠ identity fs q

section

variable {before after : Walk} {handled : List (Except Failure Path)} {item : Except Failure Path}
  (hnotes : Notes fs before after item.toOption)
  (hseen : ∀ path, .ok path ∈ handled → identity fs path ∈ before.seen)

include hnotes hseen

/-- An item is none of the files that have been seen. -/
theorem Notes.apart : ∀ other ∈ handled, Apart fs item other := by
  intro other hother p q hp hq hsame
  subst hp
  subst hq
  exact hnotes.1 (hsame ▸ hseen q hother)

/-- An item is seen from then on. -/
theorem Notes.seen : ∀ path, .ok path ∈ handled ++ [item] → identity fs path ∈ after.seen := by
  intro path hpath
  rcases List.mem_append.mp hpath with hold | hlast
  · cases item with
    | error failure => exact hnotes ▸ hseen path hold
    | ok last => exact hnotes.2 ▸ List.mem_cons_of_mem _ (hseen path hold)
  · rw [List.mem_singleton] at hlast
    subst hlast
    exact hnotes.2 ▸ List.mem_cons_self

end

/-- **No file is met twice.** -/
theorem survey_apart (items : Nat) (w : Walk) :
    (survey filters fs items w).Pairwise (Apart fs) := by
  induction items generalizing w with
  | zero => exact List.Pairwise.nil
  | succ items ih =>
      have hnotes := next_notes filters fs w
      rw [survey]
      generalize next filters fs w = after at hnotes ⊢
      obtain ⟨item, w', events⟩ := after
      cases item with
      | done => exact List.Pairwise.nil
      | failure failure =>
          refine List.Pairwise.cons ?_ (ih w')
          intro other _ p q hp
          cases hp
      | file first =>
          obtain ⟨_, hseen⟩ : identity fs first ∉ w.seen ∧
            w'.seen = identity fs first :: w.seen := hnotes
          refine List.Pairwise.cons ?_ (ih w')
          intro other hother p q hp hq hsame
          cases hp
          cases hq
          have hunseen := identity_not_mem_seen hother
          rw [hseen, ← hsame] at hunseen
          exact hunseen List.mem_cons_self

/-! ## Identities -/

/-- The identity of a file that can be resolved is its location. -/
theorem identity_of_canonical? {path : Path} {l : Location}
    (hl : fs.canonical? path = some l) : identity fs path = .root :: l.map .name := by
  simp only [identity, hl]

/-- Files that are apart have different locations. -/
theorem Apart.canonical?_ne {p q : Path} {l : Location} (hapart : Apart fs (.ok p) (.ok q))
    (hp : fs.canonical? p = some l) : fs.canonical? q ≠ some l := by
  intro hq
  refine hapart p q rfl rfl ?_
  rw [identity_of_canonical? hp, identity_of_canonical? hq]

/-! ## Fewer items -/

/-- A walk that is asked for fewer items meets the first of them. -/
theorem survey_take {count items : Nat}
    (hcount : count ≤ items) (w : Walk) :
    survey filters fs count w = (survey filters fs items w).take count := by
  induction count generalizing items w with
  | zero => rfl
  | succ count ih =>
      obtain ⟨items, rfl⟩ : ∃ rest, items = rest + 1 := ⟨items - 1, by omega⟩
      have hrest : count ≤ items := Nat.le_of_succ_le_succ hcount
      rw [survey, survey]
      rcases next filters fs w with ⟨item, w', events⟩
      cases item with
      | done => rfl
      | failure failure => simp only [List.take_succ_cons, ih hrest]
      | file path => simp only [List.take_succ_cons, ih hrest]

/-- A survey meets no more items than it asks for. -/
theorem length_survey_le (items : Nat) (w : Walk) :
    (survey filters fs items w).length ≤ items := by
  induction items generalizing w with
  | zero => exact Nat.le_refl _
  | succ items ih =>
      rw [survey]
      rcases next filters fs w with ⟨item, w', events⟩
      cases item with
      | done => exact Nat.zero_le _
      | failure failure => exact Nat.succ_le_succ (ih w')
      | file path => exact Nat.succ_le_succ (ih w')

end Walk

end LicenseHeaders

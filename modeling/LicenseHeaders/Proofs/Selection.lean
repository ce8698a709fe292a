import LicenseHeaders.Proofs.Postcondition
import LicenseHeaders.Proofs.Visiting

/-!
# Which files are selected

A walk keeps a list of what it has listed and not yet looked at.  What is at or
below these places, and below the roots that have not been entered, is what lies
ahead (`Tracks`, `Ahead`).  A step takes the first place away or puts what is in
it in its stead, so that nothing gets lost and nothing comes out of order
(`Tracks.turn`).  By induction the files that a walk meets are the first ones of
their identity among all that are eligible.

* `Chosen` — the first ones of each identity, in order;
* `Turn`, `Tracks.turn` — all that a step can do;
* `Tracks.chosen`, `Tracks.quiet` — what a walk meets from any point on, and when
  it meets no failure;
* `collect_selects` — what collecting answers.
-/

namespace LicenseHeaders

namespace Visit

/-- A file that is to be selected: it is regular or a link to a regular file, and
its base name is not excluded and matches the pattern. -/
structure Eligible (fs : FileSystem) (roots : List Path) (criteria : Criteria)
    (pattern : Pattern) (v : Visit) : Prop where
  regular : ∃ l entry, Reached fs roots v l entry ∧
    ((∃ content, entry = .file content) ∨
      (∃ target, entry = .link target) ∧ fs.leadsToFile (v.path roots) = true)
  unexcluded : (v.path roots).baseName ∉ criteria.excluded
  matching : pattern.accepts (v.path roots).baseName = true

/-- What is eligible is no directory. -/
theorem Eligible.leaf {fs : FileSystem} {roots : List Path} {criteria : Criteria}
    {pattern : Pattern} {v : Visit} (heligible : Eligible fs roots criteria pattern v) :
    ∃ l entry, Reached fs roots v l entry ∧ entry ≠ .directory := by
  obtain ⟨l, entry, hreached, ⟨_, rfl⟩ | ⟨⟨_, rfl⟩, _⟩⟩ := heligible.regular
  · exact ⟨l, _, hreached, Entry.noConfusion⟩
  · exact ⟨l, _, hreached, Entry.noConfusion⟩

/-- The identity of a place: its canonical location, or its path when it cannot
be resolved. -/
def key (fs : FileSystem) (roots : List Path) (v : Visit) : List Path.Component :=
  Walk.identity fs (v.path roots)

end Visit

/-! ## The first of each identity -/

/-- The first places of each identity among those with the property `A`, in the
order of visiting; identities in `seen` are left out. -/
structure Chosen {K : Type} (key : Visit → K) (A : Visit → Prop) (seen : List K)
    (visits : List Visit) : Prop where
  ordered : visits.Pairwise Visit.Before
  distinct : (visits.map key).Nodup
  among : ∀ v ∈ visits, A v
  fresh : ∀ v ∈ visits, key v ∉ seen
  complete : ∀ q, A q → key q ∈ seen ∨ ∃ v ∈ visits, key v = key q ∧ (q = v ∨ v.Before q)

namespace Chosen

variable {K : Type} {key : Visit → K} {A A' : Visit → Prop} {seen : List K} {visits : List Visit}

/-- Nothing is chosen when there is nothing to choose from. -/
theorem nil (hnone : ∀ q, ¬ A q) : Chosen key A seen [] where
  ordered := List.Pairwise.nil
  distinct := List.nodup_nil
  among := fun _ hv => by cases hv
  fresh := fun _ hv => by cases hv
  complete := fun q hq => absurd hq (hnone q)

/-- Nothing is chosen that has been seen. -/
theorem skip (hchosen : Chosen key A' seen visits) (hsound : ∀ q, A' q → A q)
    (hcomplete : ∀ q, A q → A' q ∨ key q ∈ seen) : Chosen key A seen visits where
  ordered := hchosen.ordered
  distinct := hchosen.distinct
  among := fun v hv => hsound v (hchosen.among v hv)
  fresh := hchosen.fresh
  complete := fun q hq => (hcomplete q hq).elim (hchosen.complete q) .inl

/-- The first place is chosen when its identity is new. -/
theorem cons {v : Visit} (hchosen : Chosen key A' (key v :: seen) visits) (hv : A v)
    (hnew : key v ∉ seen) (hsound : ∀ q, A' q → A q ∧ v.Before q)
    (hcomplete : ∀ q, A q → A' q ∨ q = v) : Chosen key A seen (v :: visits) where
  ordered := List.pairwise_cons.mpr
    ⟨fun u hu => (hsound u (hchosen.among u hu)).2, hchosen.ordered⟩
  distinct := by
    refine List.nodup_cons.mpr ⟨fun hmem => ?_, hchosen.distinct⟩
    obtain ⟨u, hu, hsame⟩ := List.mem_map.mp hmem
    exact hchosen.fresh u hu (hsame ▸ List.mem_cons_self)
  among := List.forall_mem_cons.mpr ⟨hv, fun u hu => (hsound u (hchosen.among u hu)).1⟩
  fresh := List.forall_mem_cons.mpr
    ⟨hnew, fun u hu hold => hchosen.fresh u hu (List.mem_cons_of_mem _ hold)⟩
  complete := by
    intro q hq
    rcases hcomplete q hq with hlater | rfl
    · rcases hchosen.complete q hlater with hseen | ⟨u, hu, hsame, hfirst⟩
      · rcases List.mem_cons.mp hseen with hsame | hold
        · exact .inr ⟨v, List.mem_cons_self, hsame.symm, .inr (hsound q hlater).2⟩
        · exact .inl hold
      · exact .inr ⟨u, List.mem_cons_of_mem _ hu, hsame, hfirst⟩
    · exact .inr ⟨q, List.mem_cons_self, rfl, .inl rfl⟩

/-- **Each identity has one place**, which is its first. -/
theorem first (hchosen : Chosen key A [] visits) {q : Visit} (hq : A q) :
    ∃ v ∈ visits, key v = key q ∧ (∀ u ∈ visits, key u = key q → u = v) ∧
      ∀ u, A u → key u = key q → u = v ∨ v.Before u := by
  have hunique : ∀ u ∈ visits, ∀ v ∈ visits, key u = key v → u = v :=
    fun u hu v hv => List.inj_on_of_nodup_map hchosen.distinct hu hv
  obtain ⟨v, hv, hsame, _⟩ := (hchosen.complete q hq).resolve_left List.not_mem_nil
  refine ⟨v, hv, hsame, fun u hu hkey => hunique u hu v hv (hkey.trans hsame.symm), ?_⟩
  intro u hu hkey
  obtain ⟨w, hw, hwu, hfirst⟩ := (hchosen.complete u hu).resolve_left List.not_mem_nil
  obtain rfl := hunique w hw v hv (hwu.trans (hkey.trans hsame.symm))
  exact hfirst

end Chosen

namespace Walk

open Visit

variable {fs : FileSystem} {roots : List Path} {criteria : Criteria} {pattern : Pattern}
  {filters : List NameFilter}

/-! ## Filters -/

/-- Criteria with a pattern that can be read have filters. -/
theorem filters_of_pattern (hpattern : Pattern.read criteria.pattern = .ok pattern) :
    criteria.filters = .ok [.excluded (sortedNames criteria.excluded), .pattern pattern] := by
  simp only [Criteria.filters, hpattern, bind, Except.bind]
  rfl

theorem mem_sortedNames {name : Name} {names : List Name} :
    name ∈ sortedNames names ↔ name ∈ names := by
  rw [sortedNames, List.mem_eraseDups, List.mem_mergeSort]

/-- **Nothing speaks against a path** exactly if its base name is not excluded and
matches the pattern. -/
theorem firstRejection?_eq_none_iff {path : Path} :
    firstRejection? [.excluded (sortedNames criteria.excluded), .pattern pattern] path = none ↔
      path.baseName ∉ criteria.excluded ∧ pattern.accepts path.baseName = true := by
  simp [firstRejection?, NameFilter.rejection?, mem_sortedNames]

/-! ## What lies ahead -/

/-- A place is still ahead when its root has not been entered, or when it is at or
below one that is pending. -/
def Ahead (i : Nat) (places : List (Visit × Kind)) (q : Visit) : Prop :=
  i ≤ q.root ∨ ∃ place ∈ places, q.Within place.1

/-- **The state of a walk**: it has entered the roots before `i`; the places that
are pending are reached and in order; and the way to each of them is open. -/
structure Tracks (fs : FileSystem) (roots : List Path) (i : Nat) (places : List (Visit × Kind))
    (w : Walk) : Prop where
  waiting : w.roots = roots.drop i
  pending : w.pending = places.map fun place => .entry (place.1.path roots) place.2
  entered : ∀ place ∈ places, place.1.root < i
  reached : ∀ place ∈ places, ∃ l entry, Reached fs roots place.1 l entry ∧ entry.kind = place.2
  unbarred : ∀ place ∈ places, Open fs roots place.1
  ordered : places.Pairwise fun a b => a.1.Precedes b.1

/-- What is directly in a directory. -/
def inside (fs : FileSystem) (v : Visit) (l : Location) : List (Visit × Kind) :=
  (fs.children l).map fun child => (v.child child.1, child.2)

section

variable {i : Nat} {v q : Visit} {kind : Kind} {rest : List (Visit × Kind)} {l k : Location}
  {entry other : Entry}

/-- What is reached at or below a directory. -/
theorem within_directory_iff (hreached : Reached fs roots v l .directory)
    (hq : Reached fs roots q k other) :
    q.Within v ↔ q = v ∨ ∃ place ∈ inside fs v l, q.Within place.1 := by
  rw [within_iff]
  refine or_congr_right ⟨?_, ?_⟩
  · rintro ⟨n, hbelow⟩
    obtain ⟨_, found, hchild⟩ := hq.of_within hbelow
    obtain ⟨l', hparent, rfl, hfind⟩ := reached_child_iff.mp hchild
    obtain rfl := hparent.unique hreached
    exact ⟨_, List.mem_map_of_mem (mem_children_of_find? hfind), hbelow⟩
  · rintro ⟨place, hplace, hwithin⟩
    obtain ⟨child, _, rfl⟩ := List.mem_map.mp hplace
    exact ⟨child.1, hwithin⟩

/-- What is ahead when the first place is a directory. -/
theorem ahead_directory_iff (hreached : Reached fs roots v l .directory)
    (hq : Reached fs roots q k other) :
    Ahead i ((v, kind) :: rest) q ↔ q = v ∨ Ahead i (inside fs v l ++ rest) q := by
  simp only [Ahead, List.exists_mem_cons_iff, List.mem_append, or_and_right, exists_or,
    within_directory_iff hreached hq]
  rw [or_assoc, or_left_comm]

/-- What is ahead when the first place is no directory. -/
theorem ahead_leaf_iff (hreached : Reached fs roots v l entry) (hleaf : entry ≠ .directory)
    (hq : Reached fs roots q k other) :
    Ahead i ((v, kind) :: rest) q ↔ q = v ∨ Ahead i rest q := by
  have hwithin : q.Within v ↔ q = v :=
    ⟨eq_of_within hq hreached hleaf, fun h => h ▸ Within.refl q⟩
  simp only [Ahead, List.exists_mem_cons_iff, hwithin]
  exact or_left_comm

/-- What is ahead is within the next place or behind it. -/
theorem ahead_cons_iff {place : Visit × Kind} :
    Ahead i (place :: rest) q ↔ q.Within place.1 ∨ Ahead i rest q := by
  simp only [Ahead, List.exists_mem_cons_iff]
  exact or_left_comm

/-- What is ahead when a root is entered. -/
theorem ahead_root_iff : Ahead i [] q ↔ Ahead (i + 1) [(⟨i, []⟩, .directory)] q := by
  have hwithin : q.Within ⟨i, []⟩ ↔ q.root = i := ⟨fun h => h.1, fun h => ⟨h, List.nil_prefix⟩⟩
  simp only [Ahead, List.not_mem_nil, false_and, exists_false, or_false, List.mem_singleton,
    exists_eq_left, hwithin]
  omega

/-- Nothing is ahead when all roots have been entered and nothing is pending. -/
theorem not_ahead (hroots : roots.length ≤ i) (hq : Reached fs roots q k other) :
    ¬ Ahead i [] q := by
  rintro (hroot | ⟨place, hplace, _⟩)
  · obtain ⟨root, _, hget, _⟩ := hq.exists_root
    have hlength := (List.getElem?_eq_some_iff.mp hget).1
    omega
  · cases hplace

/-- The first place comes before all else that is ahead. -/
theorem Tracks.before_of_ahead {w : Walk} (htracks : Tracks fs roots i ((v, kind) :: rest) w)
    (hahead : Ahead i rest q) : v.Before q := by
  rcases hahead with hroot | ⟨place, hplace, hwithin⟩
  · exact .inl (Nat.lt_of_lt_of_le (htracks.entered (v, kind) List.mem_cons_self) hroot)
  · exact (List.pairwise_cons.mp htracks.ordered).1 place hplace v q (Within.refl v) hwithin

/-- The walk without the first place. -/
theorem Tracks.tail {place : Visit × Kind} {w w' : Walk}
    (htracks : Tracks fs roots i (place :: rest) w) (hroots : w'.roots = w.roots)
    (hpending : w'.pending = w.pending.tail) : Tracks fs roots i rest w' where
  waiting := hroots.trans htracks.waiting
  pending := by rw [hpending, htracks.pending, List.map_cons, List.tail_cons]
  entered := fun other hother => htracks.entered other (List.mem_cons_of_mem _ hother)
  reached := fun other hother => htracks.reached other (List.mem_cons_of_mem _ hother)
  unbarred := fun other hother => htracks.unbarred other (List.mem_cons_of_mem _ hother)
  ordered := (List.pairwise_cons.mp htracks.ordered).2

/-- The same places are pending when further roots have been passed over. -/
theorem Tracks.skip {places : List (Visit × Kind)} {w w' : Walk} {j : Nat}
    (htracks : Tracks fs roots i places w) (hij : i ≤ j) (hroots : w'.roots = roots.drop j)
    (hpending : w'.pending = w.pending) : Tracks fs roots j places w' where
  waiting := hroots
  pending := hpending.trans htracks.pending
  entered := fun place hplace => Nat.lt_of_lt_of_le (htracks.entered place hplace) hij
  reached := htracks.reached
  unbarred := htracks.unbarred
  ordered := htracks.ordered

/-- **A directory gives way to what is in it.** -/
theorem Tracks.open {places : List (Visit × Kind)} {w w' : Walk}
    (htracks : Tracks fs roots i places w) (hreached : Reached fs roots v l .directory)
    (hopen : Open fs roots v) {entries : List (Name × Kind)}
    (hlist : fs.list (v.path roots) = .ok entries) {j : Nat} (hj : v.root < j)
    (hij : i ≤ j) (hprecedes : ∀ place ∈ places, v.Precedes place.1)
    (hroots : w'.roots = roots.drop j)
    (hpending : w'.pending =
      (inside fs v l).map (fun place => .entry (place.1.path roots) place.2) ++ w.pending) :
    Tracks fs roots j (inside fs v l ++ places) w' where
  waiting := hroots
  pending := by rw [hpending, htracks.pending, List.map_append]
  entered := by
    refine List.forall_mem_append.mpr ⟨fun place hplace => ?_, fun place hplace => ?_⟩
    · obtain ⟨child, _, rfl⟩ := List.mem_map.mp hplace
      exact hj
    · exact Nat.lt_of_lt_of_le (htracks.entered place hplace) hij
  reached := by
    refine List.forall_mem_append.mpr ⟨fun place hplace => ?_, htracks.reached⟩
    obtain ⟨child, hchild, rfl⟩ := List.mem_map.mp hplace
    obtain ⟨entry, hfind, hkind⟩ := FileSystem.find?_of_mem_children hchild
    exact ⟨_, entry, .child hreached hfind, hkind⟩
  unbarred := by
    refine List.forall_mem_append.mpr ⟨fun place hplace => ?_, htracks.unbarred⟩
    obtain ⟨child, _, rfl⟩ := List.mem_map.mp hplace
    exact hopen.child hlist child.1
  ordered := by
    refine List.pairwise_append.mpr ⟨?_, htracks.ordered, ?_⟩
    · rw [inside, List.pairwise_map]
      exact (FileSystem.pairwise_children fs l).imp fun hbelow => precedes_child v hbelow
    · intro place hplace other hother
      obtain ⟨child, _, rfl⟩ := List.mem_map.mp hplace
      exact (hprecedes other hother).mono (within_child v child.1) (Within.refl _)

end

/-! ## Steps -/

/-- **All that a step of a walk can do.**  It ends the walk when nothing is left; it
puts what is in a directory in its place, or the failure to list it; it passes
over a file that is not eligible or has been seen; or it yields the file. -/
inductive Turn (fs : FileSystem) (roots : List Path) (criteria : Criteria) (pattern : Pattern)
    (i : Nat) (places : List (Visit × Kind)) (w : Walk) : Progress → Walk → Prop where
  | finished {w' : Walk} (hplaces : places = []) (hroots : roots.length ≤ i) :
      Turn fs roots criteria pattern i places w .finished w'
  | opened {j : Nat} {v : Visit} {l : Location} {rest : List (Visit × Kind)}
      {entries : List (Name × Kind)} {w' : Walk}
      (hahead : ∀ q, Ahead i places q ↔ Ahead j ((v, .directory) :: rest) q)
      (hreached : Reached fs roots v l .directory) (hlist : fs.list (v.path roots) = .ok entries)
      (hafter : Tracks fs roots j (inside fs v l ++ rest) w') (hseen : w'.seen = w.seen) :
      Turn fs roots criteria pattern i places w .moved w'
  | unlisted {j : Nat} {v : Visit} {l : Location} {rest : List (Visit × Kind)} {cause : Cause}
      {pending : List Pending} {w' : Walk}
      (hahead : ∀ q, Ahead i places q ↔ Ahead j ((v, .directory) :: rest) q)
      (hreached : Reached fs roots v l .directory) (hopen : Open fs roots v)
      (hlist : fs.list (v.path roots) = .error cause)
      (hpending : w'.pending = .unlisted (v.path roots) cause :: pending)
      (hafter : Tracks fs roots j rest { w' with pending := pending })
      (hseen : w'.seen = w.seen) :
      Turn fs roots criteria pattern i places w .moved w'
  | passed {v : Visit} {kind : Kind} {l : Location} {entry : Entry} {rest : List (Visit × Kind)}
      {w' : Walk} (hplaces : places = (v, kind) :: rest) (hreached : Reached fs roots v l entry)
      (hleaf : entry ≠ .directory)
      (hskip : Eligible fs roots criteria pattern v → key fs roots v ∈ w.seen)
      (hafter : Tracks fs roots i rest w') (hseen : w'.seen = w.seen) :
      Turn fs roots criteria pattern i places w .moved w'
  | yielded {v : Visit} {kind : Kind} {l : Location} {entry : Entry}
      {rest : List (Visit × Kind)} {w' : Walk} (hplaces : places = (v, kind) :: rest)
      (hreached : Reached fs roots v l entry) (hleaf : entry ≠ .directory)
      (heligible : Eligible fs roots criteria pattern v) (hnew : key fs roots v ∉ w.seen)
      (hafter : Tracks fs roots i rest w') (hseen : w'.seen = key fs roots v :: w.seen) :
      Turn fs roots criteria pattern i places w (.yielded (v.path roots)) w'

section

variable {i : Nat} {v : Visit} {kind : Kind} {rest : List (Visit × Kind)} {w : Walk}
  {l : Location} {entry : Entry}

/-- A file is offered. -/
theorem Tracks.offer (htracks : Tracks fs roots i ((v, kind) :: rest) w)
    (hreached : Reached fs roots v l entry) (hleaf : entry ≠ .directory)
    (hregular : (∃ content, entry = .file content) ∨
      (∃ target, entry = .link target) ∧ fs.leadsToFile (v.path roots) = true)
    (hfilters : filters = [.excluded (sortedNames criteria.excluded), .pattern pattern])
    {w' : Walk} (hroots : w'.roots = w.roots) (hpending : w'.pending = w.pending.tail)
    (hseen : w'.seen = w.seen) :
    Turn fs roots criteria pattern i ((v, kind) :: rest) w
      (offer filters fs w' (v.path roots)).1 (offer filters fs w' (v.path roots)).2.1 := by
  have hafter : ∀ seen, Tracks fs roots i rest { w' with seen := seen } :=
    fun seen => htracks.tail hroots hpending
  unfold Walk.offer
  split
  · next rejection hrejection =>
    refine .passed rfl hreached hleaf (fun heligible => ?_) (hafter w'.seen) hseen
    have haccepted := firstRejection?_eq_none_iff.mpr ⟨heligible.unexcluded, heligible.matching⟩
    rw [hfilters, haccepted] at hrejection
    cases hrejection
  · next haccepted =>
    rw [hfilters] at haccepted
    obtain ⟨hunexcluded, hmatching⟩ := firstRejection?_eq_none_iff.mp haccepted
    dsimp only
    split
    · next hold =>
      exact .passed rfl hreached hleaf (fun _ => hseen ▸ hold) (hafter w'.seen) hseen
    · next hnew =>
      exact .yielded rfl hreached hleaf ⟨⟨l, entry, hreached, hregular⟩, hunexcluded, hmatching⟩
        (hseen ▸ hnew) (hafter _) (congrArg _ hseen)

/-- A directory is entered, and listed if possible. -/
theorem Tracks.enter (hnamed : fs.WellNamed) {places : List (Visit × Kind)}
    (hrest : Tracks fs roots i rest w) (hreached : Reached fs roots v l .directory)
    (hopen : Open fs roots v) {j : Nat} (hj : v.root < j) (hij : i ≤ j)
    (hprecedes : ∀ place ∈ rest, v.Precedes place.1)
    {m : Nat} (hahead : ∀ q, Ahead m places q ↔ Ahead j ((v, .directory) :: rest) q)
    {before w' : Walk} (hroots : w'.roots = roots.drop j)
    (hpending : w'.pending = listing fs (v.path roots) ++ w.pending)
    (hseen : w'.seen = before.seen) :
    Turn fs roots criteria pattern m places before .moved w' := by
  rw [listing] at hpending
  cases hlist : fs.list (v.path roots) with
  | error cause =>
      rw [hlist] at hpending
      exact .unlisted hahead hreached hopen hlist hpending (hrest.skip hij hroots rfl) hseen
  | ok entries =>
      obtain ⟨k, hlookup, rfl⟩ := list_eq_ok hlist
      obtain rfl := hreached.locate hnamed hopen (fun _ => Entry.noConfusion)
        (FileSystem.lookup_eq_ok_iff.mp hlookup).1
      rw [hlist] at hpending
      refine .opened hahead hreached hlist
        (hrest.open hreached hopen hlist hj hij hprecedes hroots ?_) hseen
      rw [hpending, inside, List.map_map]
      exact congrArg (· ++ w.pending) (List.map_congr_left fun child _ => by simp)

end

/-- A root that leads to a directory can be looked up. -/
theorem lookup_of_leadsToDirectory {root : Path} (hroot : fs.leadsToDirectory root = true) :
    ∃ l, fs.lookup .target root = .ok (l, .directory) := by
  unfold FileSystem.leadsToDirectory at hroot
  split at hroot
  · next l hlookup => exact ⟨l, hlookup⟩
  · cases hroot

/-- A root that leads to a directory is listed, be it a link or not. -/
theorem enter_of_directory {root : Path} (hroot : fs.leadsToDirectory root = true) (w : Walk) :
    enter filters fs w root = (.moved, { w with pending := listing fs root }, []) := by
  obtain ⟨l, hlookup⟩ := lookup_of_leadsToDirectory hroot
  obtain ⟨k, entry, hentry, rfl | ⟨target, rfl⟩⟩ := FileSystem.lookup_entry_of_directory hlookup
  · simp only [Walk.enter, hentry]
  · simp only [Walk.enter, hentry, hlookup]

/-- **One step of a walk.** -/
theorem Tracks.turn (hnamed : fs.WellNamed)
    (hroots : ∀ root ∈ roots, fs.leadsToDirectory root = true)
    (hfilters : filters = [.excluded (sortedNames criteria.excluded), .pattern pattern])
    {i : Nat} {places : List (Visit × Kind)} {w w' : Walk} {progress : Progress}
    {events : List Event} (htracks : Tracks fs roots i places w)
    (hstep : step filters fs w = (progress, w', events)) :
    Turn fs roots criteria pattern i places w progress w' := by
  suffices hturn : Turn fs roots criteria pattern i places w (step filters fs w).1
      (step filters fs w).2.1 by rwa [hstep] at hturn
  have hwaiting := htracks.waiting
  have hpending := htracks.pending
  unfold Walk.step
  cases places with
  | nil =>
      rw [List.map_nil] at hpending
      simp only [hpending, hwaiting]
      cases hrest : roots.drop i with
      | nil => exact .finished rfl (List.drop_eq_nil_iff.mp hrest)
      | cons root others =>
          have hget : roots[i]? = some root := by rw [← List.head?_drop, hrest, List.head?_cons]
          have hdirectory := hroots root (List.mem_of_getElem? hget)
          obtain ⟨l, hlookup⟩ := lookup_of_leadsToDirectory hdirectory
          have hreached : Reached fs roots ⟨i, []⟩ l .directory := .root hget hlookup
          have hpath : path roots ⟨i, []⟩ = root := path_root hget
          have hothers : others = roots.drop (i + 1) := by
            rw [← List.tail_drop, hrest, List.tail_cons]
          dsimp only
          rw [enter_of_directory hdirectory]
          exact htracks.enter hnamed hreached (open_root fs roots i) (Nat.lt_succ_self i)
            (Nat.le_succ i) (fun _ hplace => by cases hplace) (fun q => ahead_root_iff) hothers
            (by rw [hpath, hpending, List.append_nil]) rfl
  | cons place rest =>
      obtain ⟨v, kind⟩ := place
      obtain ⟨l, entry, hreached, rfl⟩ := htracks.reached (v, kind) List.mem_cons_self
      rw [List.map_cons] at hpending
      simp only [hpending]
      cases entry with
      | directory =>
          have hrest : Tracks fs roots i rest { w with pending := w.pending.tail } :=
            htracks.tail rfl rfl
          exact hrest.enter hnamed hreached (htracks.unbarred (v, .directory) List.mem_cons_self)
            (htracks.entered (v, .directory) List.mem_cons_self) (Nat.le_refl i)
            (List.pairwise_cons.mp htracks.ordered).1 (fun q => Iff.rfl) hwaiting
            (by rw [hpending]; rfl) rfl
      | file content =>
          exact htracks.offer hreached Entry.noConfusion (.inl ⟨content, rfl⟩) hfilters rfl
            (by rw [hpending]; rfl) rfl
      | link target =>
          dsimp only [Entry.kind]
          split
          · next hfile =>
            exact htracks.offer hreached Entry.noConfusion (.inr ⟨⟨target, rfl⟩, hfile⟩) hfilters
              rfl (by rw [hpending]; rfl) rfl
          · next hnofile =>
            refine .passed rfl hreached Entry.noConfusion (fun heligible => ?_)
              (htracks.tail rfl (by rw [hpending]; rfl)) rfl
            obtain ⟨k, other, hreached', hregular⟩ := heligible.regular
            obtain rfl := hreached'.entry_unique hreached
            rcases hregular with ⟨_, hfile⟩ | ⟨_, hfile⟩
            · cases hfile
            · exact absurd hfile hnofile

/-! ## Walks -/

/-- A directory that cannot be listed is a failure. -/
theorem Meets.mem_of_unlisted {w : Walk} {items : List (Except Failure Path)} {path : Path}
    {cause : Cause} {rest : List Pending} (hmeets : Meets filters fs w items)
    (hpending : w.pending = .unlisted path cause :: rest) :
    .error (.traversal path cause) ∈ items := by
  have hfailed : step filters fs w =
      (.failed (.traversal path cause), { w with pending := rest }, []) := by
    simp only [Walk.step, hpending]
  cases hmeets with
  | failed hstep _ =>
      cases hfailed.symm.trans hstep
      exact List.mem_cons_self
  | finished hstep | moved hstep _ | yielded hstep _ => cases hfailed.symm.trans hstep

section

variable (hnamed : fs.WellNamed) (hroots : ∀ root ∈ roots, fs.leadsToDirectory root = true)
  (hfilters : filters = [.excluded (sortedNames criteria.excluded), .pattern pattern])
  {i : Nat} {places : List (Visit × Kind)} {w : Walk} {items : List (Except Failure Path)}

include hnamed hroots hfilters

/-- **A walk yields the first file of each identity** among all that are eligible
and ahead. -/
theorem Tracks.chosen (htracks : Tracks fs roots i places w) (hmeets : Meets filters fs w items)
    (hquiet : ∀ failure, .error failure ∉ items) :
    ∃ visits : List Visit, items = visits.map (fun v => .ok (v.path roots)) ∧
      Chosen (key fs roots) (fun q => Eligible fs roots criteria pattern q ∧ Ahead i places q)
        w.seen visits := by
  induction hmeets generalizing i places with
  | finished hstep =>
      cases htracks.turn hnamed hroots hfilters hstep with
      | finished hplaces hlength =>
          subst hplaces
          refine ⟨[], rfl, Chosen.nil fun q ⟨hq, hahead⟩ => ?_⟩
          obtain ⟨k, other, hreached, _⟩ := hq.leaf
          exact not_ahead hlength hreached hahead
  | moved hstep hrest ih =>
      cases htracks.turn hnamed hroots hfilters hstep with
      | opened hahead hreached _ hafter hseen =>
          obtain ⟨visits, hitems, hchosen⟩ := ih hafter hquiet
          refine ⟨visits, hitems, (hseen ▸ hchosen).skip (fun q ⟨hq, hlater⟩ => ⟨hq, ?_⟩)
            (fun q ⟨hq, hlater⟩ => .inl ⟨hq, ?_⟩)⟩
          · obtain ⟨k, other, hreached', _⟩ := hq.leaf
            exact (hahead q).mpr ((ahead_directory_iff hreached hreached').mpr (.inr hlater))
          · obtain ⟨k, other, hreached', hleaf⟩ := hq.leaf
            have hstill := (ahead_directory_iff hreached hreached').mp ((hahead q).mp hlater)
            refine hstill.resolve_left ?_
            -- A directory is not eligible itself.
            rintro rfl
            exact hleaf (hreached'.entry_unique hreached)
      | unlisted _ _ _ _ hpending _ _ =>
          exact absurd (hrest.mem_of_unlisted hpending) (hquiet _)
      | passed hplaces hreached hleaf hskip hafter hseen =>
          subst hplaces
          obtain ⟨visits, hitems, hchosen⟩ := ih hafter hquiet
          refine ⟨visits, hitems, (hseen ▸ hchosen).skip (fun q ⟨hq, hlater⟩ => ⟨hq, ?_⟩)
            (fun q ⟨hq, hlater⟩ => ?_)⟩
          · obtain ⟨k, other, hreached', _⟩ := hq.leaf
            exact (ahead_leaf_iff hreached hleaf hreached').mpr (.inr hlater)
          · obtain ⟨k, other, hreached', _⟩ := hq.leaf
            rcases (ahead_leaf_iff hreached hleaf hreached').mp hlater with rfl | hrest
            · exact .inr (hskip hq)
            · exact .inl ⟨hq, hrest⟩
  | failed hstep _ _ => cases htracks.turn hnamed hroots hfilters hstep
  | yielded hstep hrest ih =>
      cases htracks.turn hnamed hroots hfilters hstep with
      | @yielded v _ _ _ _ _ hplaces hreached hleaf heligible hnew hafter hseen =>
          subst hplaces
          obtain ⟨visits, rfl, hchosen⟩ := ih hafter fun failure hmem =>
            hquiet failure (List.mem_cons_of_mem _ hmem)
          refine ⟨v :: visits, rfl, (hseen ▸ hchosen).cons
            ⟨heligible, (ahead_leaf_iff hreached hleaf hreached).mpr (.inl rfl)⟩ hnew
            (fun q ⟨hq, hlater⟩ => ?_) (fun q ⟨hq, hlater⟩ => ?_)⟩
          · obtain ⟨k, other, hreached', _⟩ := hq.leaf
            exact ⟨⟨hq, (ahead_leaf_iff hreached hleaf hreached').mpr (.inr hlater)⟩,
              htracks.before_of_ahead hlater⟩
          · obtain ⟨k, other, hreached', _⟩ := hq.leaf
            rcases (ahead_leaf_iff hreached hleaf hreached').mp hlater with rfl | hrest
            · exact .inr rfl
            · exact .inl ⟨hq, hrest⟩

/-- The directories that a walk meets on its way can be listed. -/
theorem Tracks.listed (htracks : Tracks fs roots i places w) (hmeets : Meets filters fs w items)
    (hquiet : ∀ failure, .error failure ∉ items) {q : Visit} {k : Location}
    (hq : Reached fs roots q k .directory) (hahead : Ahead i places q) :
    ∃ entries, fs.list (q.path roots) = .ok entries := by
  induction hmeets generalizing i places with
  | finished hstep =>
      cases htracks.turn hnamed hroots hfilters hstep with
      | finished hplaces hlength => exact absurd (hplaces ▸ hahead) (not_ahead hlength hq)
  | moved hstep hrest ih =>
      cases htracks.turn hnamed hroots hfilters hstep with
      | opened hplaces hreached hlist hafter _ =>
          rcases (ahead_directory_iff hreached hq).mp ((hplaces q).mp hahead) with rfl | hlater
          · exact ⟨_, hlist⟩
          · exact ih hafter hquiet hlater
      | unlisted _ _ _ _ hpending _ _ =>
          exact absurd (hrest.mem_of_unlisted hpending) (hquiet _)
      | passed hplaces hreached hleaf _ hafter _ =>
          subst hplaces
          rcases (ahead_leaf_iff hreached hleaf hq).mp hahead with rfl | hlater
          · exact absurd (hreached.entry_unique hq) hleaf
          · exact ih hafter hquiet hlater
  | failed hstep _ _ => cases htracks.turn hnamed hroots hfilters hstep
  | yielded hstep hrest ih =>
      cases htracks.turn hnamed hroots hfilters hstep with
      | yielded hplaces hreached hleaf _ _ hafter _ =>
          subst hplaces
          rcases (ahead_leaf_iff hreached hleaf hq).mp hahead with rfl | hlater
          · exact absurd (hreached.entry_unique hq) hleaf
          · exact ih hafter
              (fun failure hmem => hquiet failure (List.mem_cons_of_mem _ hmem)) hlater

/-- A walk meets no failure when all directories can be listed. -/
theorem Tracks.quiet (htracks : Tracks fs roots i places w) (hmeets : Meets filters fs w items)
    (hlistable : Listable fs roots) (failure : Failure) : .error failure ∉ items := by
  induction hmeets generalizing i places with
  | finished _ => exact List.not_mem_nil
  | moved hstep _ ih =>
      cases htracks.turn hnamed hroots hfilters hstep with
      | opened _ _ _ hafter _ => exact ih hafter
      | passed _ _ _ _ hafter _ => exact ih hafter
      | unlisted _ hreached _ hlist _ _ _ =>
          obtain ⟨entries, hlisted⟩ := hlistable _ _ hreached
          cases hlist.symm.trans hlisted
  | failed hstep _ _ => cases htracks.turn hnamed hroots hfilters hstep
  | yielded hstep _ ih =>
      cases htracks.turn hnamed hroots hfilters hstep with
      | yielded _ _ _ _ _ hafter _ =>
          exact List.not_mem_cons_of_ne_of_not_mem nofun (ih hafter)

end

/-- At the start of a walk everything is ahead. -/
theorem tracks_start (fs : FileSystem) (roots : List Path) :
    Tracks fs roots 0 [] ⟨roots, [], []⟩ where
  waiting := rfl
  pending := rfl
  entered := fun _ hplace => by cases hplace
  reached := fun _ hplace => by cases hplace
  unbarred := fun _ hplace => by cases hplace
  ordered := List.Pairwise.nil

end Walk

open Visit in
/-- **Selection is sound, complete and free of duplicates.**  Let the criteria have
a pattern that can be read, and let the roots lead to directories.  Collecting
succeeds exactly if all directories that are reached can be listed.  Then the
files are places that are eligible, in the order of visiting, no two of them of
the same identity; and for each place that is eligible there is one of its
identity, which comes first among all of that identity.  Places that can be
resolved have the same identity exactly if they are at the same location. -/
theorem collect_selects {fs : FileSystem} {criteria : Criteria} {pattern : Pattern}
    {roots : List Path} (hnamed : fs.WellNamed)
    (hpattern : Pattern.read criteria.pattern = .ok pattern)
    (hroots : ∀ root ∈ roots, fs.leadsToDirectory root = true) :
    ∃ filters, criteria.filters = .ok filters ∧
      ((∃ paths, collect filters fs roots = .ok paths) ↔ Listable fs roots) ∧
      ∀ paths, collect filters fs roots = .ok paths →
        ∃ visits : List Visit, paths = visits.map (Visit.path roots) ∧
          visits.Pairwise Before ∧ (visits.map (key fs roots)).Nodup ∧
          (∀ v ∈ visits, Eligible fs roots criteria pattern v) ∧
          (∀ q, Eligible fs roots criteria pattern q → ∃ v ∈ visits,
            key fs roots v = key fs roots q ∧
              ∀ u, Eligible fs roots criteria pattern u → key fs roots u = key fs roots q →
                u = v ∨ v.Before u) ∧
          ∀ v u l k, fs.canonical? (v.path roots) = some l → fs.canonical? (u.path roots) = some k →
            (key fs roots v = key fs roots u ↔ l = k) := by
  have hfilters := Walk.filters_of_pattern hpattern
  generalize hlist : [NameFilter.excluded _, NameFilter.pattern pattern] = filters at hfilters
  have hstart : Walk.start fs roots = .ok ⟨roots, [], []⟩ := Walk.start_of_directories hroots
  obtain ⟨items, hmeets⟩ := Walk.exists_meets filters hnamed ⟨roots, [], []⟩
  have htracks := Walk.tracks_start fs roots
  have hcollect : ∀ {paths}, collect filters fs roots = .ok paths → items = paths.map .ok := by
    intro paths hpaths
    obtain ⟨walk, hwalk, hpaths⟩ := (collect_eq_ok_iff hnamed).mp hpaths
    obtain rfl := Except.ok.inj (hstart.symm.trans hwalk)
    exact hmeets.unique hpaths
  have hquiet : ∀ {paths}, collect filters fs roots = .ok paths →
      ∀ failure, .error failure ∉ items := by
    intro paths hpaths failure hmem
    rw [hcollect hpaths] at hmem
    obtain ⟨_, _, hok⟩ := List.mem_map.mp hmem
    cases hok
  refine ⟨filters, hfilters, ⟨?_, fun hlistable => ?_⟩, fun paths hpaths => ?_⟩
  · rintro ⟨paths, hpaths⟩ v l hreached
    exact htracks.listed hnamed hroots hlist.symm hmeets (hquiet hpaths) hreached
      (.inl (Nat.zero_le _))
  · obtain ⟨visits, hitems, _⟩ := htracks.chosen hnamed hroots hlist.symm hmeets
      (htracks.quiet hnamed hroots hlist.symm hmeets hlistable)
    refine ⟨visits.map (Visit.path roots), (collect_eq_ok_iff hnamed).mpr ⟨_, hstart, ?_⟩⟩
    rw [hitems] at hmeets
    rwa [List.map_map]
  · obtain ⟨visits, hitems, hchosen⟩ := htracks.chosen hnamed hroots hlist.symm hmeets
      (hquiet hpaths)
    have heligible : ∀ q, Eligible fs roots criteria pattern q →
        Eligible fs roots criteria pattern q ∧ Walk.Ahead 0 [] q :=
      fun q hq => ⟨hq, .inl (Nat.zero_le _)⟩
    refine ⟨visits, ?_, hchosen.ordered, hchosen.distinct, fun v hv => (hchosen.among v hv).1,
      fun q hq => ?_, fun v u l k hl hk => ?_⟩
    · have hmap : paths.map Except.ok = (visits.map (Visit.path roots)).map Except.ok :=
        (hcollect hpaths).symm.trans (hitems.trans List.map_map.symm)
      exact List.map_injective_iff.mpr (fun _ _ => Except.ok.inj) hmap
    · obtain ⟨v, hv, hsame, _, hfirst⟩ := hchosen.first (heligible q hq)
      exact ⟨v, hv, hsame, fun u hu => hfirst u (heligible u hu)⟩
    · rw [key, key, Walk.identity_of_canonical? hl, Walk.identity_of_canonical? hk,
        List.cons.injEq, List.map_inj_right fun _ _ => Path.Component.name.inj]
      exact and_iff_right rfl

/-- The one text of the small directory is selected once, by the first of its four
paths. -/
theorem collect_selects_sample :
    Sample.tree.WellNamed ∧ Pattern.read Sample.plan.criteria.pattern = .ok ⟨['*'], [.anyText]⟩ ∧
      (∀ root ∈ Sample.roots, Sample.tree.leadsToDirectory root = true) ∧
      Visit.Listable Sample.tree Sample.roots ∧
      ∃ v : Visit, v.path Sample.roots = ⟨['w', '/', 'a']⟩ ∧
        Visit.Eligible Sample.tree Sample.roots Sample.plan.criteria ⟨['*'], [.anyText]⟩ v ∧
        ∀ u, Visit.Eligible Sample.tree Sample.roots Sample.plan.criteria ⟨['*'], [.anyText]⟩ u →
          u = v ∨ v.Before u := by
  have hnamed : Sample.tree.WellNamed := by decide
  have hpattern : Pattern.read Sample.plan.criteria.pattern = .ok ⟨['*'], [.anyText]⟩ := by cbv
  have hroots : ∀ root ∈ Sample.roots, Sample.tree.leadsToDirectory root = true := by decide
  obtain ⟨filters, hfilters, hlistable, hselects⟩ := collect_selects hnamed hpattern hroots
  obtain rfl := Except.ok.inj ((Walk.filters_of_pattern hpattern).symm.trans hfilters)
  have hcollect : collect [.excluded (sortedNames Sample.plan.criteria.excluded),
      .pattern ⟨['*'], [.anyText]⟩] Sample.tree Sample.roots = .ok [⟨['w', '/', 'a']⟩] := by cbv
  obtain ⟨visits, hpaths, _, _, hsound, hfirst, _⟩ := hselects _ hcollect
  obtain ⟨v, rfl, hpath⟩ := List.map_eq_singleton_iff.mp hpaths.symm
  refine ⟨hnamed, hpattern, hroots, hlistable.mp ⟨_, hcollect⟩, v, hpath,
    hsound v (List.mem_singleton.mpr rfl), fun u hu => ?_⟩
  obtain ⟨w, hw, _, hleast⟩ := hfirst u hu
  obtain rfl := List.mem_singleton.mp hw
  exact hleast u hu rfl

end LicenseHeaders

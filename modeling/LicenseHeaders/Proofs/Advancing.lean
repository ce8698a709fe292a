import LicenseHeaders.Proofs.Visiting

/-!
# Steps in any tree

Between two answers of a walk other programs can do what they like to the tree, also
to the directories that the walk is in.  What the walk has listed then need not be
there any more, and behind a name that was listed as a directory there can be a link
or something else.  So nothing is said here about what is found at a place.

What is left is the order.  The places that are pending lie below the root that was
entered last, one after the other, and all that can still come up below one of them
comes before all that can come up below a later one (`Awaits`).  A step looks at the
first place (`Faces`) and puts what it lists there in its stead, which lies below it.

* `step_advances` — all that a step can do, in any tree;
* `Awaits.next` — from one answer to the next nothing comes up that was not due before,
  and what is yielded comes before all that is still due.
-/

namespace LicenseHeaders

/-- The path of what is pending. -/
def Pending.path : Pending → Path
  | .entry path _ => path
  | .unlisted path _ => path

namespace Visit

/-- A place that is called by proper names below its root. -/
def Named (v : Visit) : Prop := ∀ n ∈ v.names, ProperName n

/-- A child with a proper name is named. -/
theorem Named.child {v : Visit} (hnamed : v.Named) {n : Name} (hn : ProperName n) :
    (v.child n).Named :=
  List.forall_mem_append.mpr ⟨hnamed, List.forall_mem_singleton.mpr hn⟩

end Visit

namespace Walk

open Visit

variable {filters : List NameFilter} {fs : FileSystem} {roots : List Path}
  {i j k : Nat} {places rest places' : List Visit} {v q : Visit} {w w' : Walk}

/-! ## What is due -/

/-- A place can still come up when its root has not been entered, or when it is at or
below one that is pending. -/
def Due (i : Nat) (places : List Visit) (q : Visit) : Prop :=
  i ≤ q.root ∨ ∃ v ∈ places, q.Within v

/-- A walk that goes on: roots are entered one after the other, and nothing comes up
that was not due. -/
structure Onward (i : Nat) (places : List Visit) (j : Nat) (places' : List Visit) : Prop where
  le : i ≤ j
  due : ∀ q, Due j places' q → Due i places q

theorem Onward.refl (i : Nat) (places : List Visit) : Onward i places i places :=
  ⟨Nat.le_refl i, fun _ hdue => hdue⟩

theorem Onward.trans {places'' : List Visit} (hfirst : Onward i places j places')
    (hthen : Onward j places' k places'') : Onward i places k places'' :=
  ⟨Nat.le_trans hfirst.le hthen.le, fun q hdue => hfirst.due q (hthen.due q hdue)⟩

/-- **The state of a walk in any tree.**  It has entered the roots before `i`, and the
places that are pending are below the last of these, called by proper names and in
order. -/
structure Awaits (roots : List Path) (i : Nat) (places : List Visit) (w : Walk) : Prop where
  waiting : w.roots = roots.drop i
  entered : i ≤ roots.length
  pending : w.pending.map Pending.path = places.map (Visit.path roots)
  current : ∀ v ∈ places, v.root + 1 = i
  named : ∀ v ∈ places, v.Named
  ordered : places.Pairwise Precedes

/-- At the start of a walk everything is due. -/
theorem awaits_start (roots : List Path) : Awaits roots 0 [] ⟨roots, [], []⟩ where
  waiting := rfl
  entered := Nat.zero_le _
  pending := rfl
  current := fun _ hv => by cases hv
  named := fun _ hv => by cases hv
  ordered := List.Pairwise.nil

/-- It does not matter what has been seen. -/
theorem Awaits.congr (hawaits : Awaits roots i places w) (hroots : w'.roots = w.roots)
    (hpending : w'.pending = w.pending) : Awaits roots i places w' where
  waiting := hroots.trans hawaits.waiting
  entered := hawaits.entered
  pending := by rw [hpending, hawaits.pending]
  current := hawaits.current
  named := hawaits.named
  ordered := hawaits.ordered

/-- The places of a listing come before those that are pending. -/
theorem Awaits.push {inner : List Visit} (hawaits : Awaits roots j rest w)
    (hroots : w'.roots = w.roots)
    (hpending : w'.pending.map Pending.path =
      inner.map (Visit.path roots) ++ w.pending.map Pending.path)
    (hcurrent : ∀ v ∈ inner, v.root + 1 = j) (hnamed : ∀ v ∈ inner, v.Named)
    (hordered : inner.Pairwise Precedes) (hprecedes : ∀ v ∈ inner, ∀ u ∈ rest, v.Precedes u) :
    Awaits roots j (inner ++ rest) w' where
  waiting := hroots.trans hawaits.waiting
  entered := hawaits.entered
  pending := by rw [hpending, hawaits.pending, List.map_append]
  current := List.forall_mem_append.mpr ⟨hcurrent, hawaits.current⟩
  named := List.forall_mem_append.mpr ⟨hnamed, hawaits.named⟩
  ordered := List.pairwise_append.mpr ⟨hordered, hawaits.ordered, hprecedes⟩

/-! ## The place that is looked at -/

/-- **The place that a walk looks at next**: the first one that is pending, or else the
next root.  Behind it are the places that are pending then. -/
inductive Faces (roots : List Path) (i : Nat) (places : List Visit) :
    Nat → Visit → List Visit → Prop where
  | pending {v : Visit} {rest : List Visit} (hplaces : places = v :: rest) :
      Faces roots i places i v rest
  | root (hplaces : places = []) (hroot : i < roots.length) :
      Faces roots i places (i + 1) ⟨i, []⟩ []

/-- The first place that is pending is looked at, and the walk goes on behind it. -/
theorem Awaits.facesPending {first : Pending} {others : List Pending}
    (hawaits : Awaits roots i places w) (hpending : w.pending = first :: others) :
    ∃ v rest, v.path roots = first.path ∧ Faces roots i places i v rest ∧
      Awaits roots i rest { w with pending := others } := by
  have hpaths := hawaits.pending
  rw [hpending, List.map_cons] at hpaths
  obtain ⟨v, rest, rfl, hv, hrest⟩ := List.map_eq_cons_iff.mp hpaths.symm
  refine ⟨v, rest, hv, .pending rfl, ?_⟩
  exact ⟨hawaits.waiting, hawaits.entered, hrest.symm, (List.forall_mem_cons.mp hawaits.current).2,
    (List.forall_mem_cons.mp hawaits.named).2, (List.pairwise_cons.mp hawaits.ordered).2⟩

/-- When no place is pending the next root is entered. -/
theorem Awaits.facesRoot {root : Path} {others : List Path} (hawaits : Awaits roots i places w)
    (hpending : w.pending = []) (hroots : w.roots = root :: others) :
    ∃ v, v.path roots = root ∧ Faces roots i places (i + 1) v [] ∧
      Awaits roots (i + 1) [] { w with roots := others } := by
  have hpaths := hawaits.pending
  rw [hpending] at hpaths
  have hplaces : places = [] := List.map_eq_nil_iff.mp hpaths.symm
  have hdrop : roots.drop i = root :: others := hawaits.waiting.symm.trans hroots
  have hget : roots[i]? = some root := by rw [← List.head?_drop, hdrop, List.head?_cons]
  have hlength : i < roots.length := (List.getElem?_eq_some_iff.mp hget).1
  have hothers : others = roots.drop (i + 1) := by rw [← List.tail_drop, hdrop, List.tail_cons]
  refine ⟨⟨i, []⟩, path_root hget, .root hplaces hlength, ?_⟩
  exact ⟨hothers, hlength, congrArg (List.map Pending.path) hpending, List.forall_mem_nil _,
    List.forall_mem_nil _, List.Pairwise.nil⟩

section

variable (hawaits : Awaits roots i places w) (hfaces : Faces roots i places j v rest)

include hawaits hfaces

theorem Faces.current : v.root + 1 = j := by
  cases hfaces with
  | pending hplaces => exact hawaits.current v (by simp [hplaces])
  | root => rfl

theorem Faces.named : v.Named := by
  cases hfaces with
  | pending hplaces => exact hawaits.named v (by simp [hplaces])
  | root => exact List.forall_mem_nil _

/-- All that is pending below comes later. -/
theorem Faces.precedes : ∀ u ∈ rest, v.Precedes u := by
  cases hfaces with
  | pending hplaces =>
      have hordered := hawaits.ordered
      rw [hplaces] at hordered
      exact (List.pairwise_cons.mp hordered).1
  | root => exact List.forall_mem_nil _

omit hawaits in
/-- What is at or below the place is due, and so is all that is due behind it. -/
theorem Faces.due (hq : q.Within v ∨ Due j rest q) : Due i places q := by
  cases hfaces with
  | pending hplaces =>
      subst hplaces
      rcases hq with hwithin | hroot | ⟨u, hu, hwithin⟩
      · exact .inr ⟨v, List.mem_cons_self, hwithin⟩
      · exact .inl hroot
      · exact .inr ⟨u, List.mem_cons_of_mem _ hu, hwithin⟩
  | root =>
      rcases hq with ⟨hroot, _⟩ | hroot | ⟨u, hu, _⟩
      · exact .inl (Nat.le_of_eq hroot.symm)
      · exact .inl (Nat.le_of_succ_le hroot)
      · cases hu

omit hawaits in
/-- A walk that has looked at the place goes on with what is behind it. -/
theorem Faces.onward {inner : List Visit} (hinner : ∀ u ∈ inner, u.Within v) :
    Onward i places j (inner ++ rest) where
  le := by
    cases hfaces with
    | pending => exact Nat.le_refl i
    | root => exact Nat.le_succ i
  due := by
    intro q hdue
    apply hfaces.due
    rcases hdue with hroot | ⟨u, hu, hwithin⟩
    · exact .inr (.inl hroot)
    · rcases List.mem_append.mp hu with hu | hu
      · exact .inl (hwithin.trans (hinner u hu))
      · exact .inr (.inr ⟨u, hu, hwithin⟩)

omit hawaits in
/-- A walk that has only looked at the place goes on behind it. -/
theorem Faces.onward_rest : Onward i places j rest := by
  have hnone : ∀ u ∈ ([] : List Visit), u.Within v := List.forall_mem_nil _
  exact hfaces.onward hnone

/-- The place comes before all that is due behind it. -/
theorem Faces.before (hdue : Due j rest q) : v.Before q := by
  rcases hdue with hroot | ⟨u, hu, hwithin⟩
  · left
    have hcurrent := hfaces.current hawaits
    omega
  · exact hfaces.precedes hawaits u hu v q (Within.refl v) hwithin

end

/-! ## Steps -/

/-- **All that a step can do**, whatever is on the disk.  It ends the walk when nothing
is left.  Otherwise it looks at a place and moves on to places below it, fails there
or yields its path, unless a filter speaks against it. -/
inductive Advances (filters : List NameFilter) (roots : List Path) (i : Nat)
    (places : List Visit) : Progress → Walk → Prop where
  | finished {w' : Walk} (hafter : Awaits roots i places w') :
      Advances filters roots i places .finished w'
  | moved {j : Nat} {v : Visit} {rest inner : List Visit} {w' : Walk}
      (hfaces : Faces roots i places j v rest) (hinner : ∀ u ∈ inner, u.Within v)
      (hafter : Awaits roots j (inner ++ rest) w') : Advances filters roots i places .moved w'
  | failed {j : Nat} {v : Visit} {rest : List Visit} {failure : Failure} {w' : Walk}
      (hfaces : Faces roots i places j v rest) (hafter : Awaits roots j rest w') :
      Advances filters roots i places (.failed failure) w'
  | yielded {j : Nat} {v : Visit} {rest : List Visit} {w' : Walk}
      (hfaces : Faces roots i places j v rest) (hafter : Awaits roots j rest w')
      (haccepted : firstRejection? filters (v.path roots) = none) :
      Advances filters roots i places (.yielded (v.path roots)) w'

/-- A place is passed over. -/
theorem Faces.pass (hfaces : Faces roots i places j v rest) (hafter : Awaits roots j rest w) :
    Advances filters roots i places .moved w := by
  have hnone : ∀ u ∈ ([] : List Visit), u.Within v := List.forall_mem_nil _
  exact .moved hfaces hnone hafter

variable (filters) (fs) in
/-- A place is offered. -/
theorem Faces.offer (hfaces : Faces roots i places j v rest) (hafter : Awaits roots j rest w) :
    Advances filters roots i places (Walk.offer filters fs w (v.path roots)).1
      (Walk.offer filters fs w (v.path roots)).2.1 := by
  unfold Walk.offer
  split
  · exact hfaces.pass hafter
  · next haccepted =>
    dsimp only
    split
    · exact hfaces.pass hafter
    · exact .yielded hfaces (hafter.congr rfl rfl) haccepted

/-- A place is listed, if it can be. -/
theorem Faces.list (hwell : fs.WellNamed) (hawaits : Awaits roots i places w)
    (hfaces : Faces roots i places j v rest) {opened : Walk} (hafter : Awaits roots j rest opened)
    (hroots : w'.roots = opened.roots)
    (hpending : w'.pending = listing fs (v.path roots) ++ opened.pending) :
    Advances filters roots i places .moved w' := by
  have hcurrent := hfaces.current hawaits
  have hnamed := hfaces.named hawaits
  have hprecedes := hfaces.precedes hawaits
  rw [listing] at hpending
  cases hlist : fs.list (v.path roots) with
  | error cause =>
      -- The place stays pending, as one that could not be listed.
      rw [hlist] at hpending
      have hinner : ∀ u ∈ [v], u.Within v := List.forall_mem_singleton.mpr (Within.refl v)
      refine .moved hfaces hinner (hafter.push hroots ?_ ?_ ?_ ?_ ?_)
      · rw [hpending]
        rfl
      · exact List.forall_mem_singleton.mpr hcurrent
      · exact List.forall_mem_singleton.mpr hnamed
      · exact List.pairwise_singleton _ _
      · exact List.forall_mem_singleton.mpr hprecedes
  | ok entries =>
      rw [hlist] at hpending
      obtain ⟨l, _, rfl⟩ := list_eq_ok hlist
      have hchild : ∀ u ∈ (fs.children l).map fun child => v.child child.1,
          ∃ n, ProperName n ∧ u = v.child n := by
        intro u hu
        obtain ⟨child, hmem, rfl⟩ := List.mem_map.mp hu
        exact ⟨child.1, hwell.properName hmem, rfl⟩
      have hinner : ∀ u ∈ (fs.children l).map fun child => v.child child.1, u.Within v := by
        intro u hu
        obtain ⟨n, _, rfl⟩ := hchild u hu
        exact within_child v n
      refine .moved hfaces hinner (hafter.push hroots ?_ ?_ ?_ ?_ ?_)
      · rw [hpending, List.map_append, List.map_map, List.map_map]
        refine congrArg (· ++ _) (List.map_congr_left fun child _ => ?_)
        exact (path_child roots v child.1).symm
      · intro u hu
        obtain ⟨n, _, rfl⟩ := hchild u hu
        exact hcurrent
      · intro u hu
        obtain ⟨n, hn, rfl⟩ := hchild u hu
        exact hnamed.child hn
      · rw [List.pairwise_map]
        exact (FileSystem.pairwise_children fs l).imp fun hbelow => precedes_child v hbelow
      · intro u hu other hother
        exact (hprecedes other hother).mono (hinner u hu) (Within.refl other)

variable (filters) in
/-- A place is entered as a root. -/
theorem Faces.enter (hwell : fs.WellNamed) (hawaits : Awaits roots i places w)
    (hfaces : Faces roots i places j v rest) {opened : Walk} (hafter : Awaits roots j rest opened)
    (hpending : opened.pending = []) :
    Advances filters roots i places (Walk.enter filters fs opened (v.path roots)).1
      (Walk.enter filters fs opened (v.path roots)).2.1 := by
  have hlisted : Advances filters roots i places .moved
      { opened with pending := listing fs (v.path roots) } := by
    refine hfaces.list hwell hawaits hafter rfl ?_
    rw [hpending, List.append_nil]
  have hoffered := hfaces.offer filters fs hafter
  unfold Walk.enter
  split
  · exact .failed hfaces hafter
  · exact hlisted
  · exact hoffered
  · split
    · exact .failed hfaces hafter
    · exact hlisted
    · exact hoffered

variable (filters) in
/-- **One step of a walk** in any tree. -/
theorem step_advances (hwell : fs.WellNamed) (hawaits : Awaits roots i places w) :
    Advances filters roots i places (step filters fs w).1 (step filters fs w).2.1 := by
  unfold step
  split
  · next hpending =>
    obtain ⟨v, rest, _, hfaces, hafter⟩ := hawaits.facesPending hpending
    exact .failed hfaces hafter
  · next path others hpending =>
    obtain ⟨v, rest, hpath, hfaces, hafter⟩ := hawaits.facesPending hpending
    obtain rfl : v.path roots = path := hpath
    exact hfaces.list hwell hawaits hafter rfl rfl
  · next path others hpending =>
    obtain ⟨v, rest, hpath, hfaces, hafter⟩ := hawaits.facesPending hpending
    obtain rfl : v.path roots = path := hpath
    exact hfaces.offer filters fs hafter
  · next path others hpending =>
    obtain ⟨v, rest, hpath, hfaces, hafter⟩ := hawaits.facesPending hpending
    obtain rfl : v.path roots = path := hpath
    split
    · exact hfaces.offer filters fs hafter
    · exact hfaces.pass hafter
  · next hpending =>
    split
    · exact .finished hawaits
    · next root others hroots =>
      obtain ⟨v, rfl, hfaces, hafter⟩ := hawaits.facesRoot hpending hroots
      exact hfaces.enter filters hwell hawaits hafter hpending

/-- A walk that moves on keeps to what is due. -/
theorem Moves.awaits (hwell : fs.WellNamed) (hmoves : Moves filters fs w w')
    (hawaits : Awaits roots i places w) :
    ∃ j places', Awaits roots j places' w' ∧ Onward i places j places' := by
  induction hmoves generalizing i places with
  | refl => exact ⟨i, places, hawaits, Onward.refl i places⟩
  | step hstep _ ih =>
      have hadvances := step_advances filters hwell hawaits
      rw [hstep] at hadvances
      cases hadvances with
      | moved hfaces hinner hafter =>
          obtain ⟨k, last, hlast, honward⟩ := ih hafter
          exact ⟨k, last, hlast, (hfaces.onward hinner).trans honward⟩

/-! ## Answers -/

variable (filters) in
/-- **What an answer does to a walk.**  Nothing comes up later that was not due before.
A path that is yielded was due, and comes before all that is still due. -/
theorem Awaits.next (hwell : fs.WellNamed) (hawaits : Awaits roots i places w) :
    ∃ j places', Awaits roots j places' (next filters fs w).2.1 ∧ Onward i places j places' ∧
      ∀ path, (next filters fs w).1 = .file path → firstRejection? filters path = none ∧
        ∃ v : Visit, path = v.path roots ∧ v.root + 1 = j ∧ v.Named ∧ Due i places v ∧
          ∀ q, Due j places' q → v.Before q := by
  obtain ⟨between, told, hmoves, hstep⟩ := next_moves filters hwell w
  obtain ⟨k, pending, hbetween, honward⟩ := hmoves.awaits hwell hawaits
  have hadvances := step_advances filters hwell hbetween
  rw [hstep] at hadvances
  generalize Walk.next filters fs w = answer at hadvances ⊢
  obtain ⟨item, after, events⟩ := answer
  cases item with
  | done =>
      cases hadvances with
      | finished hafter => exact ⟨k, pending, hafter, honward, fun _ hfile => by cases hfile⟩
  | failure failure =>
      cases hadvances with
      | @failed j v rest _ _ hfaces hafter =>
          have hlater := hfaces.onward_rest
          exact ⟨j, rest, hafter, honward.trans hlater, fun _ hfile => by cases hfile⟩
  | file path =>
      generalize hprogress : Item.progress (.file path) = progress at hadvances
      cases hadvances with
      | @yielded j v rest _ hfaces hafter haccepted =>
          have hlater := hfaces.onward_rest
          obtain rfl : path = v.path roots := Progress.yielded.inj hprogress
          have hdue : Due i places v := honward.due v (hfaces.due (.inl (Within.refl v)))
          refine ⟨j, rest, hafter, honward.trans hlater, ?_⟩
          intro other hfile
          obtain rfl := Item.file.inj hfile
          refine ⟨haccepted, v, rfl, hfaces.current hbetween, hfaces.named hbetween, hdue, ?_⟩
          intro q hq
          exact hfaces.before hbetween hq
      | finished | moved | failed => cases hprogress

end Walk

end LicenseHeaders

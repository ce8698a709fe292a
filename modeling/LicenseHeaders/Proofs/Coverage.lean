import LicenseHeaders.Proofs.Pointwise
import LicenseHeaders.Proofs.Selection

/-!
# What a walk meets on the whole

A directory that cannot be listed does not end a walk: it is met as a failure,
and the walk goes on behind it.  What is below such a directory is not met.  All
other files that are eligible are met, each under one of its paths.

* `Stands` — the state of a walk, also between a directory that could not be
  listed and the failure that it is met as;
* `Covers` — what is met from there on;
* `covers_meets`, `Engine.covers_items` — what a walk meets on the whole.
-/

namespace LicenseHeaders.Walk

open Visit

variable {fs : FileSystem} {roots : List Path} {criteria : Criteria} {pattern : Pattern}
  {filters : List NameFilter} {A A' : Visit → Prop} {seen : List (List Path.Component)}
  {items : List (Except Failure Path)}

/-! ## Filters -/

/-- Filters are made from a pattern that can be read. -/
theorem pattern_of_filters (hfilters : criteria.filters = .ok filters) :
    ∃ pattern, Pattern.read criteria.pattern = .ok pattern ∧
      filters = [.excluded (sortedNames criteria.excluded), .pattern pattern] := by
  cases hpattern : Pattern.read criteria.pattern with
  | ok pattern =>
      rw [filters_of_pattern hpattern] at hfilters
      exact ⟨pattern, rfl, (Except.ok.inj hfilters).symm⟩
  | error fault =>
      simp only [Criteria.filters, hpattern, bind, Except.bind] at hfilters
      cases hfilters

/-! ## Items -/

/-- **What a walk meets** of the places with the property `A`, when the identities
in `seen` have been met before: files that are eligible, failures to list
directories, and a file of each identity that has not been met and to which the
way is open. -/
structure Covers (fs : FileSystem) (roots : List Path) (criteria : Criteria) (pattern : Pattern)
    (A : Visit → Prop) (seen : List (List Path.Component)) (items : List (Except Failure Path)) :
    Prop where
  files : ∀ path, .ok path ∈ items → ∃ v : Visit, path = v.path roots ∧
    Eligible fs roots criteria pattern v ∧ Open fs roots v
  failures : ∀ failure, .error failure ∈ items → ∃ (v : Visit) (l : Location) (cause : Cause),
    failure = .traversal (v.path roots) cause ∧ Reached fs roots v l .directory ∧
      Open fs roots v ∧ fs.list (v.path roots) = .error cause
  complete : ∀ q, Eligible fs roots criteria pattern q → Open fs roots q → A q →
    key fs roots q ∈ seen ∨ ∃ path, .ok path ∈ items ∧ identity fs path = key fs roots q

namespace Covers

/-- Nothing need be met when nothing eligible is ahead. -/
theorem nil (hnone : ∀ q, Eligible fs roots criteria pattern q → ¬ A q) :
    Covers fs roots criteria pattern A seen [] where
  files := fun _ hpath => by cases hpath
  failures := fun _ hfailure => by cases hfailure
  complete := fun q hq _ hahead => absurd hahead (hnone q hq)

/-- Nothing new is passed over. -/
theorem skip (hcovers : Covers fs roots criteria pattern A' seen items)
    (hleft : ∀ q, Eligible fs roots criteria pattern q → Open fs roots q → A q →
      A' q ∨ key fs roots q ∈ seen) :
    Covers fs roots criteria pattern A seen items where
  files := hcovers.files
  failures := hcovers.failures
  complete := fun q hq hopen hahead => (hleft q hq hopen hahead).elim
    (hcovers.complete q hq hopen) .inl

/-- A directory that cannot be listed is met as a failure. -/
theorem fail (hcovers : Covers fs roots criteria pattern A seen items) {v : Visit} {l : Location}
    {cause : Cause} (hreached : Reached fs roots v l .directory) (hopen : Open fs roots v)
    (hlist : fs.list (v.path roots) = .error cause) :
    Covers fs roots criteria pattern A seen
      (.error (.traversal (v.path roots) cause) :: items) where
  files := fun path hpath => by
    rcases List.mem_cons.mp hpath with hfirst | hrest
    · cases hfirst
    · exact hcovers.files path hrest
  failures := fun failure hfailure => by
    rcases List.mem_cons.mp hfailure with hfirst | hrest
    · exact ⟨v, l, cause, Except.error.inj hfirst, hreached, hopen, hlist⟩
    · exact hcovers.failures failure hrest
  complete := fun q hq hway hahead => by
    rcases hcovers.complete q hq hway hahead with hold | ⟨path, hpath, hsame⟩
    · exact .inl hold
    · exact .inr ⟨path, List.mem_cons_of_mem _ hpath, hsame⟩

/-- A file is met. -/
theorem cons {v : Visit}
    (hcovers : Covers fs roots criteria pattern A' (key fs roots v :: seen) items)
    (heligible : Eligible fs roots criteria pattern v) (hopen : Open fs roots v)
    (hleft : ∀ q, Eligible fs roots criteria pattern q → A q → A' q ∨ q = v) :
    Covers fs roots criteria pattern A seen (.ok (v.path roots) :: items) where
  files := fun path hpath => by
    rcases List.mem_cons.mp hpath with hfirst | hrest
    · exact ⟨v, Except.ok.inj hfirst, heligible, hopen⟩
    · exact hcovers.files path hrest
  failures := fun failure hfailure => by
    rcases List.mem_cons.mp hfailure with hfirst | hrest
    · cases hfirst
    · exact hcovers.failures failure hrest
  complete := fun q hq hway hahead => by
    have hfirst : ∀ u : Visit, key fs roots u = key fs roots v →
        ∃ path, .ok path ∈ (.ok (v.path roots) :: items : List (Except Failure Path)) ∧
          identity fs path = key fs roots u :=
      fun u hsame => ⟨v.path roots, List.mem_cons_self, hsame.symm⟩
    rcases hleft q hq hahead with hlater | rfl
    · rcases hcovers.complete q hq hway hlater with hseen | ⟨path, hpath, hsame⟩
      · rcases List.mem_cons.mp hseen with hsame | hold
        · exact .inr (hfirst q hsame)
        · exact .inl hold
      · exact .inr ⟨path, List.mem_cons_of_mem _ hpath, hsame⟩
    · exact .inr (hfirst q rfl)

end Covers

/-! ## Walks -/

/-- The state of a walk: it looks at the places before it, or else at a directory
that it could not list. -/
inductive Stands (fs : FileSystem) (roots : List Path) (i : Nat) (places : List (Visit × Kind))
    (w : Walk) : Prop where
  | going (htracks : Tracks fs roots i places w)
  | halted {v : Visit} {l : Location} {cause : Cause} {pending : List Pending}
      (hreached : Reached fs roots v l .directory) (hopen : Open fs roots v)
      (hlist : fs.list (v.path roots) = .error cause)
      (hpending : w.pending = .unlisted (v.path roots) cause :: pending)
      (hafter : Tracks fs roots i places { w with pending := pending })

/-- A directory that could not be listed is what a walk meets next. -/
theorem step_of_unlisted {w : Walk} {path : Path} {cause : Cause} {rest : List Pending}
    (hpending : w.pending = .unlisted path cause :: rest) :
    step filters fs w = (.failed (.traversal path cause), { w with pending := rest }, []) := by
  simp only [Walk.step, hpending]

section

variable (hnamed : fs.WellNamed) (hroots : ∀ root ∈ roots, fs.leadsToDirectory root = true)
  (hfilters : filters = [.excluded (sortedNames criteria.excluded), .pattern pattern])
  {i : Nat} {places : List (Visit × Kind)} {w : Walk}

include hnamed hroots hfilters

/-- **A walk covers what is ahead of it.** -/
theorem Stands.covers (hstands : Stands fs roots i places w) (hmeets : Meets filters fs w items) :
    Covers fs roots criteria pattern (Ahead i places) w.seen items := by
  induction hmeets generalizing i places with
  | finished hstep =>
      cases hstands with
      | going htracks =>
          cases htracks.turn hnamed hroots hfilters hstep with
          | finished hplaces hlength =>
              subst hplaces
              refine Covers.nil fun q hq hahead => ?_
              obtain ⟨k, other, hreached, _⟩ := hq.leaf
              exact not_ahead hlength hreached hahead
      | halted _ _ _ hpending => cases (step_of_unlisted hpending).symm.trans hstep
  | moved hstep _ ih =>
      cases hstands with
      | going htracks =>
          cases htracks.turn hnamed hroots hfilters hstep with
          | opened hahead hreached _ hafter hseen =>
              refine (hseen ▸ ih (.going hafter)).skip fun q hq _ hlater => .inl ?_
              obtain ⟨k, other, hreached', hleaf⟩ := hq.leaf
              refine ((ahead_directory_iff hreached hreached').mp
                ((hahead q).mp hlater)).resolve_left ?_
              rintro rfl
              exact hleaf (hreached'.entry_unique hreached)
          | @unlisted _ v _ _ _ _ _ hahead hreached hopen hlist hpending hafter hseen =>
              refine (hseen ▸ ih (.halted hreached hopen hlist hpending hafter)).skip
                fun q hq hway hlater => .inl ?_
              rcases ahead_cons_iff.mp ((hahead q).mp hlater) with hwithin | hrest
              · -- The way to what is below the directory is not open.
                obtain ⟨k, other, hreached', hleaf⟩ := hq.leaf
                have hbelow : v ≠ q := by
                  rintro rfl
                  exact hleaf (hreached'.entry_unique hreached)
                obtain ⟨entries, hlisted⟩ := hway _ _ hwithin hbelow hreached
                cases hlist.symm.trans hlisted
              · exact hrest
          | passed hplaces hreached hleaf hskip hafter hseen =>
              subst hplaces
              refine (hseen ▸ ih (.going hafter)).skip fun q hq _ hlater => ?_
              obtain ⟨k, other, hreached', _⟩ := hq.leaf
              rcases (ahead_leaf_iff hreached hleaf hreached').mp hlater with rfl | hrest
              · exact .inr (hseen ▸ hskip hq)
              · exact .inl hrest
      | halted _ _ _ hpending => cases (step_of_unlisted hpending).symm.trans hstep
  | failed hstep _ ih =>
      cases hstands with
      | going htracks => cases htracks.turn hnamed hroots hfilters hstep
      | halted hreached hopen hlist hpending hafter =>
          cases (step_of_unlisted hpending).symm.trans hstep
          exact (ih (.going hafter)).fail hreached hopen hlist
  | yielded hstep _ ih =>
      cases hstands with
      | going htracks =>
          cases htracks.turn hnamed hroots hfilters hstep with
          | yielded hplaces hreached hleaf heligible _ hafter hseen =>
              subst hplaces
              refine (hseen ▸ ih (.going hafter)).cons heligible
                (htracks.unbarred _ List.mem_cons_self) fun q hq hlater => ?_
              obtain ⟨k, other, hreached', _⟩ := hq.leaf
              rcases (ahead_leaf_iff hreached hleaf hreached').mp hlater with rfl | hrest
              · exact .inr rfl
              · exact .inl hrest
      | halted _ _ _ hpending => cases (step_of_unlisted hpending).symm.trans hstep

/-- **What a walk meets on the whole.** -/
theorem covers_meets (hmeets : Meets filters fs ⟨roots, [], []⟩ items) :
    Covers fs roots criteria pattern (fun _ => True) [] items :=
  (Stands.covers hnamed hroots hfilters (.going (tracks_start fs roots)) hmeets).skip
    fun _ _ _ _ => .inl (.inl (Nat.zero_le _))

end

/-- The path of a directory that cannot be listed leads there, if it leads
anywhere. -/
theorem Covers.directory_of_failure (hcovers : Covers fs roots criteria pattern A seen items)
    (hnamed : fs.WellNamed) {failure : Failure} (hfailure : .error failure ∈ items) :
    ∃ path cause, failure = .traversal path cause ∧
      ∀ l, fs.canonical? path = some l → fs.find? l = some .directory := by
  obtain ⟨v, l, cause, rfl, hreached, hopen, _⟩ := hcovers.failures failure hfailure
  refine ⟨_, cause, rfl, fun k hk => ?_⟩
  obtain ⟨entry, hlookup⟩ := FileSystem.lookup_of_canonical? hk
  obtain rfl := hreached.locate hnamed hopen (fun _ => Entry.noConfusion)
    (FileSystem.lookup_eq_ok_iff.mp hlookup).1
  exact hreached.find?

end LicenseHeaders.Walk

namespace LicenseHeaders

/-- **What a run meets on the whole.** -/
theorem Engine.covers_items {e : Engine} (hundisturbed : e.detector.edits = [])
    (hcriteria : e.criteria.filters = .ok e.filters) {fs : FileSystem} (hnamed : fs.WellNamed)
    {roots : List Path} {walk : Walk} (hstart : Walk.start fs roots = .ok walk) :
    ∃ pattern, Walk.Covers fs roots e.criteria pattern (fun _ => True) []
      (e.items fs roots walk) := by
  obtain ⟨pattern, _, hfilters⟩ := Walk.pattern_of_filters hcriteria
  obtain ⟨hroots, rfl⟩ := Walk.directories_of_start hstart
  exact ⟨pattern, Walk.covers_meets hnamed hroots hfilters (items_meets hundisturbed hnamed hstart)⟩

end LicenseHeaders

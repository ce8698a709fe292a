import LicenseHeaders.Proofs.Advancing
import LicenseHeaders.Proofs.Coverage
import LicenseHeaders.Proofs.Creation
import LicenseHeaders.Proofs.Rootwise

/-!
# Walks while others change the tree

A walk is called again and again, and each call finds the tree in some state
(`Walk.calls`).  What it goes by is only what it has listed before and what it lists
now, so its guarantees have to come from what is pending and from what it has seen.

* `step_skips` — a failure costs one place;
* `Awaits.calls` — what is yielded was due, and `Awaits.ascending` — in order;
* `calls_steady` — what can be relied on in a walk, whatever others do.
-/

namespace LicenseHeaders

namespace Walk

open Visit

variable {filters : List NameFilter} {fs : FileSystem} {roots : List Path}
  {i j : Nat} {places : List Visit} {v q : Visit} {w : Walk}

/-! ## Failures and the end -/

/-- Nothing is left to look at. -/
def Exhausted (w : Walk) : Prop := w.roots = [] ∧ w.pending = []

/-- The walk without the place that it looks at next. -/
def skipped (w : Walk) : Walk :=
  match w.pending with
  | _ :: rest => { w with pending := rest }
  | [] => { w with roots := w.roots.tail }

/-- A root that cannot be entered leaves the walk as it is. -/
theorem enter_skips {root : Path} {failure : Failure}
    (hfailed : (enter filters fs w root).1 = .failed failure) :
    (enter filters fs w root).2.1 = w := by
  unfold enter at hfailed ⊢
  split at hfailed
  · rfl
  · cases hfailed
  · exact absurd hfailed (offer_ne_failed _ _ _)
  · split at hfailed
    · rfl
    · cases hfailed
    · exact absurd hfailed (offer_ne_failed _ _ _)

/-- **A step that fails skips one place** and leaves all others. -/
theorem step_skips {failure : Failure} (hfailed : (step filters fs w).1 = .failed failure) :
    ¬ w.Exhausted ∧ (step filters fs w).2.1 = w.skipped := by
  unfold step at hfailed ⊢
  unfold Exhausted skipped
  split at hfailed
  · next hpending => simp [hpending]
  · cases hfailed
  · exact absurd hfailed (offer_ne_failed _ _ _)
  · split at hfailed
    · exact absurd hfailed (offer_ne_failed _ _ _)
    · cases hfailed
  · next hpending =>
    split at hfailed
    · cases hfailed
    · next root others hroots =>
      have hkept := enter_skips hfailed
      rw [hpending] at hkept
      simp [hpending, hroots, hkept]

/-- A failure is met on the way, and the walk goes on behind it. -/
theorem next_failed (hwell : fs.WellNamed) {failure : Failure}
    (hfailure : (next filters fs w).1 = .failure failure) :
    ∃ faced, Moves filters fs w faced ∧ ¬ faced.Exhausted ∧
      (next filters fs w).2.1 = faced.skipped := by
  obtain ⟨faced, told, hmoves, hstep⟩ := next_moves filters hwell w
  rw [hfailure] at hstep
  obtain ⟨hleft, hskipped⟩ := step_skips (congrArg Prod.fst hstep)
  rw [hstep] at hskipped
  exact ⟨faced, hmoves, hleft, hskipped⟩

/-- A walk is done when it has moved past all that was left. -/
theorem next_done (hwell : fs.WellNamed) (hdone : (next filters fs w).1 = .done) :
    Moves filters fs w (next filters fs w).2.1 ∧ (next filters fs w).2.1.Exhausted := by
  obtain ⟨last, told, hmoves, hstep⟩ := next_moves filters hwell w
  rw [hdone] at hstep
  have hexhausted : last.Exhausted := step_finished filters fs (congrArg Prod.fst hstep)
  obtain ⟨waiting, pending, seen⟩ := last
  obtain ⟨rfl, rfl⟩ : waiting = [] ∧ pending = [] := hexhausted
  obtain ⟨_, hafter⟩ := Prod.mk.inj hstep
  rw [← (Prod.mk.inj hafter).1]
  exact ⟨hmoves, rfl, rfl⟩

/-- A walk with nothing left answers that it is done, and stays as it is. -/
theorem next_of_exhausted (filters : List NameFilter) (fs : FileSystem) (hexhausted : w.Exhausted) :
    next filters fs w = (.done, w, []) := by
  obtain ⟨waiting, pending, seen⟩ := w
  obtain ⟨rfl, rfl⟩ : waiting = [] ∧ pending = [] := hexhausted
  rw [next, budget, nextWithin]
  rfl

/-! ## Calls -/

/-- One call of a walk. -/
structure Call where
  /-- The tree as the call finds it. -/
  fs : FileSystem
  before : Walk
  item : Item
  after : Walk

/-- The calls of a walk, one after the other, in the states of the tree that they find. -/
def calls (filters : List NameFilter) : Walk → List FileSystem → List Call
  | _, [] => []
  | w, fs :: disks =>
    let (item, after, _) := next filters fs w
    ⟨fs, w, item, after⟩ :: calls filters after disks

/-- How many roots have been entered by the end of a call. -/
def Call.entered (roots : List Path) (call : Call) : Nat := roots.length - call.after.roots.length

/-- No call has entered more roots than there are. -/
theorem Call.entered_le (roots : List Path) (call : Call) : call.entered roots ≤ roots.length :=
  Nat.sub_le _ _

variable {disks : List FileSystem} {call : Call}

/-- The first call leaves the walk that the next one starts from. -/
theorem calls_cons (filters : List NameFilter) (w : Walk) (fs : FileSystem)
    (disks : List FileSystem) :
    calls filters w (fs :: disks) =
      ⟨fs, w, (next filters fs w).1, (next filters fs w).2.1⟩ ::
        calls filters (next filters fs w).2.1 disks :=
  rfl

/-- A call is the first one or one of those behind it. -/
theorem mem_calls_cons (hcall : call ∈ calls filters w (fs :: disks)) :
    call = ⟨fs, w, (next filters fs w).1, (next filters fs w).2.1⟩ ∨
      call ∈ calls filters (next filters fs w).2.1 disks :=
  List.mem_cons.mp hcall

/-- A call is an answer of a walk in one of the states of the tree. -/
theorem call_eq (hcall : call ∈ calls filters w disks) :
    call.fs ∈ disks ∧
      call.item = (next filters call.fs call.before).1 ∧
      call.after = (next filters call.fs call.before).2.1 := by
  induction disks generalizing w with
  | nil => cases hcall
  | cons fs disks ih =>
      rcases mem_calls_cons hcall with rfl | hlater
      · exact ⟨List.mem_cons_self, rfl, rfl⟩
      · obtain ⟨hmem, hanswer⟩ := ih hlater
        exact ⟨List.mem_cons_of_mem _ hmem, hanswer⟩

/-- **A walk with nothing left** has no other answer any more. -/
theorem calls_of_exhausted (hexhausted : w.Exhausted) :
    ∀ call ∈ calls filters w disks, call.item = .done := by
  induction disks with
  | nil => exact List.forall_mem_nil _
  | cons fs disks ih =>
      rw [calls_cons, next_of_exhausted filters fs hexhausted]
      exact List.forall_mem_cons.mpr ⟨rfl, ih⟩

/-- What has been seen is not yielded, whatever the tree is by then. -/
theorem identity_not_mem_of_calls (hcall : call ∈ calls filters w disks) {path : Path}
    (hfile : call.item = .file path) : identity call.fs path ∉ w.seen := by
  induction disks generalizing w with
  | nil => cases hcall
  | cons fs disks ih =>
      have hnotes := next_notes filters fs w
      rcases mem_calls_cons hcall with rfl | hlater
      · rw [show (next filters fs w).1 = .file path from hfile] at hnotes
        exact hnotes.1
      · have hnew := ih hlater
        intro hold
        apply hnew
        generalize (next filters fs w).1 = item at hnotes
        cases item with
        | file first => exact hnotes.2 ▸ List.mem_cons_of_mem _ hold
        | failure | done => exact hnotes ▸ hold

/-! ## Order -/

/-- What a call keeps to: it enters the next roots, if any, and yields what was due. -/
structure Call.KeepsTo (filters : List NameFilter) (roots : List Path) (i : Nat)
    (places : List Visit) (call : Call) : Prop where
  le : i ≤ call.entered roots
  waiting : call.after.roots = roots.drop (call.entered roots)
  yielded : ∀ path, call.item = .file path → firstRejection? filters path = none ∧
    ∃ v : Visit, path = v.path roots ∧ v.root + 1 = call.entered roots ∧ v.Named ∧ Due i places v

/-- The roots that a walk has entered are those that are not waiting. -/
theorem Awaits.entered_eq (hawaits : Awaits roots i places w) (fs : FileSystem) (before : Walk)
    (item : Item) : Call.entered roots ⟨fs, before, item, w⟩ = i := by
  have hentered := hawaits.entered
  rw [Call.entered, hawaits.waiting, List.length_drop]
  omega

variable (filters) in
/-- **What is yielded was due**, at every call. -/
theorem Awaits.calls (hnamed : ∀ fs ∈ disks, fs.WellNamed) (hawaits : Awaits roots i places w) :
    ∀ call ∈ calls filters w disks, call.KeepsTo filters roots i places := by
  induction disks generalizing i places w with
  | nil => exact List.forall_mem_nil _
  | cons fs disks ih =>
      obtain ⟨hwell, hrest⟩ := List.forall_mem_cons.mp hnamed
      obtain ⟨j, places', hafter, honward, hyielded⟩ := hawaits.next filters hwell
      intro call hcall
      rcases mem_calls_cons hcall with rfl | hlater
      · have hentered := hafter.entered_eq fs w (Walk.next filters fs w).1
        constructor
        case le => exact hentered ▸ honward.le
        case waiting => exact hentered ▸ hafter.waiting
        case yielded =>
          intro path hfile
          obtain ⟨haccepted, v, hpath, hroot, hproper, hdue, _⟩ := hyielded path hfile
          exact ⟨haccepted, v, hpath, hroot.trans hentered.symm, hproper, hdue⟩
      · have hkeeps := ih hrest hafter call hlater
        constructor
        case le => exact Nat.le_trans honward.le hkeeps.le
        case waiting => exact hkeeps.waiting
        case yielded =>
          intro path hfile
          obtain ⟨haccepted, v, hpath, hroot, hproper, hdue⟩ := hkeeps.yielded path hfile
          exact ⟨haccepted, v, hpath, hroot, hproper, honward.due v hdue⟩

/-- Calls in order: roots are entered one after the other, and what is yielded first
comes first. -/
structure InOrder (roots : List Path) (a b : Call) : Prop where
  le : a.entered roots ≤ b.entered roots
  before : ∀ p q, a.item = .file p → b.item = .file q →
    ∃ v u : Visit, p = v.path roots ∧ q = u.path roots ∧ v.root + 1 = a.entered roots ∧
      u.root + 1 = b.entered roots ∧ v.Named ∧ u.Named ∧ v.Before u

variable (filters) in
/-- **All is yielded in order.** -/
theorem Awaits.ascending (hnamed : ∀ fs ∈ disks, fs.WellNamed) (hawaits : Awaits roots i places w) :
    (Walk.calls filters w disks).Pairwise (InOrder roots) := by
  induction disks generalizing i places w with
  | nil => exact List.Pairwise.nil
  | cons fs disks ih =>
      obtain ⟨hwell, hrest⟩ := List.forall_mem_cons.mp hnamed
      obtain ⟨j, places', hafter, _, hyielded⟩ := hawaits.next filters hwell
      rw [calls_cons]
      apply List.Pairwise.cons _ (ih hrest hafter)
      intro later hlater
      have hentered := hafter.entered_eq fs w (Walk.next filters fs w).1
      have hkeeps := hafter.calls filters hrest later hlater
      constructor
      case le => exact hentered ▸ hkeeps.le
      case before =>
        intro p q hp hq
        obtain ⟨_, v, hpath, hroot, hproper, _, hbefore⟩ := hyielded p hp
        obtain ⟨_, u, hpath', hroot', hproper', hdue⟩ := hkeeps.yielded q hq
        exact ⟨v, u, hpath, hpath', hroot.trans hentered.symm, hroot', hproper, hproper',
          hbefore u hdue⟩

/-! ## Whatever others do -/

/-- **What can be relied on in a walk** over roots for a criterion. -/
structure Steady (criteria : Criteria) (pattern : Pattern) (filters : List NameFilter)
    (roots : List Path) (calls : List Call) : Prop where
  /-- The roots that have not been entered wait in the order in which they are given. -/
  waiting : ∀ call ∈ calls, call.after.roots = roots.drop (call.entered roots)
  onward : calls.Pairwise fun a b => a.entered roots ≤ b.entered roots
  /-- What is yielded is the root that was entered last, or lies under it. -/
  rooted : ∀ call ∈ calls, ∀ p, call.item = .file p →
    ∃ (i : Nat) (root : Path) (names : List Name), call.entered roots = i + 1 ∧
      roots[i]? = some root ∧ (∀ n ∈ names, ProperName n) ∧
      p = names.foldl Path.join root ∧ p.components = root.components ++ names.map .name
  selected : ∀ call ∈ calls, ∀ p, call.item = .file p →
    p.baseName ∉ criteria.excluded ∧ pattern.accepts p.baseName = true
  ascending : calls.Pairwise fun a b => ∀ p q, a.item = .file p → b.item = .file q →
    a.entered roots = b.entered roots → p.Below q ∧ p ≠ q
  /-- Each file is told by the tree in which it was looked at. -/
  distinct : calls.Pairwise fun a b => ∀ p q, a.item = .file p → b.item = .file q →
    identity a.fs p ≠ identity b.fs q
  /-- A failure costs the place that it is met at, and no other one. -/
  undeterred : ∀ call ∈ calls, ∀ failure, call.item = .failure failure →
    ∃ w, Moves filters call.fs call.before w ∧ ¬ w.Exhausted ∧ call.after = w.skipped
  /-- A walk ends only where nothing is left. -/
  exhausted : ∀ call ∈ calls, call.item = .done →
    Moves filters call.fs call.before call.after ∧ call.after.Exhausted
  final : calls.Pairwise fun a b => a.item = .done → b.item = .done

/-- **Below one root** paths are in the order in which their places come. -/
theorem below_of_before (htext : ∀ root ∈ roots, root.text ≠ []) (hlength : v.root < roots.length)
    (hsame : v.root = q.root) (hnamed : v.Named) (hnamed' : q.Named) (hbefore : v.Before q) :
    (v.path roots).Below (q.path roots) := by
  have hlex : List.Lex Name.Below v.names q.names := by
    rcases hbefore with hless | ⟨_, hlex⟩
    · exact absurd hsame (Nat.ne_of_lt hless)
    · exact hlex
  rw [Visit.path, Visit.path, ← hsame, List.getD_eq_getElem _ _ hlength]
  exact Path.below_of_names hnamed hnamed' (htext _ (List.getElem_mem hlength)) hlex

/-- A root at which a walk can start has a path that is not empty. -/
theorem text_ne_nil_of_start {walk : Walk} (hstart : start fs roots = .ok walk) :
    ∀ root ∈ roots, root.text ≠ [] := by
  intro root hroot
  obtain ⟨l, hlookup⟩ := lookup_of_leadsToDirectory ((directories_of_start hstart).1 root hroot)
  have hlocate := (FileSystem.lookup_eq_ok_iff.mp hlookup).1
  exact (FileSystem.locate_eq_ok_iff.mp hlocate).2.1

/-- **No file is yielded twice**, told by where it was when it was looked at. -/
theorem calls_distinct (filters : List NameFilter) (w : Walk) (disks : List FileSystem) :
    (calls filters w disks).Pairwise fun a b => ∀ p q, a.item = .file p → b.item = .file q →
      identity a.fs p ≠ identity b.fs q := by
  induction disks generalizing w with
  | nil => exact List.Pairwise.nil
  | cons fs disks ih =>
      rw [calls_cons]
      apply List.Pairwise.cons _ (ih _)
      intro later hlater p q hp hq hsame
      have hnew := identity_not_mem_of_calls hlater hq
      have hnotes := next_notes filters fs w
      rw [show (next filters fs w).1 = .file p from hp] at hnotes
      rw [hnotes.2, ← hsame] at hnew
      exact hnew List.mem_cons_self

/-- **Once a walk is done** it is done for ever. -/
theorem calls_final (filters : List NameFilter) (w : Walk) (hnamed : ∀ fs ∈ disks, fs.WellNamed) :
    (calls filters w disks).Pairwise fun a b => a.item = .done → b.item = .done := by
  induction disks generalizing w with
  | nil => exact List.Pairwise.nil
  | cons fs disks ih =>
      obtain ⟨hwell, hrest⟩ := List.forall_mem_cons.mp hnamed
      rw [calls_cons]
      apply List.Pairwise.cons _ (ih _ hrest)
      intro later hlater hdone
      exact calls_of_exhausted (next_done hwell hdone).2 later hlater

end Walk

/-! ## Edits between calls -/

/-- The states in which calls find the tree when others edit it before each call. -/
def FileSystem.interleaved (fs : FileSystem) : List (List Edit) → List FileSystem
  | [] => []
  | edits :: later =>
    edits.foldl FileSystem.apply fs :: (edits.foldl FileSystem.apply fs).interleaved later

/-- **Whatever others do and whenever**, all names stay proper. -/
theorem FileSystem.WellNamed.interleaved {fs : FileSystem} (hnamed : fs.WellNamed)
    (rounds : List (List Edit)) : ∀ disk ∈ fs.interleaved rounds, disk.WellNamed := by
  have hedited : ∀ (edits : List Edit) {fs : FileSystem}, fs.WellNamed →
      (edits.foldl FileSystem.apply fs).WellNamed := by
    intro edits
    induction edits with
    | nil => exact id
    | cons edit edits ih => exact fun hnamed => ih (hnamed.apply edit)
  induction rounds generalizing fs with
  | nil => exact List.forall_mem_nil _
  | cons edits later ih =>
      exact List.forall_mem_cons.mpr ⟨hedited edits hnamed, ih (hedited edits hnamed)⟩

namespace Walk

variable {filters : List NameFilter} {fs : FileSystem} {roots : List Path}
  {disks : List FileSystem}

/-- **A walk keeps its guarantees whatever others do** to the tree between its calls.
The states in which the calls find the tree need not have anything to do with each
other, nor with the one in which the walk was started; those that edits bring about
are among them (`FileSystem.WellNamed.interleaved`). -/
theorem calls_steady {criteria : Criteria} {walk : Walk} (hstart : start fs roots = .ok walk)
    (hfilters : criteria.filters = .ok filters) (hnamed : ∀ disk ∈ disks, disk.WellNamed) :
    ∃ pattern, Pattern.read criteria.pattern = .ok pattern ∧
      Steady criteria pattern filters roots (calls filters walk disks) := by
  obtain ⟨pattern, hpattern, hlist⟩ := pattern_of_filters hfilters
  have htext := text_ne_nil_of_start hstart
  obtain ⟨_, rfl⟩ := directories_of_start hstart
  have hkeeps := (awaits_start roots).calls filters hnamed
  have hascending := (awaits_start roots).ascending filters hnamed
  have hwell : ∀ call ∈ calls filters ⟨roots, [], []⟩ disks, call.fs.WellNamed :=
    fun call hcall => hnamed call.fs (call_eq hcall).1
  refine ⟨pattern, hpattern, ?_⟩
  constructor
  case waiting => exact fun call hcall => (hkeeps call hcall).waiting
  case onward => exact hascending.imp fun hinOrder => hinOrder.le
  case rooted =>
    intro call hcall p hp
    obtain ⟨_, v, rfl, hroot, hproper, _⟩ := (hkeeps call hcall).yielded p hp
    have hentered := call.entered_le roots
    have hlength : v.root < roots.length := by omega
    have hpath : v.path roots = v.names.foldl Path.join roots[v.root] := by
      rw [Visit.path, List.getD_eq_getElem _ _ hlength]
    refine ⟨v.root, roots[v.root], v.names, hroot.symm, List.getElem?_eq_getElem hlength, hproper,
      hpath, ?_⟩
    rw [hpath]
    exact Path.components_foldl_join hproper (htext _ (List.getElem_mem hlength))
  case selected =>
    intro call hcall p hp
    have haccepted := ((hkeeps call hcall).yielded p hp).1
    rw [hlist] at haccepted
    exact firstRejection?_eq_none_iff.mp haccepted
  case ascending =>
    apply hascending.imp
    intro first later hinOrder p q hp hq hsame
    obtain ⟨v, u, rfl, rfl, hv, hu, hproper, hproper', hbefore⟩ := hinOrder.before p q hp hq
    have hentered := Call.entered_le roots first
    have hlength : v.root < roots.length := by omega
    have hroots : v.root = u.root := by omega
    have hbelow := below_of_before htext hlength hroots hproper hproper' hbefore
    exact ⟨hbelow, hbelow.ne⟩
  case distinct => exact calls_distinct filters _ disks
  case undeterred =>
    intro call hcall failure hfailure
    obtain ⟨hmem, hitem, hafter⟩ := call_eq hcall
    rw [hafter]
    exact next_failed (hwell call hcall) (hitem ▸ hfailure)
  case exhausted =>
    intro call hcall hdone
    obtain ⟨hmem, hitem, hafter⟩ := call_eq hcall
    rw [hafter]
    exact next_done (hwell call hcall) (hitem ▸ hdone)
  case final => exact calls_final filters _ hnamed

end Walk

namespace Sample

/-- The directory three times, by two of its paths. -/
def thrice : List Path := [⟨['w']⟩, ⟨['/', 'w']⟩, ⟨['w']⟩]

/-- While the directory is walked, others put a file in the place of the link, delete
the directory, put a file in its place and, when the walk is done, a directory again. -/
def meddling : List (List Edit) :=
  [[], [.replace ⟨['w', '/', 'b']⟩ (.file (.text ['y']))], [.delete ⟨['w']⟩],
    [.create ⟨['w']⟩ (.file .empty)], [], [.replace ⟨['w']⟩ .directory]]

end Sample

/-- The root that is gone is a failure, and the one that has become a file is yielded
itself. -/
theorem Walk.calls_steady_sample :
    ∃ filters, Sample.plan.criteria.filters = .ok filters ∧
      Walk.start Sample.tree Sample.thrice = .ok ⟨Sample.thrice, [], []⟩ ∧
      (∀ disk ∈ Sample.tree.interleaved Sample.meddling, disk.WellNamed) ∧
      (∃ pattern, Walk.Steady Sample.plan.criteria pattern filters Sample.thrice
        (Walk.calls filters ⟨Sample.thrice, [], []⟩ (Sample.tree.interleaved Sample.meddling))) ∧
      (Walk.calls filters ⟨Sample.thrice, [], []⟩ (Sample.tree.interleaved Sample.meddling)).map
          Walk.Call.item =
        [.file ⟨['w', '/', 'a']⟩, .file ⟨['w', '/', 'b']⟩,
          .failure (.traversal ⟨['/', 'w']⟩ .noSuchEntry), .file ⟨['w']⟩, .done, .done] := by
  have hstart : Walk.start Sample.tree Sample.thrice = .ok ⟨Sample.thrice, [], []⟩ :=
    Walk.start_of_directories (by decide)
  have hpattern : Pattern.read Sample.plan.criteria.pattern = .ok ⟨['*'], [.anyText]⟩ := by cbv
  have hfilters := Walk.filters_of_pattern hpattern
  have hnamed : Sample.tree.WellNamed := by decide
  have hdisks := hnamed.interleaved Sample.meddling
  obtain ⟨pattern, _, hsteady⟩ := Walk.calls_steady hstart hfilters hdisks
  exact ⟨_, hfilters, hstart, hdisks, ⟨pattern, hsteady⟩, by cbv⟩

end LicenseHeaders

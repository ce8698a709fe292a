import LicenseHeaders.Proofs.Rewriting
import Mathlib.Algebra.Order.BigOperators.Group.List
import Mathlib.Algebra.Order.Group.Nat
import Mathlib.Algebra.Ring.Nat
import Mathlib.Data.List.Nodup

/-!
# What a directory holds

A listing names each entry of a directory once.  Where all names are proper,
the path of a directory and a name from its listing lead to that entry and to
nothing else, so going down by listings is going down in the tree.

* `find?_of_mem_children` — every name of a listing is that of an entry;
* `locate_join`, `locate_join_eq` — where a path with a name behind it leads;
* `sum_below_children_le` — the trees below the entries of a directory have
  nothing in common.
-/

namespace LicenseHeaders

/-- A name that an entry of a directory can have: one that a path can spell as
a single piece, and that is none of the pieces with a meaning of their own. -/
def ProperName (n : Name) : Prop :=
  n ≠ [] ∧ n ≠ ['.'] ∧ n ≠ ['.', '.'] ∧ '/' ∉ n

instance (n : Name) : Decidable (ProperName n) :=
  inferInstanceAs (Decidable (n ≠ [] ∧ n ≠ ['.'] ∧ n ≠ ['.', '.'] ∧ '/' ∉ n))

/-- All names are proper.  No disk holds others; a table of entries could. -/
def FileSystem.WellNamed (fs : FileSystem) : Prop :=
  ∀ row ∈ fs.entries, ∀ n ∈ row.1, ProperName n

instance (fs : FileSystem) : Decidable fs.WellNamed :=
  inferInstanceAs (Decidable (∀ row ∈ fs.entries, ∀ n ∈ row.1, ProperName n))

/-- No name holds a zero or is longer than the system takes it.  No disk holds
others, either. -/
def FileSystem.Spellable (fs : FileSystem) : Prop :=
  ∀ row ∈ fs.entries, ∀ n ∈ row.1, '\x00' ∉ n ∧ n.byteCount ≤ nameLimit

instance (fs : FileSystem) : Decidable fs.Spellable :=
  inferInstanceAs (Decidable (∀ row ∈ fs.entries, ∀ n ∈ row.1,
    '\x00' ∉ n ∧ n.byteCount ≤ FileSystem.nameLimit))

/-! ## A name behind a path -/

namespace Path

/-- The steps of a path, but for the `/` that may close it. -/
def openSteps (p : Path) : List PathStep :=
  ((Text.splitOn '/' p.text).filter fun piece => piece ≠ []).map fun piece =>
    if piece = ['.'] then PathStep.here
    else if piece = ['.', '.'] then .up
    else .name piece

/-- A closing step follows a name only. -/
theorem steps_def (p : Path) : p.steps =
    match p.openSteps.getLast? with
    | some (.name _) =>
      if p.text.getLast? = some '/' then p.openSteps ++ [.close] else p.openSteps
    | _ => p.openSteps := rfl

/-- A path may ask for a directory behind its last piece. -/
theorem steps_cases (p : Path) : p.steps = p.openSteps ∨ p.steps = p.openSteps ++ [.close] := by
  rw [steps_def]
  split
  · by_cases hclosed : p.text.getLast? = some '/'
    · exact .inr (if_pos hclosed)
    · exact .inl (if_neg hclosed)
  · exact .inl rfl

/-- A path that does not end in `/` has no closing step. -/
theorem steps_of_open {p : Path} (hopen : p.text.getLast? ≠ some '/') : p.steps = p.openSteps := by
  rw [steps_def]
  split
  · exact if_neg hopen
  · rfl

/-- The steps of a path with a proper name behind it. -/
theorem steps_join {p : Path} {n : Name} (hp : p.text ≠ []) (hn : ProperName n) :
    (p.join n).steps = p.openSteps ++ [.name n] ∧ (p.join n).isAbsolute = p.isAbsolute := by
  obtain ⟨hne, hhere, hup, hslash⟩ := hn
  have hhead : n.head? ≠ some '/' := fun h => hslash (List.mem_of_mem_head? h)
  have hlast : ∀ t : Text, (t ++ n).getLast? ≠ some '/' := by
    intro t h
    rw [List.getLast?_append_of_ne_nil _ hne] at h
    exact hslash (List.mem_of_getLast? h)
  have hpiece : (([n] : List Text).filter fun piece => piece ≠ []).map (fun piece =>
      if piece = ['.'] then PathStep.here
      else if piece = ['.', '.'] then .up
      else .name piece) = [.name n] := by
    simp [hne, hhere, hup]
  unfold join
  rw [if_neg hhead]
  by_cases hclosed : p.text = [] ∨ p.text.getLast? = some '/'
  · rw [if_pos hclosed]
    obtain ⟨t, ht⟩ := List.getLast?_eq_some_iff.mp (hclosed.resolve_left hp)
    refine ⟨?_, ?_⟩
    · rw [steps_of_open (hlast _), openSteps, openSteps]
      simp only [ht, List.append_assoc, List.singleton_append, Text.splitOn_append,
        Text.splitOn_of_not_mem hslash, List.filter_append, List.map_append, hpiece]
      simp [Text.splitOn]
    · rw [isAbsolute, isAbsolute, List.head?_append_of_ne_nil _ hp]
  · rw [if_neg hclosed]
    refine ⟨?_, ?_⟩
    · have hopen : (p.text ++ '/' :: n).getLast? ≠ some '/' := by
        rw [← List.singleton_append, ← List.append_assoc]
        exact hlast _
      rw [steps_of_open hopen, openSteps, openSteps]
      simp only [Text.splitOn_append, Text.splitOn_of_not_mem hslash, List.filter_append,
        List.map_append, hpiece]
    · rw [isAbsolute, isAbsolute, List.head?_append_of_ne_nil _ hp]

/-- Behind a path that is not empty stands a `/`, and then the name. -/
theorem text_join {p : Path} {n : Name} (hp : p.text ≠ []) (hn : ProperName n) :
    ∃ t, (p.join n).text = t ++ '/' :: n := by
  have hhead : n.head? ≠ some '/' := fun h => hn.2.2.2 (List.mem_of_mem_head? h)
  unfold join
  rw [if_neg hhead]
  by_cases hclosed : p.text = [] ∨ p.text.getLast? = some '/'
  · rw [if_pos hclosed]
    obtain ⟨t, ht⟩ := List.getLast?_eq_some_iff.mp (hclosed.resolve_left hp)
    exact ⟨t, by rw [ht, List.append_assoc, List.singleton_append]⟩
  · rw [if_neg hclosed]
    exact ⟨p.text, rfl⟩

/-- Behind a path stand a `/` at most and the name. -/
theorem mem_text_join {p : Path} {n : Name} {c : Char} (hc : c ∈ (p.join n).text) :
    c ∈ p.text ∨ c = '/' ∨ c ∈ n := by
  unfold join at hc
  split at hc
  · exact .inr (.inr hc)
  · split at hc
    · rcases List.mem_append.mp hc with hp | hn
      · exact .inl hp
      · exact .inr (.inr hn)
    · rcases List.mem_append.mp hc with hp | hrest
      · exact .inl hp
      · exact .inr (List.mem_cons.mp hrest)

/-- Bytes are counted text by text. -/
theorem byteCount_append (s t : Text) :
    Text.byteCount (s ++ t) = Text.byteCount s + Text.byteCount t := by
  induction s with
  | nil => simp [Text.byteCount]
  | cons c rest ih => simp only [List.cons_append, Text.byteCount, ih, Nat.add_assoc]

/-- A name behind a path adds its bytes and a `/` at most. -/
theorem byteCount_join_le (p : Path) (n : Name) :
    Text.byteCount (p.join n).text ≤ Text.byteCount p.text + (Text.byteCount n + 1) := by
  have hslash : Text.byteCount ('/' :: n) = Text.byteCount n + 1 := by
    rw [Text.byteCount, Nat.add_comm]
    rfl
  unfold join
  split
  · dsimp only
    omega
  · split
    · rw [byteCount_append]
      omega
    · rw [byteCount_append, hslash]

/-- An opening is one component at most. -/
theorem length_opening_le (p : Path) : p.opening.length ≤ 1 := by
  unfold opening
  split <;> simp

/-- What follows a `/` does not change how a path begins. -/
theorem opening_append_slash {t : Text} (ht : t ≠ []) (s : Text) :
    opening ⟨t ++ '/' :: s⟩ = opening ⟨t⟩ := by
  rcases t with _ | ⟨c, _ | ⟨d, rest⟩⟩
  · exact absurd rfl ht
  · by_cases hroot : c = '/'
    · simp [opening, hroot]
    · by_cases hhere : c = '.'
      · simp [opening, hhere]
      · simp [opening, hroot, hhere]
  · by_cases hroot : c = '/'
    · simp [opening, hroot]
    · by_cases hhere : c = '.' ∧ d = '/'
      · simp [opening, hhere]
      · have hnone : ∀ u, opening ⟨c :: d :: u⟩ = [] := by
          intro u
          unfold opening
          split <;> simp_all
        exact (hnone _).trans (hnone _).symm

/-- **The pieces after a `/`** add their components. -/
theorem components_append_slash {t : Text} (ht : t ≠ []) (s : Text) :
    components ⟨t ++ '/' :: s⟩ = components ⟨t⟩ ++
      ((Text.splitOn '/' s).filter fun piece => !isIdle piece).map Component.ofPiece := by
  have hlength : (opening ⟨t⟩).length ≤ t.length :=
    Nat.le_trans (length_opening_le ⟨t⟩) (List.length_pos_iff.mpr ht)
  rw [components, components, pieces, pieces, opening_append_slash ht,
    List.drop_append_of_le_length hlength, Text.splitOn_append, List.filter_append,
    List.map_append, List.append_assoc]

/-- **The components of a path with a proper name behind it.** -/
theorem components_join {p : Path} {n : Name} (hp : p.text ≠ []) (hn : ProperName n) :
    (p.join n).components = p.components ++ [.name n] := by
  obtain ⟨hne, hhere, hup, hslash⟩ := hn
  have hname : ((Text.splitOn '/' n).filter fun piece => !isIdle piece).map Component.ofPiece =
      [.name n] := by
    rw [Text.splitOn_of_not_mem hslash]
    simp [isIdle, Component.ofPiece, hne, hhere, hup]
  have hhead : n.head? ≠ some '/' := fun h => hslash (List.mem_of_mem_head? h)
  unfold join
  rw [if_neg hhead]
  by_cases hclosed : p.text = [] ∨ p.text.getLast? = some '/'
  · obtain ⟨t, ht⟩ := List.getLast?_eq_some_iff.mp (hclosed.resolve_left hp)
    obtain ⟨text⟩ := p
    subst ht
    rw [if_pos hclosed, List.append_assoc, List.singleton_append]
    by_cases hroot : t = []
    · -- In front of the name is only the root.
      subst hroot
      have hopening : opening ⟨'/' :: n⟩ = [.root] := rfl
      rw [List.nil_append, List.nil_append, components, pieces, hopening]
      exact congrArg _ hname
    · rw [components_append_slash hroot, components_append_slash hroot, hname]
      simp [Text.splitOn, isIdle]
  · rw [if_neg hclosed, components_append_slash hp, hname]

/-- **The base name of a path with a proper name behind it** is that name. -/
theorem baseName_join {p : Path} {n : Name} (hp : p.text ≠ []) (hn : ProperName n) :
    (p.join n).baseName = n := by
  rw [baseName, fileName, components_join hp hn, List.getLast?_append_of_ne_nil _ (by simp)]
  rfl

end Path

namespace FileSystem

variable {fs : FileSystem}

/-- A path leads where it leads also without the `/` that closes it. -/
theorem followLinks_openSteps {links : Nat} {l r : Location} {p : Path}
    (hok : fs.followLinks .target links l p.steps = .ok r) :
    fs.followLinks .target links l p.openSteps = .ok r := by
  rcases p.steps_cases with hsteps | hsteps
  · rwa [hsteps] at hok
  · rw [hsteps] at hok
    exact followLinks_unclosed hok

/-- **Where a path with a name behind it leads**, if it can be followed. -/
theorem locate_join {p : Path} {n : Name} {l r : Location} {entry : Entry}
    (hlookup : fs.lookup .target p = .ok (l, .directory)) (hn : ProperName n)
    (hentry : fs.find? (l ++ [n]) = some entry) (hplain : ∀ target, entry ≠ .link target)
    (hjoin : fs.locate .target (p.join n) = .ok r) : r = l ++ [n] := by
  obtain ⟨hlocate, hdir⟩ := lookup_eq_ok_iff.mp hlookup
  obtain ⟨_, hp, _, hfollow⟩ := locate_eq_ok_iff.mp hlocate
  obtain ⟨_, _, _, hjoined⟩ := locate_eq_ok_iff.mp hjoin
  obtain ⟨hsteps, habsolute⟩ := Path.steps_join hp hn
  obtain ⟨left, _, hrest⟩ := followLinks_rest hdir (followLinks_openSteps hfollow) [.name n]
  rw [hsteps, habsolute, hrest] at hjoined
  cases left with
  | zero => exact follow_name_eq hentry hplain hjoined
  | succ left => exact follow_name_eq hentry hplain hjoined

/-- **A name behind a path is followed from where the path leads**, with the links
that the path has left. -/
theorem locate_join_eq {p : Path} {n : Name} {l : Location}
    (hlookup : fs.lookup .target p = .ok (l, .directory)) (hn : ProperName n)
    (hzero : '\x00' ∉ n) (hshort : Text.byteCount (p.join n).text < pathLimit) :
    ∃ left ≤ linkLimit,
      fs.locate .target (p.join n) = fs.followLinks .target left l [.name n] := by
  obtain ⟨hlocate, hdir⟩ := lookup_eq_ok_iff.mp hlookup
  obtain ⟨hpzero, hp, _, hfollow⟩ := locate_eq_ok_iff.mp hlocate
  obtain ⟨hsteps, habsolute⟩ := Path.steps_join hp hn
  obtain ⟨left, hleft, hrest⟩ := followLinks_rest hdir (followLinks_openSteps hfollow) [.name n]
  refine ⟨left, hleft, ?_⟩
  have hzeros : '\x00' ∉ (p.join n).text := by
    intro hmem
    rcases Path.mem_text_join hmem with hmem | hslash | hmem
    · exact hpzero hmem
    · exact absurd hslash (by decide)
    · exact hzero hmem
  have hempty : (p.join n).text ≠ [] := by
    obtain ⟨t, ht⟩ := Path.text_join hp hn
    rw [ht]
    simp
  rw [locate, if_neg hzeros, if_neg hempty, if_neg (Nat.not_le.mpr hshort), hsteps, habsolute]
  exact hrest

/-! ## Listings -/

/-- The name of an entry in a directory is the last one of its location. -/
theorem nameIn?_eq_some_iff {l k : Location} {n : Name} : nameIn? l k = some n ↔ k = l ++ [n] := by
  unfold nameIn?
  constructor
  · intro hname
    split at hname
    · next last hlast =>
      split at hname
      · next hinit =>
        cases hname
        obtain ⟨init, rfl⟩ := List.getLast?_eq_some_iff.mp hlast
        rw [List.dropLast_concat] at hinit
        rw [hinit]
      · cases hname
    · cases hname
  · rintro rfl
    simp

/-- A row of the table is what is found at its location. -/
theorem find?_of_mem {l : Location} {entry : Entry} (hrow : (l, entry) ∈ fs.entries)
    (hne : l ≠ []) : fs.find? l = some entry := by
  rw [find?, if_neg hne]
  cases hfound : fs.entries.find? fun row => row.1 = l with
  | none =>
      have hother := List.find?_eq_none.mp hfound _ hrow
      simp at hother
  | some row =>
      have hkey : row.1 = l := by simpa using List.find?_some hfound
      have hmem := List.mem_of_find?_eq_some hfound
      have hsame : row = (l, entry) := List.inj_on_of_nodup_map fs.distinct hmem hrow hkey
      rw [hsame, Option.map_some]

/-- The children of a directory are the entries one name below it. -/
theorem mem_children_iff {l : Location} {n : Name} {kind : Kind} :
    (n, kind) ∈ fs.children l ↔ ∃ entry, (l ++ [n], entry) ∈ fs.entries ∧ entry.kind = kind := by
  rw [children, List.mem_mergeSort, List.mem_filterMap]
  constructor
  · rintro ⟨row, hrow, hname⟩
    obtain ⟨m, hm, hpair⟩ := Option.map_eq_some_iff.mp hname
    obtain ⟨rfl, rfl⟩ := Prod.mk.inj hpair
    refine ⟨row.2, ?_, rfl⟩
    rwa [← nameIn?_eq_some_iff.mp hm]
  · rintro ⟨entry, hrow, rfl⟩
    exact ⟨_, hrow, by rw [nameIn?_eq_some_iff.mpr rfl, Option.map_some]⟩

/-- **Every name of a listing is that of an entry.** -/
theorem find?_of_mem_children {l : Location} {n : Name} {kind : Kind}
    (hchild : (n, kind) ∈ fs.children l) :
    ∃ entry, fs.find? (l ++ [n]) = some entry ∧ entry.kind = kind := by
  obtain ⟨entry, hrow, hkind⟩ := mem_children_iff.mp hchild
  exact ⟨entry, find?_of_mem hrow (by simp), hkind⟩

/-- In a file system with proper names, all names of a listing are proper. -/
theorem WellNamed.properName (hnamed : fs.WellNamed) {l : Location} {n : Name} {kind : Kind}
    (hchild : (n, kind) ∈ fs.children l) : ProperName n := by
  obtain ⟨entry, hrow, _⟩ := mem_children_iff.mp hchild
  exact hnamed _ hrow n (by simp)

/-- No name is listed twice. -/
theorem nodup_children (fs : FileSystem) (l : Location) : ((fs.children l).map (·.1)).Nodup := by
  have hfound : ((fs.entries.filterMap fun row =>
      (nameIn? l row.1).map fun n => (n, row.2.kind)).map (·.1)).Nodup := by
    rw [List.Nodup, List.pairwise_map, List.pairwise_filterMap]
    refine (List.pairwise_map.mp fs.distinct).imp fun {a b} hne c hc d hd hsame => hne ?_
    obtain ⟨n, hn, rfl⟩ := Option.map_eq_some_iff.mp hc
    obtain ⟨m, hm, rfl⟩ := Option.map_eq_some_iff.mp hd
    rw [nameIn?_eq_some_iff.mp hn, nameIn?_eq_some_iff.mp hm]
    exact congrArg (fun n => l ++ [n]) hsame
  exact ((List.mergeSort_perm _ _).map _).nodup_iff.mpr hfound

/-! ## The size of a subtree -/

/-- The number of entries below a location. -/
def below (fs : FileSystem) (l : Location) : Nat :=
  fs.entries.countP fun row => l <+: row.1 ∧ row.1 ≠ l

/-- No directory has more entries below it than the file system has. -/
theorem below_le_size (fs : FileSystem) (l : Location) : fs.below l ≤ fs.size :=
  List.countP_le_length

/-- Of the entries of a directory, at most one is on the way to a location, and
only to one below the directory. -/
theorem countP_toward_le {names : List Name} (hdistinct : names.Nodup) (l k : Location) :
    (names.countP fun n => l ++ [n] <+: k) ≤ if l <+: k ∧ k ≠ l then 1 else 0 := by
  by_cases htoward : ∃ n ∈ names, l ++ [n] <+: k
  · obtain ⟨n, hn, t, ht⟩ := htoward
    have hbelow : l <+: k ∧ k ≠ l := by
      refine ⟨⟨[n] ++ t, by rw [← List.append_assoc, ht]⟩, ?_⟩
      rintro rfl
      have hlength := congrArg List.length ht
      simp at hlength
    rw [if_pos hbelow]
    calc (names.countP fun m => l ++ [m] <+: k)
        ≤ names.countP (· == n) := by
          refine List.countP_mono_left fun m _ hm => ?_
          obtain ⟨s, hs⟩ := of_decide_eq_true hm
          rw [← ht, List.append_assoc, List.append_assoc, List.append_cancel_left_eq] at hs
          exact beq_iff_eq.mpr (List.cons.inj hs).1
      _ ≤ 1 := List.nodup_iff_count_le_one.mp hdistinct n
  · have hnone : (names.countP fun n => l ++ [n] <+: k) = 0 := by
      refine List.countP_eq_zero.mpr fun n hn => ?_
      simpa using fun h => htoward ⟨n, hn, h⟩
    rw [hnone]
    exact Nat.zero_le _

/-- Counting an entry in the child that holds it counts it once. -/
theorem sum_countP_cons {names : List Name} (f : Name → Nat) (p : Name → Bool) :
    (names.map fun n => f n + if p n then 1 else 0).sum = (names.map f).sum + names.countP p := by
  induction names with
  | nil => rfl
  | cons n rest ih =>
      rw [List.map_cons, List.sum_cons, ih, List.map_cons, List.sum_cons, List.countP_cons]
      omega

/-- The trees that begin with different names in a directory are disjoint. -/
theorem sum_countP_le {names : List Name} (hdistinct : names.Nodup) (l : Location)
    (rows : List (Location × Entry)) :
    (names.map fun n => rows.countP fun row => l ++ [n] <+: row.1).sum ≤
      rows.countP fun row => l <+: row.1 ∧ row.1 ≠ l := by
  induction rows with
  | nil => simp
  | cons row rest ih =>
      have hrow := countP_toward_le hdistinct l row.1
      simp only [List.countP_cons, sum_countP_cons]
      simp only [decide_eq_true_eq]
      omega

/-- An entry does not count among those below it. -/
theorem below_lt_of_mem {l : Location} {entry : Entry} (hrow : (l, entry) ∈ fs.entries) :
    fs.below l < fs.entries.countP fun row => l <+: row.1 := by
  obtain ⟨s, t, hsplit⟩ := List.append_of_mem hrow
  have hmono : ∀ rows : List (Location × Entry),
      (rows.countP fun row => l <+: row.1 ∧ row.1 ≠ l) ≤ rows.countP fun row => l <+: row.1 := by
    intro rows
    refine List.countP_mono_left fun row _ hbelow => ?_
    exact decide_eq_true (of_decide_eq_true hbelow).1
  have hs := hmono s
  have ht := hmono t
  rw [below, hsplit, List.countP_append, List.countP_append, List.countP_cons, List.countP_cons]
  have hself : decide (l <+: l ∧ l ≠ l) = false := by simp
  have hprefix : decide (l <+: l) = true := by simp
  rw [if_neg (by rw [hself]; exact Bool.false_ne_true), if_pos hprefix]
  omega

/-- **The trees below the entries of a directory** have, together with these
entries, no more entries than the tree below the directory. -/
theorem sum_below_children_le (fs : FileSystem) (l : Location) :
    ((fs.children l).map fun child => fs.below (l ++ [child.1]) + 1).sum ≤ fs.below l := by
  calc ((fs.children l).map fun child => fs.below (l ++ [child.1]) + 1).sum
      ≤ ((fs.children l).map fun child =>
          fs.entries.countP fun row => l ++ [child.1] <+: row.1).sum := by
        refine List.sum_le_sum fun child hchild => ?_
        obtain ⟨entry, hrow, _⟩ := mem_children_iff.mp hchild
        exact below_lt_of_mem hrow
    _ = (((fs.children l).map (·.1)).map fun n =>
          fs.entries.countP fun row => l ++ [n] <+: row.1).sum := by
        rw [List.map_map]
        rfl
    _ ≤ fs.below l := sum_countP_le (nodup_children fs l) l fs.entries

end FileSystem

end LicenseHeaders

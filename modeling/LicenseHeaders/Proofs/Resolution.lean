import LicenseHeaders.Proofs.Outline

/-!
# Following paths

What one step of a path can do is said once, in `follow_cons_ok`.  From this
follows how two ways of following a path compare: where the first has arrived at
an entry, the second arrives there as well and can go on (`follow_append`).

* `locate_creation_of_file` — a path that leads to a file leads there also when
  the file is to be written: the closing `/`, the one thing the two ways treat
  differently, never leads to a file;
* `followLinks_rest` — a path that goes on behind an entry does what it would do
  if it began there, with the links that are left;
* `followLinks_more` — with more links a path that does not run out of them does
  the same;
* `followLinks_unclosed` — a closing `/` takes a path nowhere else.
-/

namespace LicenseHeaders.FileSystem

variable {fs : FileSystem} {access : Access}
variable {onLink onLink' : Location → Path → List PathStep → Except Cause Location}

/-! ## One step -/

@[simp] theorem permits_close (fs : FileSystem) (l : Location) : fs.permits l .close = true := by
  simp [permits]

/-- In a directory that can be searched every step can be taken. -/
theorem permits_of_grants {l : Location} (hgrants : fs.grants .searching l = true)
    (step : PathStep) : fs.permits l step = true := by
  simp [permits, hgrants]

/-- A step on the spot stays, if the directory may be searched. -/
theorem follow_here {l : Location} {rest : List PathStep} (hdir : fs.find? l = some .directory)
    (hpermits : fs.permits l .here = true) :
    fs.follow access onLink l (.here :: rest) = fs.follow access onLink l rest := by
  simp only [follow, hdir, hpermits, if_true]

/-- To ask for a directory is to stay in it. -/
theorem follow_close {l : Location} {rest : List PathStep} (hdir : fs.find? l = some .directory) :
    fs.follow access onLink l (.close :: rest) = fs.follow access onLink l rest := by
  simp only [follow, hdir, permits_close, if_true]

/-- A step up goes to the directory above, if this one may be searched. -/
theorem follow_up {l : Location} {rest : List PathStep} (hdir : fs.find? l = some .directory)
    (hpermits : fs.permits l .up = true) :
    fs.follow access onLink l (.up :: rest) = fs.follow access onLink l.dropLast rest := by
  simp only [follow, hdir, hpermits, if_true]

/-- A name that is no link is gone to. -/
theorem follow_name {l : Location} {n : Name} {entry : Entry} {rest : List PathStep}
    (hdir : fs.find? l = some .directory) (hpermits : fs.permits l (.name n) = true)
    (hclosed : ¬ (access = .creation ∧ rest = [.close])) (hlength : n.byteCount ≤ nameLimit)
    (hentry : fs.find? (l ++ [n]) = some entry) (hplain : ∀ target, entry ≠ .link target) :
    fs.follow access onLink l (.name n :: rest) = fs.follow access onLink (l ++ [n]) rest := by
  simp only [follow, hdir, hpermits, if_true, if_neg hclosed, if_neg (Nat.not_lt.mpr hlength),
    hentry]
  cases entry with
  | file => rfl
  | directory => rfl
  | link target => exact absurd rfl (hplain target)

/-- A link is handed over, unless it is the entry that is asked for. -/
theorem follow_link {l : Location} {n : Name} {target : Path} {rest : List PathStep}
    (hdir : fs.find? l = some .directory) (hpermits : fs.permits l (.name n) = true)
    (hclosed : ¬ (access = .creation ∧ rest = [.close])) (hlength : n.byteCount ≤ nameLimit)
    (hentry : fs.find? (l ++ [n]) = some (.link target))
    (hasked : ¬ (rest = [] ∧ access = .entry)) :
    fs.follow access onLink l (.name n :: rest) = onLink l target rest := by
  simp only [follow, hdir, hpermits, if_true, if_neg hclosed, if_neg (Nat.not_lt.mpr hlength),
    hentry, if_neg hasked]

/-- A step that the directory does not permit is refused. -/
theorem follow_denied {l : Location} {step : PathStep} {rest : List PathStep}
    (hdir : fs.find? l = some .directory) (hdenied : fs.permits l step ≠ true) :
    fs.follow access onLink l (step :: rest) = .error .accessDenied := by
  simp only [follow, hdir, if_neg hdenied]

/-- **All that a step can do** on the way to a location. -/
theorem follow_cons_ok {l r : Location} {step : PathStep} {rest : List PathStep}
    (hok : fs.follow access onLink l (step :: rest) = .ok r) :
    fs.find? l = some .directory ∧ fs.permits l step = true ∧
      ((step = .here ∨ step = .close) ∧ fs.follow access onLink l rest = .ok r ∨
        step = .up ∧ fs.follow access onLink l.dropLast rest = .ok r ∨
        ∃ n, step = .name n ∧ n.byteCount ≤ nameLimit ∧
          (fs.find? (l ++ [n]) = none ∧ rest = [] ∧ r = l ++ [n] ∨
            (∃ target, fs.find? (l ++ [n]) = some (.link target) ∧
              (rest = [] ∧ access = .entry ∧ r = l ++ [n] ∨
                ¬ (rest = [] ∧ access = .entry) ∧ onLink l target rest = .ok r)) ∨
            ∃ entry, fs.find? (l ++ [n]) = some entry ∧ (∀ target, entry ≠ .link target) ∧
              fs.follow access onLink (l ++ [n]) rest = .ok r)) := by
  simp only [follow] at hok
  cases hdir : fs.find? l with
  | none => simp [hdir] at hok
  | some entry =>
      cases entry with
      | file => simp [hdir] at hok
      | link => simp [hdir] at hok
      | directory =>
          simp only [hdir] at hok
          split at hok
          case isFalse => cases hok
          case isTrue hpermits =>
          refine ⟨rfl, hpermits, ?_⟩
          cases step with
          | here => exact .inl ⟨.inl rfl, hok⟩
          | close => exact .inl ⟨.inr rfl, hok⟩
          | up => exact .inr (.inl ⟨rfl, hok⟩)
          | name n =>
              refine .inr (.inr ⟨n, rfl, ?_⟩)
              simp only at hok
              split at hok
              · cases hok
              · split at hok
                · cases hok
                · next hlength =>
                  refine ⟨Nat.not_lt.mp hlength, ?_⟩
                  cases hentry : fs.find? (l ++ [n]) with
                  | none =>
                      simp only [hentry] at hok
                      split at hok
                      · next hrest => exact .inl ⟨rfl, hrest, (Except.ok.inj hok).symm⟩
                      · cases hok
                  | some entry =>
                      refine .inr ?_
                      cases entry with
                      | file content =>
                          simp only [hentry] at hok
                          exact .inr ⟨_, rfl, fun _ => Entry.noConfusion, hok⟩
                      | directory =>
                          simp only [hentry] at hok
                          exact .inr ⟨_, rfl, fun _ => Entry.noConfusion, hok⟩
                      | link target =>
                          simp only [hentry] at hok
                          refine .inl ⟨target, rfl, ?_⟩
                          split at hok
                          · next hasked =>
                            exact .inl ⟨hasked.1, hasked.2, (Except.ok.inj hok).symm⟩
                          · next hasked => exact .inr ⟨hasked, hok⟩

/-- A name that is no link leads to the entry of that name, if anywhere. -/
theorem follow_name_eq {l r : Location} {n : Name} {entry : Entry}
    (hentry : fs.find? (l ++ [n]) = some entry) (hplain : ∀ target, entry ≠ .link target)
    (hok : fs.follow access onLink l [.name n] = .ok r) : r = l ++ [n] := by
  obtain ⟨_, _, ⟨hstay, _⟩ | ⟨hup, _⟩ | ⟨m, hname, _, hcase⟩⟩ := follow_cons_ok hok
  · rcases hstay with hstay | hstay
    · cases hstay
    · cases hstay
  · cases hup
  · cases hname
    rcases hcase with ⟨_, _, hr⟩ | ⟨target, hlink, _⟩ | ⟨_, _, _, hrest⟩
    · exact hr
    · exact absurd (Option.some.inj (hentry.symm.trans hlink)) (hplain target)
    · exact (Except.ok.inj hrest).symm

/-! ## The closing slash -/

/-- A path that closes with `/` leads to a directory, if all links on the way
do so as well. -/
theorem follow_closed {l r : Location} {steps : List PathStep}
    (hlink : ∀ l target rest, rest.getLast? = some .close → onLink l target rest = .ok r →
      fs.find? r = some .directory)
    (hclose : steps.getLast? = some .close)
    (hok : fs.follow access onLink l steps = .ok r) : fs.find? r = some .directory := by
  induction steps generalizing l with
  | nil => simp at hclose
  | cons step rest ih =>
      have hlast : rest ≠ [] → rest.getLast? = some .close := by
        intro hne
        rwa [List.getLast?_cons_of_ne_nil hne] at hclose
      obtain ⟨hdir, _, ⟨_, hrest⟩ | ⟨hup, hrest⟩ | ⟨n, hname, _, hcase⟩⟩ := follow_cons_ok hok
      · by_cases hne : rest = []
        · subst hne
          cases hrest
          exact hdir
        · exact ih (hlast hne) hrest
      · have hne : rest ≠ [] := by
          rintro rfl
          simp [hup] at hclose
        exact ih (hlast hne) hrest
      · have hne : rest ≠ [] := by
          rintro rfl
          simp [hname] at hclose
        rcases hcase with ⟨_, hnil, _⟩ | ⟨target, _, ⟨hnil, _⟩ | ⟨_, hlinked⟩⟩ | ⟨_, _, _, hrest⟩
        · exact absurd hnil hne
        · exact absurd hnil hne
        · exact hlink l target rest (hlast hne) hlinked
        · exact ih (hlast hne) hrest

/-- A path that asks for a directory leads to one. -/
theorem followLinks_closed {links : Nat} {l r : Location} {steps : List PathStep}
    (hclose : steps.getLast? = some .close)
    (hok : fs.followLinks access links l steps = .ok r) : fs.find? r = some .directory := by
  induction links generalizing l steps with
  | zero => exact follow_closed (fun _ _ _ _ hlinked => by cases hlinked) hclose hok
  | succ links ih =>
      refine follow_closed (fun l target rest hlast hlinked => ?_) hclose hok
      refine ih ?_ hlinked
      rw [List.getLast?_append, hlast]
      rfl

/-! ## Following further -/

/-- **A path goes on from where it has arrived.**  Where steps lead to an entry,
the same steps followed in another way, with more steps behind them, have an
answer that the further steps have behind the entry, or the other way at a link. -/
theorem follow_append {l r : Location} {steps tail : List PathStep} {entry : Entry}
    {P : Except Cause Location → Prop} (hentry : fs.find? r = some entry)
    (haccess : access ≠ .entry) (htail : P (fs.follow access onLink' r tail))
    (hopen : ∀ l step rest, fs.follow .target onLink l (step :: rest) = .ok r →
      ¬ (access = .creation ∧ rest ++ tail = [.close]))
    (hlink : ∀ l target rest, onLink l target rest = .ok r →
      P (onLink' l target (rest ++ tail)))
    (hok : fs.follow .target onLink l steps = .ok r) :
    P (fs.follow access onLink' l (steps ++ tail)) := by
  induction steps generalizing l with
  | nil =>
      cases hok
      exact htail
  | cons step rest ih =>
      have hclosed := hopen l step rest hok
      rw [List.cons_append]
      obtain ⟨hdir, hpermits, ⟨hstay, hrest⟩ | ⟨hup, hrest⟩ | ⟨n, hname, hlength, hcase⟩⟩ :=
        follow_cons_ok hok
      · rcases hstay with hstay | hstay
        · rw [hstay, follow_here hdir (hstay ▸ hpermits)]
          exact ih hrest
        · rw [hstay, follow_close hdir]
          exact ih hrest
      · rw [hup, follow_up hdir (hup ▸ hpermits)]
        exact ih hrest
      · subst hname
        rcases hcase with ⟨hnone, _, hr⟩ | ⟨target, hfound, ⟨_, hasked, _⟩ | ⟨_, hlinked⟩⟩ |
          ⟨other, hfound, hplain, hrest⟩
        · rw [hr, hnone] at hentry
          cases hentry
        · cases hasked
        · rw [follow_link hdir hpermits hclosed hlength hfound (fun h => haccess h.2)]
          exact hlink l target rest hlinked
        · rw [follow_name hdir hpermits hclosed hlength hfound hplain]
          exact ih hrest

/-! ## Writing where one can read -/

/-- On the way to a file, following a path and following it in order to create
its last name agree. -/
theorem followLinks_creation_of_file {links : Nat} {l r : Location} {steps : List PathStep}
    {content : Content} (hfile : fs.find? r = some (.file content))
    (hok : fs.followLinks .target links l steps = .ok r) :
    fs.followLinks .creation links l steps = .ok r := by
  -- A step before the closing `/` would have led to a directory.
  have hopen : ∀ onLink : Location → Path → List PathStep → Except Cause Location,
      (∀ l target rest, rest.getLast? = some .close → onLink l target rest ≠ .ok r) →
      ∀ l step rest, fs.follow .target onLink l (step :: rest) = .ok r →
        ¬ (Access.creation = .creation ∧ rest ++ [] = [.close]) := by
    rintro onLink hclosed l step rest hok ⟨_, hrest⟩
    rw [List.append_nil] at hrest
    have hend : (step :: rest).getLast? = some .close := by rw [hrest]; rfl
    have hdirectory := follow_closed
      (fun l target rest hlast hlinked => absurd hlinked (hclosed l target rest hlast)) hend hok
    rw [hfile] at hdirectory
    cases hdirectory
  rw [← List.append_nil steps]
  induction links generalizing l steps with
  | zero =>
      refine follow_append (P := (· = .ok r)) hfile Access.noConfusion rfl (hopen _ ?_) ?_ hok
      · intro l target rest _ hlinked
        cases hlinked
      · intro l target rest hlinked
        cases hlinked
  | succ links ih =>
      refine follow_append (P := (· = .ok r)) hfile Access.noConfusion rfl (hopen _ ?_) ?_ hok
      · intro l target rest hlast hlinked
        have hend : (target.steps ++ rest).getLast? = some .close := by
          rw [List.getLast?_append, hlast]
          rfl
        have hdirectory := followLinks_closed hend hlinked
        rw [hfile] at hdirectory
        cases hdirectory
      · intro l target rest hlinked
        rw [← List.append_assoc]
        exact ih hlinked

/-- A path that is followed to its end is short enough, not empty and without
zeros. -/
theorem locate_eq_ok_iff {p : Path} {l : Location} :
    fs.locate access p = .ok l ↔
      '\x00' ∉ p.text ∧ p.text ≠ [] ∧ Text.byteCount p.text < pathLimit ∧
        fs.followLinks access linkLimit (if p.isAbsolute then [] else fs.current) p.steps =
          .ok l := by
  unfold locate
  by_cases hzero : '\x00' ∈ p.text
  · simp [hzero]
  · by_cases hempty : p.text = []
    · simp [hempty]
    · by_cases hlong : Text.byteCount p.text ≥ pathLimit
      · simp [hzero, hempty, hlong, Nat.not_lt.mpr hlong]
      · simp [hzero, hempty, hlong, Nat.not_le.mp hlong]

/-- **A file is written where it is read.** -/
theorem locate_creation_of_file {p : Path} {l : Location} {content : Content}
    (hfile : fs.find? l = some (.file content)) (hok : fs.locate .target p = .ok l) :
    fs.locate .creation p = .ok l := by
  obtain ⟨hzero, hempty, hshort, hfollow⟩ := locate_eq_ok_iff.mp hok
  have hcreation := followLinks_creation_of_file hfile hfollow
  exact locate_eq_ok_iff.mpr ⟨hzero, hempty, hshort, hcreation⟩

/-- Steps that lead somewhere in order to create the last name lead there also
otherwise. -/
theorem follow_target_of_creation {l r : Location} {steps : List PathStep}
    (hlink : ∀ l target rest, onLink l target rest = .ok r → onLink' l target rest = .ok r)
    (hok : fs.follow .creation onLink l steps = .ok r) :
    fs.follow .target onLink' l steps = .ok r := by
  induction steps generalizing l with
  | nil => exact hok
  | cons step rest ih =>
      have hopen : ¬ (Access.target = .creation ∧ rest = [.close]) :=
        fun hclosed => Access.noConfusion hclosed.1
      obtain ⟨hdir, hpermits, ⟨rfl | rfl, hrest⟩ | ⟨rfl, hrest⟩ | ⟨n, rfl, hlength, hcase⟩⟩ :=
        follow_cons_ok hok
      · rw [follow_here hdir hpermits]
        exact ih hrest
      · rw [follow_close hdir]
        exact ih hrest
      · rw [follow_up hdir hpermits]
        exact ih hrest
      · rcases hcase with ⟨hnone, rfl, rfl⟩ | ⟨target, hentry, ⟨_, hasked, _⟩ | ⟨_, hlinked⟩⟩ |
          ⟨entry, hentry, hplain, hrest⟩
        · simp [follow, hdir, hpermits, Nat.not_lt.mpr hlength, hnone]
        · cases hasked
        · rw [follow_link hdir hpermits hopen hlength hentry fun hlast => Access.noConfusion hlast.2]
          exact hlink l target rest hlinked
        · rw [follow_name hdir hpermits hopen hlength hentry hplain]
          exact ih hrest

/-- **A file is read where it is written.** -/
theorem locate_of_creation {p : Path} {l : Location} (hok : fs.locate .creation p = .ok l) :
    fs.locate .target p = .ok l := by
  have hfollow : ∀ {links : Nat} {k : Location} {steps : List PathStep},
      fs.followLinks .creation links k steps = .ok l →
        fs.followLinks .target links k steps = .ok l := by
    intro links
    induction links with
    | zero =>
        intro k steps hsteps
        rw [followLinks] at hsteps ⊢
        refine follow_target_of_creation (fun _ _ _ hlinked => ?_) hsteps
        cases hlinked
    | succ links ih =>
        intro k steps hsteps
        exact follow_target_of_creation (fun _ _ _ hlinked => ih hlinked) hsteps
  obtain ⟨hzero, hempty, hshort, hsteps⟩ := locate_eq_ok_iff.mp hok
  exact locate_eq_ok_iff.mpr ⟨hzero, hempty, hshort, hfollow hsteps⟩

/-! ## Going on behind an entry -/

/-- **The steps behind an entry do what they would do if the path began there**,
with the links that the way to the entry has left. -/
theorem followLinks_rest {links : Nat} {l r : Location} {steps : List PathStep} {entry : Entry}
    (hentry : fs.find? r = some entry) (hok : fs.followLinks .target links l steps = .ok r)
    (tail : List PathStep) :
    ∃ left ≤ links, fs.followLinks .target links l (steps ++ tail) =
      fs.followLinks .target left r tail := by
  have hopen : ∀ rest : List PathStep,
      ¬ (Access.target = .creation ∧ rest ++ tail = [.close]) := by simp
  induction links generalizing l steps with
  | zero =>
      refine follow_append (P := (∃ left ≤ 0, · = fs.followLinks .target left r tail))
        hentry Access.noConfusion ⟨0, Nat.le_refl _, rfl⟩ (fun _ _ rest _ => hopen rest) ?_ hok
      intro l target rest hlinked
      cases hlinked
  | succ links ih =>
      refine follow_append (P := (∃ left ≤ links + 1, · = fs.followLinks .target left r tail))
        hentry Access.noConfusion ⟨links + 1, Nat.le_refl _, rfl⟩
        (fun _ _ rest _ => hopen rest) ?_ hok
      intro l target rest hlinked
      rw [← List.append_assoc]
      obtain ⟨left, hleft, hrest⟩ := ih hlinked
      exact ⟨left, Nat.le_succ_of_le hleft, hrest⟩

/-! ## Links to spare -/

section

variable {l : Location} {rest : List PathStep}
  (hlink : ∀ l target rest, onLink l target rest ≠ .error .tooManyLinks →
    onLink' l target rest = onLink l target rest)

include hlink

/-- A name is followed alike with two ways at links, if what is behind it is and the
second way does the same where the first one does not run out of links. -/
theorem follow_more_name {n : Name} (hdir : fs.find? l = some .directory)
    (hpermits : fs.permits l (.name n) = true)
    (hrest : fs.follow access onLink (l ++ [n]) rest ≠ .error .tooManyLinks →
      fs.follow access onLink' (l ++ [n]) rest = fs.follow access onLink (l ++ [n]) rest)
    (henough : fs.follow access onLink l (.name n :: rest) ≠ .error .tooManyLinks) :
    fs.follow access onLink' l (.name n :: rest) = fs.follow access onLink l (.name n :: rest) := by
  by_cases hclosed : access = .creation ∧ rest = [.close]
  · simp only [follow, hdir, hpermits, if_true, if_pos hclosed]
  · by_cases hlong : n.byteCount > nameLimit
    · simp only [follow, hdir, hpermits, if_true, if_neg hclosed, if_pos hlong]
    · simp only [follow, hdir, hpermits, if_true, if_neg hclosed, if_neg hlong] at henough ⊢
      cases hfound : fs.find? (l ++ [n]) with
      | none => rfl
      | some entry =>
          rw [hfound] at henough
          cases entry with
          | file content => exact hrest henough
          | directory => exact hrest henough
          | link target =>
              by_cases hlast : rest = [] ∧ access = .entry
              · simp only [if_pos hlast]
              · simp only [if_neg hlast] at henough ⊢
                exact hlink l target rest henough

/-- Steps are followed alike with two ways at links, if the second way does the same
where the first one does not run out of links. -/
theorem follow_more {steps : List PathStep}
    (henough : fs.follow access onLink l steps ≠ .error .tooManyLinks) :
    fs.follow access onLink' l steps = fs.follow access onLink l steps := by
  induction steps generalizing l with
  | nil => rfl
  | cons step rest ih =>
      by_cases hdir : fs.find? l = some .directory
      · by_cases hpermits : fs.permits l step = true
        · cases step with
          | here =>
              rw [follow_here hdir hpermits] at henough
              rw [follow_here hdir hpermits, follow_here hdir hpermits]
              exact ih henough
          | close =>
              rw [follow_close hdir] at henough
              rw [follow_close hdir, follow_close hdir]
              exact ih henough
          | up =>
              rw [follow_up hdir hpermits] at henough
              rw [follow_up hdir hpermits, follow_up hdir hpermits]
              exact ih henough
          | name n => exact follow_more_name hlink hdir hpermits ih henough
        · rw [follow_denied hdir hpermits, follow_denied hdir hpermits]
      · -- Nothing is followed from here.
        unfold follow
        cases hfound : fs.find? l with
        | none => rfl
        | some entry =>
            cases entry with
            | file content => rfl
            | link target => rfl
            | directory => exact absurd hfound hdir

end

/-- **With more links a path does the same**, unless it had too few. -/
theorem followLinks_more {links more : Nat} {l : Location} {steps : List PathStep}
    (hmore : links ≤ more)
    (henough : fs.followLinks access links l steps ≠ .error .tooManyLinks) :
    fs.followLinks access more l steps = fs.followLinks access links l steps := by
  induction links generalizing more l steps with
  | zero =>
      have hnone : ∀ (l : Location) (target : Path) (rest : List PathStep)
          (answer : Except Cause Location),
          (.error .tooManyLinks : Except Cause Location) ≠ .error .tooManyLinks →
            answer = .error .tooManyLinks := fun _ _ _ _ hne => absurd rfl hne
      cases more with
      | zero => rfl
      | succ more => exact follow_more (fun l target rest => hnone l target rest _) henough
  | succ links ih =>
      obtain ⟨more, rfl⟩ : ∃ rest, more = rest + 1 := ⟨more - 1, by omega⟩
      exact follow_more (fun l target rest hne => ih (Nat.le_of_succ_le_succ hmore) hne) henough

/-- What is found with a directory asked for is found without asking. -/
theorem follow_unclosed {l r : Location} {steps : List PathStep}
    (hlink : ∀ l target rest, onLink l target (rest ++ [.close]) = .ok r →
      onLink l target rest = .ok r)
    (hok : fs.follow .target onLink l (steps ++ [.close]) = .ok r) :
    fs.follow .target onLink l steps = .ok r := by
  induction steps generalizing l with
  | nil =>
      rw [List.nil_append] at hok
      rwa [follow_close (follow_cons_ok hok).1] at hok
  | cons step rest ih =>
      have hopen : ¬ (Access.target = .creation ∧ rest = [.close]) := by simp
      rw [List.cons_append] at hok
      obtain ⟨hdir, hpermits, ⟨hstay, hrest⟩ | ⟨hup, hrest⟩ | ⟨n, hname, hlength, hcase⟩⟩ :=
        follow_cons_ok hok
      · rcases hstay with hstay | hstay
        · rw [hstay, follow_here hdir (hstay ▸ hpermits)]
          exact ih hrest
        · rw [hstay, follow_close hdir]
          exact ih hrest
      · rw [hup, follow_up hdir (hup ▸ hpermits)]
        exact ih hrest
      · subst hname
        rcases hcase with ⟨_, hnil, _⟩ | ⟨target, hfound, ⟨hnil, _⟩ | ⟨_, hlinked⟩⟩ |
          ⟨other, hfound, hplain, hrest⟩
        · simp at hnil
        · simp at hnil
        · rw [follow_link hdir hpermits hopen hlength hfound (fun h => Access.noConfusion h.2)]
          exact hlink l target rest hlinked
        · rw [follow_name hdir hpermits hopen hlength hfound hplain]
          exact ih hrest

/-- A closing `/` takes a path nowhere else. -/
theorem followLinks_unclosed {links : Nat} {l r : Location} {steps : List PathStep}
    (hok : fs.followLinks .target links l (steps ++ [.close]) = .ok r) :
    fs.followLinks .target links l steps = .ok r := by
  induction links generalizing l steps with
  | zero => exact follow_unclosed (fun _ _ _ hlinked => by cases hlinked) hok
  | succ links ih =>
      refine follow_unclosed (fun l target rest hlinked => ?_) hok
      rw [← List.append_assoc] at hlinked
      exact ih hlinked

end LicenseHeaders.FileSystem

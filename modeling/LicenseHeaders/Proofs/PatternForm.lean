import LicenseHeaders.Selection.Pattern
import Mathlib.Data.List.Basic

/-!
# Well-formed patterns

A text is a pattern when its brackets enclose something and its stars stand alone,
apart from a `**` that makes up a whole component of a path.  Whether a `**` begins a
component depends on the character in front of it, so being well formed is relative to
that character.  Reading goes from left to right and refuses exactly the other texts.

* `WellFormed` — the patterns, by how they begin;
* `reads_single`, `reads_star`, `reads_components`, `reads_class` — how reading goes on
  after each beginning;
* `WellFormed.reads`, `wellFormed_of_reads`, `exists_read_iff` — what can be read is what
  is well formed.
-/

namespace LicenseHeaders.Pattern

/-- What stands between the brackets of a class: one character or more, behind a `!`
if the class is negated.  Only the first of them can be a closing bracket. -/
inductive Enclosed : Text → Prop
  | oneOf {first : Char} {others : Text} (hfirst : first ≠ '!') (hothers : ']' ∉ others) :
      Enclosed (first :: others)
  | noneOf {first : Char} {others : Text} (hothers : ']' ∉ others) :
      Enclosed ('!' :: first :: others)

/-- The character in front lets a component begin here. -/
def BeginsComponent (before : Option Char) : Prop := before = none ∨ before = some '/'

instance (before : Option Char) : Decidable (BeginsComponent before) :=
  inferInstanceAs (Decidable (before = none ∨ before = some '/'))

/-- **The well-formed patterns** behind a character. -/
inductive WellFormed : Option Char → Text → Prop
  | done {before : Option Char} : WellFormed before []
  | single {before : Option Char} {c : Char} {rest : Text} (hstar : c ≠ '*') (hopen : c ≠ '[')
      (hrest : WellFormed (some c) rest) : WellFormed before (c :: rest)
  | star {before : Option Char} {rest : Text} (hone : rest.head? ≠ some '*')
      (hrest : WellFormed (some '*') rest) : WellFormed before ('*' :: rest)
  | lastComponents {before : Option Char} (hbegins : BeginsComponent before) :
      WellFormed before ['*', '*']
  | components {before : Option Char} {rest : Text} (hbegins : BeginsComponent before)
      (hrest : WellFormed (some '/') rest) : WellFormed before ('*' :: '*' :: '/' :: rest)
  | brackets {before : Option Char} {enclosed rest : Text} (henclosed : Enclosed enclosed)
      (hrest : WellFormed (some ']') rest) : WellFormed before ('[' :: (enclosed ++ ']' :: rest))

/-! ## Classes -/

/-- A class ends at the first closing bracket behind its first character. -/
theorem classBody?_eq_some_iff {t body : Text} :
    classBody? t = some body ↔
      ∃ first others rest, t = first :: (others ++ ']' :: rest) ∧ ']' ∉ others ∧
        body = first :: others := by
  have htake : ∀ {others : Text} (rest : Text), ']' ∉ others →
      (others ++ ']' :: rest).takeWhile (· ≠ ']') = others := by
    intro others rest hothers
    rw [List.takeWhile_append_of_pos]
    · simp
    · intro c hc
      simpa using fun e : c = ']' => hothers (e ▸ hc)
  constructor
  · intro hbody
    cases t with
    | nil => cases hbody
    | cons first t =>
        rw [classBody?] at hbody
        split at hbody
        · next hclosed =>
          obtain ⟨others, rest, rfl, hothers⟩ := List.eq_append_cons_of_mem hclosed
          rw [htake rest hothers] at hbody
          exact ⟨first, others, rest, rfl, hothers, (Option.some.inj hbody).symm⟩
        · cases hbody
  · rintro ⟨first, others, rest, rfl, hothers, rfl⟩
    rw [classBody?, if_pos (by simp), htake rest hothers]

/-- **The class after an opening bracket** is what stands enclosed up to a closing
bracket. -/
theorem exists_class?_iff {t : Text} {length : Nat} :
    (∃ part, class? t = some (part, length)) ↔
      ∃ enclosed rest, t = enclosed ++ ']' :: rest ∧ Enclosed enclosed ∧
        length = enclosed.length + 1 := by
  constructor
  · rintro ⟨part, hclass⟩
    unfold class? at hclass
    split at hclass
    · obtain ⟨body, hbody, heq⟩ := Option.map_eq_some_iff.mp hclass
      obtain ⟨first, others, rest, rfl, hothers, rfl⟩ := classBody?_eq_some_iff.mp hbody
      cases heq
      exact ⟨'!' :: first :: others, rest, rfl, .noneOf hothers, rfl⟩
    · next hpositive =>
      obtain ⟨body, hbody, heq⟩ := Option.map_eq_some_iff.mp hclass
      obtain ⟨first, others, rest, rfl, hothers, rfl⟩ := classBody?_eq_some_iff.mp hbody
      cases heq
      refine ⟨first :: others, rest, rfl, .oneOf ?_ hothers, rfl⟩
      rintro rfl
      exact hpositive _ rfl
  · rintro ⟨enclosed, rest, rfl, henclosed, rfl⟩
    cases henclosed with
    | @oneOf first others hfirst hothers =>
        have hbody : classBody? (first :: (others ++ ']' :: rest)) = some (first :: others) :=
          classBody?_eq_some_iff.mpr ⟨first, others, rest, rfl, hothers, rfl⟩
        refine ⟨.oneOf (spans (first :: others)), ?_⟩
        rw [List.cons_append, class?, hbody]
        · rfl
        · rintro t heq
          exact hfirst (List.cons.inj heq).1
    | @noneOf first others hothers =>
        have hbody : classBody? (first :: (others ++ ']' :: rest)) = some (first :: others) :=
          classBody?_eq_some_iff.mpr ⟨first, others, rest, rfl, hothers, rfl⟩
        refine ⟨.noneOf (spans (first :: others)), ?_⟩
        rw [List.cons_append, List.cons_append, class?, hbody]
        rfl

/-! ## Reading -/

/-- The text behind a character can be read. -/
def Reads (position : Nat) (before : Option Char) (t : Text) : Prop :=
  ∃ parts, partsFrom position before 0 t = .ok parts

variable {position : Nat} {before : Option Char} {c : Char} {rest : Text}

/-- A part in front does not matter for whether the rest can be read. -/
theorem exists_ok_cons {x : Except Fault (List Part)} (part : Part) :
    (∃ parts, (do return part :: (← x) : Except Fault (List Part)) = .ok parts) ↔
      ∃ parts, x = .ok parts := by
  cases x with
  | ok parts => exact ⟨fun _ => ⟨parts, rfl⟩, fun _ => ⟨part :: parts, rfl⟩⟩
  | error fault => exact ⟨nofun, nofun⟩

/-- Characters of a part that has been read are passed over. -/
theorem partsFrom_skip (skipped : Text) (c : Char) (rest : Text) (position : Nat)
    (before : Option Char) :
    partsFrom position before (skipped.length + 1) (skipped ++ c :: rest) =
      partsFrom (position + (skipped.length + 1)) (some c) 0 rest := by
  induction skipped generalizing position before with
  | nil => rfl
  | cons d skipped ih =>
      rw [List.cons_append, List.length_cons, partsFrom, ih, Nat.add_right_comm position 1,
        Nat.add_assoc position]

/-- A character that opens nothing is read by itself. -/
theorem reads_single (hstar : c ≠ '*') (hopen : c ≠ '[') :
    Reads position before (c :: rest) ↔ Reads (position + 1) (some c) rest := by
  by_cases hany : c = '?'
  · subst hany
    exact exists_ok_cons .anyOne
  · unfold Reads
    rw [partsFrom]
    · exact exists_ok_cons (.literal c)
    · exact hany
    · exact hstar
    · exact hopen

/-- No star follows. -/
theorem length_stars (hone : rest.head? ≠ some '*') :
    (rest.takeWhile fun c => decide (c = '*')).length = 0 := by
  cases rest with
  | nil => rfl
  | cons d rest =>
      have hd : d ≠ '*' := fun e => hone (congrArg some e)
      simp [hd]

theorem reads_star (hone : rest.head? ≠ some '*') :
    Reads position before ('*' :: rest) ↔ Reads (position + 1) (some '*') rest := by
  unfold Reads
  rw [partsFrom]
  dsimp only
  rw [length_stars hone]
  exact exists_ok_cons .anyText

/-- Two stars have to be all of a component. -/
theorem reads_components :
    Reads position before ('*' :: '*' :: rest) ↔ BeginsComponent before ∧
      (rest = [] ∨ ∃ others, rest = '/' :: others ∧ Reads (position + 3) (some '/') others) := by
  unfold Reads BeginsComponent
  rw [partsFrom]
  dsimp only
  by_cases hmore : rest.head? = some '*'
  · obtain ⟨others, rfl⟩ := List.head?_eq_some_iff.mp hmore
    simp
  · have hlength : (('*' :: rest).takeWhile fun c => decide (c = '*')).length = 1 := by
      rw [List.takeWhile_cons_of_pos (by simp), List.length_cons, length_stars hmore]
    rw [hlength]
    by_cases hbegins : before = none ∨ before = some '/'
    · simp only [hbegins, true_and, List.drop_one, List.tail_cons]
      cases rest with
      | nil => exact iff_of_true ⟨_, rfl⟩ (.inl rfl)
      | cons d rest =>
          by_cases hd : d = '/'
          · subst hd
            refine (exists_ok_cons .anyComponents).trans ?_
            simp [partsFrom]
          · simp [hd]
    · simp only [hbegins, false_and, iff_false]
      exact nofun

/-- A bracket has to open a class. -/
theorem reads_class {t : Text} :
    Reads position before ('[' :: t) ↔ ∃ enclosed rest, t = enclosed ++ ']' :: rest ∧
      Enclosed enclosed ∧ Reads (position + 1 + (enclosed.length + 1)) (some ']') rest := by
  unfold Reads
  rw [partsFrom]
  dsimp only
  constructor
  · intro hreads
    split at hreads
    · next part length hclass =>
      obtain ⟨enclosed, rest, rfl, henclosed, rfl⟩ := exists_class?_iff.mp ⟨part, hclass⟩
      rw [partsFrom_skip] at hreads
      exact ⟨enclosed, rest, rfl, henclosed, (exists_ok_cons part).mp hreads⟩
    · obtain ⟨_, hparts⟩ := hreads
      cases hparts
  · rintro ⟨enclosed, rest, rfl, henclosed, hreads⟩
    obtain ⟨part, hclass⟩ := exists_class?_iff.mpr ⟨enclosed, rest, rfl, henclosed, rfl⟩
    rw [hclass]
    dsimp only
    rw [partsFrom_skip]
    exact (exists_ok_cons part).mpr hreads

/-! ## The patterns -/

/-- A well-formed text can be read. -/
theorem WellFormed.reads {t : Text} (hform : WellFormed before t) (position : Nat) :
    Reads position before t := by
  induction hform generalizing position with
  | done => exact ⟨[], rfl⟩
  | single hstar hopen _ ih => exact (reads_single hstar hopen).mpr (ih _)
  | star hone _ ih => exact (reads_star hone).mpr (ih _)
  | lastComponents hbegins => exact reads_components.mpr ⟨hbegins, .inl rfl⟩
  | components hbegins _ ih => exact reads_components.mpr ⟨hbegins, .inr ⟨_, rfl, ih _⟩⟩
  | brackets henclosed _ ih => exact reads_class.mpr ⟨_, _, rfl, henclosed, ih _⟩

/-- What can be read is well formed. -/
theorem wellFormed_of_reads {t : Text} (hreads : Reads position before t) :
    WellFormed before t := by
  -- A class takes any number of characters, so the induction is on how many there are.
  induction hlength : t.length using Nat.strongRecOn generalizing t position before with
  | _ n ih =>
      have hshorter : ∀ {s : Text} {p : Nat} {b : Option Char}, s.length < n → Reads p b s →
          WellFormed b s := fun hs hreads => ih _ hs hreads rfl
      rcases t with _ | ⟨c, t⟩
      · exact .done
      rw [List.length_cons] at hlength
      by_cases hopen : c = '['
      · subst hopen
        obtain ⟨enclosed, rest, rfl, henclosed, hrest⟩ := reads_class.mp hreads
        rw [List.length_append, List.length_cons] at hlength
        exact .brackets henclosed (hshorter (by omega) hrest)
      by_cases hstar : c = '*'
      · subst hstar
        by_cases hone : t.head? = some '*'
        · obtain ⟨t, rfl⟩ := List.head?_eq_some_iff.mp hone
          obtain ⟨hbegins, rfl | ⟨others, rfl, hothers⟩⟩ := reads_components.mp hreads
          · exact .lastComponents hbegins
          · rw [List.length_cons, List.length_cons] at hlength
            exact .components hbegins (hshorter (by omega) hothers)
        · exact .star hone (hshorter (by omega) ((reads_star hone).mp hreads))
      · exact .single hstar hopen (hshorter (by omega) ((reads_single hstar hopen).mp hreads))

/-- **A text is a pattern exactly if it is well formed.** -/
theorem exists_read_iff {t : Text} : (∃ pattern, read t = .ok pattern) ↔ WellFormed none t := by
  constructor
  · rintro ⟨pattern, hread⟩
    unfold read at hread
    cases hparts : partsFrom 0 none 0 t with
    | ok parts => exact wellFormed_of_reads ⟨parts, hparts⟩
    | error fault =>
        rw [hparts] at hread
        cases hread
  · intro hform
    obtain ⟨parts, hparts⟩ := hform.reads 0
    exact ⟨⟨t, parts⟩, by rw [read, hparts]; rfl⟩

end LicenseHeaders.Pattern

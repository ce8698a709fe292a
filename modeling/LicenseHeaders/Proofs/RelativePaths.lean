import LicenseHeaders.Console.Listing
import LicenseHeaders.Proofs.Pieces

/-!
# Paths relative to a base

A path below a base is shown by what comes after the base, any other path as it is.
What comes after is spelled as in the path, and read as a path it stands for the
components that the base lacks.

* `stripBase?_eq_none`, `stripBase?_eq_some` — when there is a remainder, and what it is;
* `Display.Shown`, `Display.shown_shownPath` — how a path is shown.
-/

namespace LicenseHeaders

namespace Path

/-! ## The text of pieces as a path -/

variable {pieces : List Text}

/-- The text of pieces means what they mean. -/
theorem meaning_textOfPieces (hslash : ∀ piece ∈ pieces, '/' ∉ piece) :
    meaning (Text.splitOn '/' (textOfPieces pieces)) = meaning pieces := by
  obtain ⟨kept, idle, rfl, hidle, _, htext⟩ := textOfPieces_eq pieces
  rw [htext, meaning_append, meaning_of_idle hidle, List.append_nil]
  by_cases hkept : kept = []
  · subst hkept
    rfl
  · rw [Text.splitOn_joinWith hkept fun piece hpiece =>
      hslash piece (List.mem_append_left idle hpiece)]

/-- A text whose first piece is not idle opens like any name. -/
theorem opening_eq_nil {t first : Text} {others : List Text}
    (hsplit : Text.splitOn '/' t = first :: others) (hfirst : isIdle first = false) :
    opening ⟨t⟩ = [] := by
  unfold opening
  split
  · next rest htext =>
    cases htext
    cases hsplit
    cases hfirst
  · next htext =>
    cases htext
    cases hsplit
    cases hfirst
  · next rest htext =>
    cases htext
    cases hsplit
    cases hfirst
  · rfl

/-- Otherwise the text opens with its first piece. -/
theorem isIdle_first {t first : Text} {others : List Text} (ht : t ≠ [])
    (hopening : opening ⟨t⟩ = []) (hsplit : Text.splitOn '/' t = first :: others) :
    isIdle first = false := by
  have hjoined := Text.joinWith_splitOn '/' t
  rw [hsplit] at hjoined
  by_contra hidle
  have hfirst : first = [] ∨ first = ['.'] := by simpa [isIdle, or_iff_not_imp_left] using hidle
  by_cases hothers : others = []
  · subst hothers hjoined
    rcases hfirst with rfl | rfl
    · exact ht rfl
    · cases hopening
  · rw [Text.joinWith_cons _ _ hothers] at hjoined
    subst hjoined
    rcases hfirst with rfl | rfl <;> cases hopening

/-- A text of pieces opens with nothing when its first piece is not idle. -/
theorem opening_textOfPieces (hslash : ∀ piece ∈ pieces, '/' ∉ piece)
    (hhead : ∀ first ∈ pieces.head?, isIdle first = false) :
    opening ⟨textOfPieces pieces⟩ = [] := by
  obtain ⟨kept, idle, rfl, _, _, htext⟩ := textOfPieces_eq pieces
  rw [htext]
  cases kept with
  | nil => rfl
  | cons first others =>
      have hsplit : Text.splitOn '/' (Text.joinWith ['/'] (first :: others)) = first :: others :=
        Text.splitOn_joinWith (by simp) fun piece hpiece =>
          hslash piece (List.mem_append_left idle hpiece)
      exact opening_eq_nil hsplit (hhead first rfl)

/-! ## What is left of a path -/

/-- The pieces behind some components are the last ones. -/
theorem piecesAfter_suffix (count : Nat) (pieces : List Text) :
    piecesAfter count pieces <:+ pieces := by
  fun_induction piecesAfter count pieces with
  | case1 pieces => exact List.suffix_rfl
  | case2 count => exact List.suffix_rfl
  | case3 count piece rest _ ih => exact ih.trans (List.suffix_cons piece rest)
  | case4 count piece rest _ ih => exact ih.trans (List.suffix_cons piece rest)

/-- They mean what is behind these components. -/
theorem meaning_piecesAfter (count : Nat) (pieces : List Text) :
    meaning (piecesAfter count pieces) = (meaning pieces).drop count := by
  fun_induction piecesAfter count pieces with
  | case1 pieces => rfl
  | case2 count => rfl
  | case3 count piece rest hidle ih =>
      rw [ih]
      simp [meaning, hidle]
  | case4 count piece rest hactive ih =>
      rw [ih]
      simp [meaning, hactive]

/-- Idle pieces in front can be dropped. -/
theorem meaning_dropWhile (pieces : List Text) :
    meaning (pieces.dropWhile isIdle) = meaning pieces := by
  conv_rhs => rw [← List.takeWhile_append_dropWhile (p := isIdle) (l := pieces), meaning_append,
    meaning_of_idle (List.all_eq_true.mp List.all_takeWhile), List.nil_append]

/-- A path opens with a slash, with a dot, or with nothing. -/
theorem opening_cases (p : Path) :
    (∃ rest, p.text = '/' :: rest) ∨ p.text = ['.'] ∨ (∃ rest, p.text = '.' :: '/' :: rest) ∨
      p.opening = [] := by
  unfold opening
  split
  · next rest htext => exact .inl ⟨rest, htext⟩
  · next htext => exact .inr (.inl htext)
  · next rest htext => exact .inr (.inr (.inl ⟨rest, htext⟩))
  · exact .inr (.inr (.inr rfl))

theorem length_opening_le_text (p : Path) : p.opening.length ≤ p.text.length := by
  obtain ⟨text⟩ := p
  rcases opening_cases ⟨text⟩ with ⟨rest, htext⟩ | htext | ⟨rest, htext⟩ | hopening
  · cases htext
    exact Nat.le_add_left 1 _
  · cases htext
    exact Nat.le_refl 1
  · cases htext
    exact Nat.le_add_left 1 _
  · rw [hopening]
    exact Nat.zero_le _

/-- What stands behind the opening is made of the pieces. -/
theorem joinWith_pieces (p : Path) :
    Text.joinWith ['/'] p.pieces = p.text.drop p.opening.length :=
  Text.joinWith_splitOn '/' _

theorem not_mem_of_mem_pieces {p : Path} {piece : Text} (hpiece : piece ∈ p.pieces) : '/' ∉ piece :=
  not_mem_of_mem_splitOn hpiece

/-- A path without the idle pieces at its end. -/
def trimmed (p : Path) : Path := ⟨p.text.take p.opening.length ++ textOfPieces p.pieces⟩

/-- Trimming leaves the opening of a path alone. -/
theorem opening_trimmed (p : Path) : p.trimmed.opening = p.opening := by
  obtain ⟨text⟩ := p
  unfold trimmed
  rcases opening_cases ⟨text⟩ with ⟨rest, htext⟩ | htext | ⟨rest, htext⟩ | hopening
  · cases htext
    rfl
  · cases htext
    rfl
  · cases htext
    have hpieces : pieces ⟨'.' :: '/' :: rest⟩ = [] :: Text.splitOn '/' rest := rfl
    obtain ⟨kept, idle, hkept, _, hlast, hpaste⟩ := textOfPieces_eq ([] :: Text.splitOn '/' rest)
    rw [hpieces, hpaste]
    -- Behind the `.` comes nothing, or the empty piece of the `/` with others behind it.
    rcases kept with _ | ⟨first, _ | ⟨second, others⟩⟩
    · rfl
    · obtain ⟨rfl, _⟩ := List.cons.inj hkept
      cases hlast [] rfl
    · obtain ⟨rfl, _⟩ := List.cons.inj hkept
      rfl
  · rw [pieces, hopening]
    by_cases htext : text = []
    · subst htext
      rfl
    · refine opening_textOfPieces (fun _ => not_mem_of_mem_splitOn) fun first hfirst => ?_
      obtain ⟨others, hsplit⟩ := List.head?_eq_some_iff.mp hfirst
      exact isIdle_first htext hopening hsplit

/-- Trimming leaves the components of a path alone. -/
theorem components_trimmed (p : Path) : p.trimmed.components = p.components := by
  have hlength : (p.text.take p.opening.length).length = p.opening.length := by
    rw [List.length_take, Nat.min_eq_left (length_opening_le_text p)]
  have hpieces : p.trimmed.pieces = Text.splitOn '/' (textOfPieces p.pieces) := by
    rw [pieces, opening_trimmed, trimmed, List.drop_append_of_le_length hlength.ge,
      List.drop_eq_nil_of_le hlength.le, List.nil_append]
  rw [components_def, components_def, opening_trimmed, hpieces,
    meaning_textOfPieces fun _ => not_mem_of_mem_pieces]

theorem text_trimmed (p : Path) : p.trimmed.text <+: p.text := by
  obtain ⟨kept, idle, hkept, _, _, htext⟩ := textOfPieces_eq p.pieces
  have hfront : textOfPieces p.pieces <+: p.text.drop p.opening.length := by
    rw [htext, ← joinWith_pieces, hkept]
    exact Text.joinWith_prefix _ (List.prefix_append kept idle)
  obtain ⟨tail, htail⟩ := hfront
  refine ⟨tail, ?_⟩
  rw [trimmed, List.append_assoc, htail, List.take_append_drop]

/-- The pieces of a path behind its first `count` components, from one that is not idle on. -/
def piecesBehind (count : Nat) (p : Path) : List Text :=
  (piecesAfter (count - p.opening.length) p.pieces).dropWhile isIdle

theorem piecesBehind_suffix (count : Nat) (p : Path) : piecesBehind count p <:+ p.pieces :=
  (List.dropWhile_suffix _).trans (piecesAfter_suffix _ _)

/-- The text of the last pieces of a path is a part of its text. -/
theorem textOfPieces_infix {p : Path} {pieces : List Text} (hsuffix : pieces <:+ p.pieces) :
    textOfPieces pieces <:+: p.text := by
  obtain ⟨kept, idle, rfl, _, _, htext⟩ := textOfPieces_eq pieces
  rw [htext]
  have hkept := Text.joinWith_prefix ['/'] (List.prefix_append kept idle)
  have hbehind := Text.joinWith_suffix ['/'] hsuffix
  rw [joinWith_pieces] at hbehind
  exact (hkept.isInfix.trans hbehind.isInfix).trans (List.drop_suffix _ _).isInfix

/-- As a path of their own they stand for the other components. -/
theorem components_behind {count : Nat} (hcount : 0 < count) (p : Path) :
    components ⟨textOfPieces (piecesBehind count p)⟩ = p.components.drop count := by
  have hslash : ∀ piece ∈ piecesBehind count p, '/' ∉ piece := fun _ hpiece =>
    not_mem_of_mem_pieces ((piecesBehind_suffix count p).subset hpiece)
  have hhead : ∀ first ∈ (piecesBehind count p).head?, isIdle first = false := by
    intro first hfirst
    have hfront := List.head?_dropWhile_not isIdle
      (piecesAfter (count - p.opening.length) p.pieces)
    unfold piecesBehind at hfirst
    rw [hfirst] at hfront
    exact hfront
  have hlength : p.opening.length ≤ count := Nat.le_trans (length_opening_le p) hcount
  rw [components_eq_append, opening_textOfPieces hslash hhead, List.nil_append,
    meaning_textOfPieces hslash, piecesBehind, meaning_dropWhile, meaning_piecesAfter,
    components_def, List.drop_append, List.drop_eq_nil_of_le hlength, List.nil_append]

/-! ## Remainders -/

variable {base p : Path}

/-- A base that a path does not begin with is not stripped. -/
theorem stripBase?_eq_none (hbase : ¬ base.components <+: p.components) :
    base.stripBase? p = none := by
  unfold stripBase?
  rw [if_neg (by simpa using hbase)]

/-- **What is left of a path below a base** is spelled as in the path, and stands for the
components that come after those of the base. -/
theorem stripBase?_eq_some (hbase : base.components <+: p.components) :
    ∃ rest, base.stripBase? p = some rest ∧ rest.text <:+: p.text ∧
      base.components ++ rest.components = p.components := by
  unfold stripBase?
  rw [if_pos (by simpa using hbase)]
  obtain ⟨others, hothers⟩ := hbase
  by_cases hnone : base.components.length = 0
  · refine ⟨p.trimmed, if_pos hnone, (text_trimmed p).isInfix, ?_⟩
    rw [List.length_eq_zero_iff.mp hnone, List.nil_append, components_trimmed]
  · refine ⟨_, if_neg hnone, textOfPieces_infix (piecesBehind_suffix _ p), ?_⟩
    have hbehind := components_behind (Nat.pos_of_ne_zero hnone) p
    rw [← hothers, List.drop_left] at hbehind
    rw [← hothers]
    exact congrArg _ hbehind

end Path

namespace Display

/-- **How a path is shown relative to a base**: by what is left of it below the base,
spelled as in the path, and else as it is. -/
inductive Shown (base : Option Path) (p : Path) : Path → Prop
  | remainder {b rest : Path} (hbase : base = some b) (hspelled : rest.text <:+: p.text)
      (hrest : b.components ++ rest.components = p.components) : Shown base p rest
  | whole (hapart : ∀ b, base = some b → ¬ b.components <+: p.components) : Shown base p p

/-- Every path is shown by one of the rules. -/
theorem shown_shownPath (base : Option Path) (p : Path) :
    ∃ shown, Shown base p shown ∧ shownPath base p = shown.display := by
  cases base with
  | none => exact ⟨p, .whole nofun, rfl⟩
  | some b =>
      by_cases hbase : b.components <+: p.components
      · obtain ⟨rest, hstrip, hspelled, hrest⟩ := Path.stripBase?_eq_some hbase
        refine ⟨rest, .remainder rfl hspelled hrest, ?_⟩
        rw [shownPath, hstrip, Option.getD_some]
      · refine ⟨p, .whole fun _ hb => Option.some.inj hb ▸ hbase, ?_⟩
        rw [shownPath, Path.stripBase?_eq_none hbase, Option.getD_none]

end Display

end LicenseHeaders

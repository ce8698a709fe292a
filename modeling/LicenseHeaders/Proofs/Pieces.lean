import LicenseHeaders.Proofs.Creation

/-!
# The pieces of a path

The text of a path falls into pieces at its slashes.  Most pieces name a component,
the idle ones mean nothing, and the first piece may also be spoken for by how the path
opens.  So the components of a path, its base name and those of the paths made from it
can be read off lists of pieces (`meaning`), on which cutting and joining are easy.

* `splitOn_joinWith`, `joinWith_splitOn` — cutting a text at slashes and joining it;
* `components_eq_append` — the components of a path are its opening and what its pieces
  mean;
* `baseName_join_eq` — the base name of a path with a piece behind it;
* `textOfPieces_eq` — what the text of pieces leaves out at the end.
-/

namespace LicenseHeaders

/-! ## Cutting and joining -/

namespace Text

variable {separator : Char}

/-- The first text is joined to the others by the separator. -/
theorem joinWith_cons (separator t : Text) {rest : List Text} (hrest : rest ≠ []) :
    joinWith separator (t :: rest) = t ++ separator ++ joinWith separator rest := by
  cases rest with
  | nil => exact absurd rfl hrest
  | cons u rest => rfl

/-- Two lists of texts are joined by the separator between them. -/
theorem joinWith_append (separator : Text) {before after : List Text} (hbefore : before ≠ [])
    (hafter : after ≠ []) :
    joinWith separator (before ++ after) =
      joinWith separator before ++ separator ++ joinWith separator after := by
  induction before with
  | nil => exact absurd rfl hbefore
  | cons t before ih =>
      by_cases hmore : before = []
      · subst hmore
        exact joinWith_cons separator t hafter
      · rw [List.cons_append, joinWith_cons _ _ (by simp [hmore]), joinWith_cons _ _ hmore,
          ih hmore]
        simp only [List.append_assoc]

/-- **Joining undoes cutting.** -/
theorem joinWith_splitOn (separator : Char) (t : Text) :
    joinWith [separator] (splitOn separator t) = t := by
  induction t with
  | nil => rfl
  | cons c rest ih =>
      rw [splitOn]
      by_cases hc : c = separator
      · rw [if_pos hc, joinWith_cons _ _ (splitOn_ne_nil separator rest), ih, hc]
        rfl
      · rw [if_neg hc]
        cases hpieces : splitOn separator rest with
        | nil => exact absurd hpieces (splitOn_ne_nil separator rest)
        | cons piece pieces =>
            rw [hpieces] at ih
            rw [← ih]
            cases pieces <;> rfl

/-- **Cutting undoes joining** of pieces without a separator. -/
theorem splitOn_joinWith {pieces : List Text} (hne : pieces ≠ [])
    (hpieces : ∀ piece ∈ pieces, separator ∉ piece) :
    splitOn separator (joinWith [separator] pieces) = pieces := by
  induction pieces with
  | nil => exact absurd rfl hne
  | cons piece rest ih =>
      obtain ⟨hpiece, hrest⟩ := List.forall_mem_cons.mp hpieces
      by_cases hmore : rest = []
      · subst hmore
        exact splitOn_of_not_mem hpiece
      · rw [joinWith_cons _ _ hmore, List.append_assoc, List.singleton_append, splitOn_append,
          splitOn_of_not_mem hpiece, ih hmore hrest]
        rfl

/-- The first pieces stand at the beginning of the text. -/
theorem joinWith_prefix (separator : Text) {before whole : List Text} (hfront : before <+: whole) :
    joinWith separator before <+: joinWith separator whole := by
  obtain ⟨after, rfl⟩ := hfront
  by_cases hbefore : before = []
  · subst hbefore
    exact List.nil_prefix
  by_cases hafter : after = []
  · simp [hafter]
  · rw [joinWith_append _ hbefore hafter, List.append_assoc]
    exact List.prefix_append _ _

/-- The last pieces stand at the end of the text. -/
theorem joinWith_suffix (separator : Text) {after whole : List Text} (hsuffix : after <:+ whole) :
    joinWith separator after <:+ joinWith separator whole := by
  obtain ⟨before, rfl⟩ := hsuffix
  by_cases hafter : after = []
  · subst hafter
    exact List.nil_suffix
  by_cases hbefore : before = []
  · simp [hbefore]
  · rw [joinWith_append _ hbefore hafter]
    exact List.suffix_append _ _

end Text

/-! ## What pieces mean -/

namespace Path

/-- The components that pieces stand for. -/
def meaning (pieces : List Text) : List Component :=
  (pieces.filter fun piece => !isIdle piece).map Component.ofPiece

/-- Pieces mean what they mean one by one. -/
theorem meaning_append (before after : List Text) :
    meaning (before ++ after) = meaning before ++ meaning after := by
  rw [meaning, List.filter_append, List.map_append]
  rfl

/-- Idle pieces mean nothing. -/
theorem meaning_of_idle {pieces : List Text} (hidle : ∀ piece ∈ pieces, isIdle piece = true) :
    meaning pieces = [] := by
  rw [meaning, List.filter_eq_nil_iff.mpr, List.map_nil]
  intro piece hpiece
  rw [hidle piece hpiece]
  decide

theorem components_def (p : Path) : p.components = p.opening ++ meaning p.pieces := rfl

/-- **The components of a path** are its opening and what its pieces mean; the piece of
the opening itself is idle. -/
theorem components_eq_append (p : Path) :
    p.components = p.opening ++ meaning (Text.splitOn '/' p.text) := by
  rw [components_def, pieces]
  congr 1
  obtain ⟨text⟩ := p
  unfold opening
  split
  · next rest htext =>
    cases htext
    rfl
  · next htext =>
    cases htext
    rfl
  · next rest htext =>
    cases htext
    rfl
  · rfl

/-! ## Base names -/

/-- The name that a component is. -/
def Component.name? : Component → Option Name
  | .name n => some n
  | _ => none

/-- The file name of a path is the name of its last component, if that has one. -/
theorem fileName_eq_bind (p : Path) : p.fileName = p.components.getLast?.bind Component.name? := by
  unfold fileName
  split
  · next n hlast =>
    rw [hlast]
    rfl
  · next hlast =>
    cases hcomponent : p.components.getLast? with
    | none => rfl
    | some component =>
        cases component with
        | name n => exact absurd hcomponent (hlast n)
        | root | here | up => rfl

/-- What opens a path is no name. -/
theorem name?_of_mem_opening {p : Path} {component : Component} (hopening : component ∈ p.opening) :
    component.name? = none := by
  unfold opening at hopening
  split at hopening <;> simp_all [Component.name?]

/-- **The base name of a path** is that of its last piece that means something. -/
theorem baseName_eq (p : Path) :
    p.baseName =
      ((meaning (Text.splitOn '/' p.text)).getLast?.bind Component.name?).getD [] := by
  rw [baseName, fileName_eq_bind, components_eq_append]
  by_cases hmeaning : meaning (Text.splitOn '/' p.text) = []
  · rw [hmeaning, List.append_nil]
    cases hlast : p.opening.getLast? with
    | none => rfl
    | some component =>
        rw [Option.bind_some, name?_of_mem_opening (List.mem_of_getLast? hlast)]
        rfl
  · rw [List.getLast?_append_of_ne_nil _ hmeaning]

/-- **A piece behind a path** adds its own meaning. -/
theorem meaning_join (p : Path) {piece : Text} (hslash : '/' ∉ piece) :
    meaning (Text.splitOn '/' (p.join piece).text) =
      meaning (Text.splitOn '/' p.text) ++ meaning [piece] := by
  have hhead : piece.head? ≠ some '/' := fun h => hslash (List.mem_of_mem_head? h)
  unfold join
  rw [if_neg hhead]
  by_cases hclosed : p.text = [] ∨ p.text.getLast? = some '/'
  · rw [if_pos hclosed]
    rcases hclosed with hempty | hlast
    · rw [hempty, List.nil_append, Text.splitOn_of_not_mem hslash]
      rfl
    · obtain ⟨t, ht⟩ := List.getLast?_eq_some_iff.mp hlast
      have hidle : meaning (Text.splitOn '/' []) = [] := rfl
      rw [ht, List.append_assoc, List.singleton_append, Text.splitOn_append, Text.splitOn_append,
        Text.splitOn_of_not_mem hslash, meaning_append, meaning_append, hidle, List.append_nil]
  · rw [if_neg hclosed, Text.splitOn_append, meaning_append, Text.splitOn_of_not_mem hslash]

/-- **The base name of a path with a piece behind it** is the piece if it is a name, that of
the path itself if the piece is idle, and none if it leads up. -/
theorem baseName_join_eq (p : Path) {piece : Text} (hslash : '/' ∉ piece) :
    (p.join piece).baseName =
      if isIdle piece then p.baseName else if piece = ['.', '.'] then [] else piece := by
  rw [baseName_eq, meaning_join p hslash]
  split
  · next hidle =>
    have hmeaning : meaning [piece] = [] := meaning_of_idle (by simpa using hidle)
    rw [hmeaning, List.append_nil, ← baseName_eq]
  · next hactive =>
    have hmeaning : meaning [piece] = [Component.ofPiece piece] := by simp [meaning, hactive]
    rw [hmeaning, List.getLast?_concat, Option.bind_some, Component.ofPiece]
    split <;> rfl

/-! ## The text of pieces -/

/-- **The text of pieces** leaves out the idle ones at the end, and no others. -/
theorem textOfPieces_eq (pieces : List Text) :
    ∃ kept idle, pieces = kept ++ idle ∧ (∀ piece ∈ idle, isIdle piece = true) ∧
      (∀ piece ∈ kept.getLast?, isIdle piece = false) ∧
      textOfPieces pieces = Text.joinWith ['/'] kept := by
  refine ⟨(pieces.reverse.dropWhile isIdle).reverse, (pieces.reverse.takeWhile isIdle).reverse,
    ?_, ?_, ?_, rfl⟩
  · rw [← List.reverse_append, List.takeWhile_append_dropWhile, List.reverse_reverse]
  · intro piece hpiece
    exact List.all_eq_true.mp List.all_takeWhile piece (List.mem_reverse.mp hpiece)
  · intro piece hpiece
    have hlast := List.head?_dropWhile_not isIdle pieces.reverse
    rw [List.getLast?_reverse] at hpiece
    rw [hpiece] at hlast
    exact hlast

end Path

end LicenseHeaders

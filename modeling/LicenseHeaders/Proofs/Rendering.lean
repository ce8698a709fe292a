import LicenseHeaders.Diff.Rendering
import LicenseHeaders.Proofs.Fitting

/-!
# Diffs can be read back

A diff is one flat text, and its lines may themselves begin with a sign, end in any of
three ways or not at all.  It can be cut into its lines all the same: every line of a
text has one ending behind characters that end no line, a line without an ending is
given one, and no line begins with a `\n` that a `\r` before it could take for its own,
because a sign stands in front.  What is behind the signs is then what the comparison
spells.

* `terminatedLines_sealed` — where a text is cut;
* `flatMap_closed` — lines that are all ended give the text back, ended;
* `rendered_of_spells` — lines that spell two texts are rendered as a diff of the two;
* `render_lossless` — every diff can be read back.
-/

namespace LicenseHeaders

namespace Text

/-! ## Cutting a text -/

/-- The three endings of a line. -/
inductive LineEnd : Text → Prop where
  | newline : LineEnd ['\n']
  | carriage : LineEnd ['\r']
  | returned : LineEnd ['\r', '\n']

/-- A line with its ending, and no character before that ends a line. -/
inductive Sealed : Text → Prop where
  | ending {t : Text} (hend : LineEnd t) : Sealed t
  | cons {c : Char} {t : Text} (hn : c ≠ '\n') (hr : c ≠ '\r') (ht : Sealed t) : Sealed (c :: t)

variable {rest t line : Text} {c : Char}

/-- A character that ends no line belongs to the line behind it. -/
theorem terminatedLines_cons (hn : c ≠ '\n') (hr : c ≠ '\r') {others : List Text}
    (hlines : terminatedLines t = line :: others) :
    terminatedLines (c :: t) = (c :: line) :: others := by
  rw [terminatedLines, if_neg (not_or.mpr ⟨hn, hr⟩), hlines]
  rintro rest rfl
  exact absurd rfl hr

/-- **A text is cut behind the ending of a line**, unless a `\n` would be torn from its
`\r`. -/
theorem terminatedLines_sealed (hline : Sealed line) (hrest : rest.head? ≠ some '\n') :
    terminatedLines (line ++ rest) = line :: terminatedLines rest := by
  induction hline with
  | ending hend =>
      cases hend with
      | newline => rfl
      | returned => rfl
      | carriage =>
          rw [List.singleton_append, terminatedLines]
          · rfl
          · rintro other - rfl
            exact hrest rfl
  | cons hn hr _ ih => exact terminatedLines_cons hn hr ih

/-- Only the empty text has no lines. -/
theorem eq_nil_of_terminatedLines (hlines : terminatedLines t = []) : t = [] := by
  rw [← join_terminatedLines t, hlines]
  rfl

/-- No line is empty, since each but the last has its newline. -/
theorem ne_nil_of_mem_terminatedLines (hline : line ∈ terminatedLines t) : line ≠ [] := by
  fun_induction terminatedLines t <;> grind

/-- Whether a text ends a line depends on its end. -/
theorem endsLine_append (hrest : rest ≠ []) : endsLine (t ++ rest) = endsLine rest := by
  rw [endsLine, endsLine, List.getLast?_append_of_ne_nil _ hrest]

end Text

namespace Diff

open Text (endsLine terminatedLines Sealed LineEnd)

/-! ## Ended lines -/

variable {s t line : Text} {c : Char}

/-- What follows an ended text is ended on its own. -/
theorem closed_append (hs : endsLine s = true) : closed (s ++ t) = s ++ closed t := by
  cases t with
  | nil => simp [closed, hs]
  | cons c t =>
      have hends : endsLine (s ++ c :: t) = endsLine (c :: t) := Text.endsLine_append nofun
      simp only [closed, hends, List.append_eq_nil_iff, reduceCtorEq, and_false, false_or]
      split <;> simp

/-- A text is closed at its end, not in front. -/
theorem closed_cons (ht : t ≠ []) : closed (c :: t) = c :: closed t := by
  have hends : endsLine (c :: t) = endsLine t := Text.endsLine_append (t := [c]) ht
  simp only [closed, hends, ht, reduceCtorEq, false_or]
  split <;> rfl

/-- A line of a text that is ended has one ending. -/
theorem sealed_closed (hline : line ∈ terminatedLines t) : Sealed (closed line) := by
  fun_induction terminatedLines t generalizing line with
  | case1 => cases hline
  | case2 rest ih =>
      rcases List.mem_cons.mp hline with rfl | hothers
      · exact .ending .returned
      · exact ih hothers
  | case3 c rest _ hbreak ih =>
      rcases List.mem_cons.mp hline with rfl | hothers
      · rcases hbreak with rfl | rfl
        · exact .ending .newline
        · exact .ending .carriage
      · exact ih hothers
  | case4 c rest _ hbreak hlines _ =>
      obtain ⟨hn, hr⟩ := not_or.mp hbreak
      rw [List.mem_singleton.mp hline]
      have hopen : closed [c] = [c, '\n'] := by simp [closed, endsLine, hn, hr]
      rw [hopen]
      exact .cons hn hr (.ending .newline)
  | case5 c rest _ hbreak first others hlines ih =>
      obtain ⟨hn, hr⟩ := not_or.mp hbreak
      rw [hlines] at ih
      rcases List.mem_cons.mp hline with rfl | hothers
      · have hfirst : first ∈ terminatedLines rest := hlines ▸ List.mem_cons_self
        rw [closed_cons (Text.ne_nil_of_mem_terminatedLines hfirst)]
        exact .cons hn hr (ih List.mem_cons_self)
      · exact ih (List.mem_cons_of_mem _ hothers)

/-- **Lines that are all ended give the text back**, and it is ended. -/
theorem flatMap_closed (t : Text) : (terminatedLines t).flatMap closed = closed t := by
  fun_induction terminatedLines t with
  | case1 => rfl
  | case2 rest ih =>
      rw [List.flatMap_cons, ih]
      exact (closed_append (s := ['\r', '\n']) rfl).symm
  | case3 c rest _ hbreak ih =>
      have hends : endsLine [c] = true := by simpa [endsLine] using hbreak
      rw [List.flatMap_cons, ih, ← List.singleton_append (l := rest), closed_append hends]
      simp [closed, hends]
  | case4 c rest _ _ hlines _ => simp [Text.eq_nil_of_terminatedLines hlines]
  | case5 c rest _ _ first others hlines ih =>
      have hfirst : first ∈ terminatedLines rest := hlines ▸ List.mem_cons_self
      have hrest : rest ≠ [] := by
        rintro rfl
        cases hfirst
      rw [hlines] at ih
      rw [List.flatMap_cons, closed_cons (Text.ne_nil_of_mem_terminatedLines hfirst),
        closed_cons hrest, List.cons_append, ← List.flatMap_cons, ih]

/-! ## Signed lines -/

@[simp] theorem sign_ne_newline (mark : Mark) : mark.sign ≠ '\n' := by cases mark <;> decide

theorem sign_ne_carriage (mark : Mark) : mark.sign ≠ '\r' := by cases mark <;> decide

/-- The signs tell the marks apart. -/
theorem sign_injective : Function.Injective Mark.sign := by
  intro mark other
  cases mark <;> cases other <;> decide

/-- A line is rendered as its sign and the line, which is closed if need be. -/
theorem renderLine_closed (mark : Mark) (hline : line ≠ []) :
    renderLine (mark, line) = mark.sign :: closed line := by
  simp only [renderLine, closed, hline, false_or, List.cons_append]
  split <;> simp

variable {lines : List (Mark × Text)}

/-- A diff begins with a sign. -/
theorem head?_flatMap_renderLine (lines : List (Mark × Text)) :
    (lines.flatMap renderLine).head? ≠ some '\n' := by
  cases lines <;> simp [renderLine]

/-- **A diff is cut into the lines that it was made of.** -/
theorem terminatedLines_flatMap_renderLine
    (hlines : ∀ line ∈ lines, line.2 ≠ [] ∧ Sealed (closed line.2)) :
    terminatedLines (lines.flatMap renderLine) = lines.map renderLine := by
  induction lines with
  | nil => rfl
  | cons line lines ih =>
      obtain ⟨⟨hne, hsealed⟩, hothers⟩ := List.forall_mem_cons.mp hlines
      have hline : Sealed (renderLine line) := by
        rw [renderLine_closed line.1 hne]
        exact .cons (sign_ne_newline _) (sign_ne_carriage _) hsealed
      rw [List.flatMap_cons, Text.terminatedLines_sealed hline (head?_flatMap_renderLine lines),
        ih hothers, List.map_cons]

/-- Behind some signs stand the lines of these fates. -/
theorem select_flatMap_renderLine (fates : List Mark)
    (hlines : ∀ line ∈ lines, line.2 ≠ [] ∧ Sealed (closed line.2)) :
    select (fates.map Mark.sign) (lines.flatMap renderLine) =
      (spelled fates lines).flatMap closed := by
  rw [select, terminatedLines_flatMap_renderLine hlines]
  induction lines with
  | nil => rfl
  | cons line lines ih =>
      obtain ⟨⟨hne, _⟩, hothers⟩ := List.forall_mem_cons.mp hlines
      have hsign : line.1.sign ∈ fates.map Mark.sign ↔ line.1 ∈ fates :=
        List.mem_map_of_injective sign_injective
      rw [List.map_cons, List.flatMap_cons, ih hothers, renderLine_closed line.1 hne]
      by_cases hfate : line.1 ∈ fates <;> simp [spelled, hsign, hfate]

/-- **Lines that spell the lines of two texts** are rendered as a diff of the two. -/
theorem rendered_of_spells {old new : Text}
    (hspells : Spells lines (terminatedLines old) (terminatedLines new)) :
    Rendered old new (lines.flatMap renderLine) := by
  have hlines : ∀ line ∈ lines, line.2 ≠ [] ∧ Sealed (closed line.2) := by
    rintro ⟨mark, line⟩ hline
    rcases hspells.mem hline with hold | hnew
    · exact ⟨Text.ne_nil_of_mem_terminatedLines hold, sealed_closed hold⟩
    · exact ⟨Text.ne_nil_of_mem_terminatedLines hnew, sealed_closed hnew⟩
  refine ⟨?_, ?_, ?_⟩
  · rw [terminatedLines_flatMap_renderLine hlines]
    rintro piece hpiece
    obtain ⟨⟨mark, line⟩, _, rfl⟩ := List.mem_map.mp hpiece
    exact ⟨mark.sign, _, rfl, by cases mark <;> decide⟩
  · rw [← flatMap_closed old, ← hspells.old]
    exact select_flatMap_renderLine [.kept, .deleted] hlines
  · rw [← flatMap_closed new, ← hspells.new]
    exact select_flatMap_renderLine [.kept, .inserted] hlines

/-- **Every diff can be read back.**  Behind its title, a diff of two texts falls into
signed lines, of which those kept or deleted are the old text and those kept or inserted
the new one, each ended. -/
theorem render_lossless (path : Path) (old new : Text) :
    ∃ body, render path old new = "Diff for ".toList ++ path.text ++ [':', '\n'] ++ body ∧
      Rendered old new body :=
  ⟨renderLines old new, rfl, rendered_of_spells (compare_spells _ _)⟩

end Diff

end LicenseHeaders

import LicenseHeaders.Header.Insertion
import LicenseHeaders.Text.Lines
import Mathlib.Data.List.Basic
import Mathlib.Data.List.Induction

/-!
# One blank line below the header

What stands between a header and the text below it depends on two things, the line
ending that the header uses and whether its last line is ended.  Either way the lines
of the whole are the lines of the header, an empty line and the lines of the text.

Lines are cut at each `\n`, so a text can be cut behind any ended line
(`lines_append_of_ended`).  What is left of a header behind its last ended line is a
line of its own (`exists_lastLine`), and a line ending makes no other line of it
(`lines_append_lineEnding`).

* `prependHeader_lines` — the lines of a text with a header in front, and their
  endings.
-/

namespace LicenseHeaders

namespace Text

variable {s t : Text}

/-! ## Cutting texts into lines -/

/-- Every line of the text is ended. -/
def Ended (t : Text) : Prop := t = [] ∨ t.getLast? = some '\n'

/-- A line without the `\r` that belongs to its ending. -/
def unreturned (piece : Text) : Text := (dropEnding? ['\r'] piece).getD piece

/-- Only the last carriage return is taken off. -/
theorem unreturned_append_return (t : Text) : unreturned (t ++ ['\r']) = t := by
  simp [unreturned, dropEnding?]

/-- A line that does not end with a carriage return stays as it is. -/
theorem unreturned_eq_self (hlast : t.getLast? ≠ some '\r') : unreturned t = t := by
  have hnot : ¬ (['\r'].isSuffixOf t) = true := by
    intro hsuffix
    obtain ⟨u, hu⟩ := List.isSuffixOf_iff_suffix.mp hsuffix
    simp [← hu] at hlast
  simp [unreturned, dropEnding?, hnot]

/-- The lines before a `\n` are ended, and the lines behind it are what they are on
their own. -/
theorem lines_append_newline (s t : Text) :
    lines (s ++ '\n' :: t) = (splitOn '\n' s).map unreturned ++ lines t := by
  have hne := splitOn_ne_nil '\n' t
  simp only [lines, splitOn_append, List.dropLast_append_of_ne_nil hne,
    List.getLast?_append_of_ne_nil _ hne, List.map_append]
  split
  · rfl
  · rfl
  · rw [List.append_assoc]
    rfl

/-- **A text can be cut behind an ended line.** -/
theorem lines_append_of_ended (hended : Ended s) (t : Text) :
    lines (s ++ t) = lines s ++ lines t := by
  rcases hended with rfl | hlast
  · rfl
  · obtain ⟨u, rfl⟩ := List.getLast?_eq_some_iff.mp hlast
    have hnone : lines ([] : Text) = [] := rfl
    rw [List.append_assoc, List.singleton_append, lines_append_newline, lines_append_newline,
      hnone, List.append_nil]

/-- A text without `\n` is a line. -/
theorem lines_of_not_mem (hline : '\n' ∉ t) (hne : t ≠ []) : lines t = [t] := by
  cases t with
  | nil => exact absurd rfl hne
  | cons c rest =>
      rw [lines, splitOn_of_not_mem hline]
      rfl

/-- **Behind its ended lines** a text has at most one more line. -/
theorem exists_lastLine (t : Text) : ∃ s last, t = s ++ last ∧ Ended s ∧ '\n' ∉ last := by
  induction t using List.reverseRecOn with
  | nil => exact ⟨[], [], rfl, .inl rfl, List.not_mem_nil⟩
  | append_singleton t c ih =>
      by_cases hc : c = '\n'
      · subst hc
        exact ⟨t ++ ['\n'], [], by simp, .inr (by simp), List.not_mem_nil⟩
      · obtain ⟨s, last, rfl, hended, hlast⟩ := ih
        refine ⟨s, last ++ [c], by simp, hended, ?_⟩
        simp [hlast, Ne.symm hc]

/-! ## Line endings -/

/-- A line ending ends the last line, whichever header it is taken from. -/
theorem ended_append_lineEnding (t header : Text) : Ended (t ++ lineEnding header) := by
  right
  unfold lineEnding
  split <;> simp

/-- A line ending ends a line and begins none. -/
theorem lines_append_lineEnding (header : Text) {last : Text} (hline : '\n' ∉ last)
    (hreturn : last.getLast? ≠ some '\r') : lines (last ++ lineEnding header) = [last] := by
  have hnone : lines ([] : Text) = [] := rfl
  unfold lineEnding
  split
  · have hpiece : '\n' ∉ last ++ ['\r'] := by simp [hline]
    rw [List.append_cons, lines_append_newline, splitOn_of_not_mem hpiece, hnone,
      List.map_singleton, unreturned_append_return, List.append_nil]
  · rw [lines_append_newline, splitOn_of_not_mem hline, hnone, List.map_singleton,
      unreturned_eq_self hreturn, List.append_nil]

/-- To end the last line of a text does not change its lines. -/
theorem lines_append_lineEnding_of_open (header : Text) (hne : t ≠ [])
    (hopen : t.getLast? ≠ some '\n') (hreturn : t.getLast? ≠ some '\r') :
    lines (t ++ lineEnding header) = lines t := by
  obtain ⟨s, last, rfl, hended, hline⟩ := exists_lastLine t
  have hlast : last ≠ [] := by
    rintro rfl
    rw [List.append_nil] at hne hopen
    exact hended.elim hne hopen
  rw [List.getLast?_append_of_ne_nil _ hlast] at hreturn
  rw [List.append_assoc, lines_append_of_ended hended, lines_append_of_ended hended,
    lines_append_lineEnding header hline hreturn, lines_of_not_mem hline hlast]

/-- **A line ending between ended lines and a text** makes an empty line. -/
theorem lines_append_blank (header : Text) (hended : Ended s) (t : Text) :
    lines (s ++ (lineEnding header ++ t)) = lines s ++ [[]] ++ lines t := by
  have hnone : '\n' ∉ ([] : Text) := List.not_mem_nil
  have hblank : lines (lineEnding header) = [[]] := lines_append_lineEnding header hnone (by simp)
  have hending : Ended (lineEnding header) := ended_append_lineEnding [] header
  rw [lines_append_of_ended hended, lines_append_of_ended hending, hblank, List.append_assoc]

/-! ## Returns -/

/-- Every `\n` of the text comes right after a `\r`. -/
def Returned (t : Text) : Prop := ∀ u v, t = u ++ '\n' :: v → u.getLast? = some '\r'

/-- Where no line ends, no line ending lacks its carriage return. -/
theorem returned_of_not_mem (hline : '\n' ∉ t) : Returned t := by
  intro u v ht
  simp [ht] at hline

theorem returned_crlf : Returned ['\r', '\n'] := by
  intro u v ht
  rcases u with _ | ⟨c, _ | ⟨d, u⟩⟩
  · simp at ht
  · obtain ⟨rfl, _⟩ := List.cons.inj ht
    rfl
  · simp at ht

/-- Where two texts meet, no `\n` loses its `\r`. -/
theorem Returned.append (hs : Returned s) (ht : Returned t) : Returned (s ++ t) := by
  intro u v hwhole
  rcases List.append_eq_append_iff.mp hwhole with ⟨w, rfl, hrest⟩ | ⟨w, rfl, hrest⟩
  · have hreturn := ht w v hrest
    rw [List.getLast?_append, hreturn, Option.some_or]
  · cases w with
    | nil =>
        -- The second text would begin with its `\n`.
        have hbegins := ht [] v hrest.symm
        cases hbegins
    | cons c w =>
        obtain ⟨rfl, _⟩ := List.cons.inj hrest
        exact hs u w rfl

end Text

variable {header body : Text}

/-- The separator is one or two line endings. -/
theorem separator_returned (hcrlf : ['\r', '\n'] <:+: header) : (separator header).Returned := by
  have hending : lineEnding header = ['\r', '\n'] := if_pos (Text.occursIn_iff.mpr hcrlf)
  rw [separator, hending]
  split
  · exact Text.returned_crlf
  · exact Text.returned_crlf.append Text.returned_crlf

/-- A header without `\r` is followed by a separator without one. -/
theorem return_not_mem_separator (hheader : '\r' ∉ header) : '\r' ∉ separator header := by
  have hending : lineEnding header = ['\n'] := by
    apply if_neg
    intro hoccurs
    exact hheader ((Text.occursIn_iff.mp hoccurs).subset List.mem_cons_self)
  rw [separator, hending]
  split <;> decide

/-- **The header, one blank line, the text.**  If the header is not empty and does not
end in `\r`, the lines of the whole are the lines of the header, an empty line and the
lines of the text, and the text is the end of the whole.  Line endings are not mixed:
if the header contains `\r\n` and every `\n` of the header and of the text comes right
after a `\r`, so does every `\n` of the whole; and if neither of them contains `\r`,
the whole contains none. -/
theorem prependHeader_lines (header body : Text) :
    (header ≠ [] → header.getLast? ≠ some '\r' →
      Text.lines (prependHeader header body) = Text.lines header ++ [[]] ++ Text.lines body) ∧
    body <:+ prependHeader header body ∧
    (['\r', '\n'] <:+: header → header.Returned → body.Returned →
      (prependHeader header body).Returned) ∧
    ('\r' ∉ header → '\r' ∉ body → '\r' ∉ prependHeader header body) := by
  refine ⟨?_, List.suffix_append _ body, ?_, ?_⟩
  · intro hne hreturn
    rw [prependHeader, List.append_assoc, separator]
    by_cases hended : header.getLast? = some '\n'
    · rw [if_pos hended]
      exact Text.lines_append_blank header (.inr hended) body
    · -- The first line ending belongs to the last line of the header.
      rw [if_neg hended, List.append_assoc, ← List.append_assoc,
        Text.lines_append_blank header (Text.ended_append_lineEnding header header),
        Text.lines_append_lineEnding_of_open header hne hended hreturn]
  · intro hcrlf hheader hbody
    exact (hheader.append (separator_returned hcrlf)).append hbody
  · intro hheader hbody
    simp [prependHeader, hheader, return_not_mem_separator hheader, hbody]

/-- A header of two lines that are separated by `\r\n`, and a text that begins with a
blank line. -/
theorem prependHeader_lines_sample :
    "a\r\nb".toList ≠ [] ∧ "a\r\nb".toList.getLast? ≠ some '\r' ∧
      Text.lines (prependHeader "a\r\nb".toList "\r\nx\r\n".toList) =
        ["a".toList, "b".toList, [], [], "x".toList] ∧
      ['\r', '\n'] <:+: "a\r\nb".toList ∧ Text.Returned "a\r\nb".toList ∧
      Text.Returned "\r\nx\r\n".toList ∧
      (prependHeader "a\r\nb".toList "\r\nx\r\n".toList).Returned ∧
      '\r' ∉ "c".toList ∧ '\r' ∉ "x\n".toList ∧ '\r' ∉ prependHeader "c".toList "x\n".toList := by
  have hline : ∀ c : Char, c ≠ '\n' → Text.Returned [c] := by
    intro c hc
    exact Text.returned_of_not_mem (by simp [Ne.symm hc])
  have hheader : Text.Returned "a\r\nb".toList :=
    ((hline 'a' (by decide)).append Text.returned_crlf).append (hline 'b' (by decide))
  have hbody : Text.Returned "\r\nx\r\n".toList :=
    (Text.returned_crlf.append (hline 'x' (by decide))).append Text.returned_crlf
  have hcrlf : ['\r', '\n'] <:+: "a\r\nb".toList := by decide
  obtain ⟨hlines, _, hreturned, _⟩ :=
    prependHeader_lines "a\r\nb".toList "\r\nx\r\n".toList
  obtain ⟨_, _, _, hplain⟩ := prependHeader_lines "c".toList "x\n".toList
  refine ⟨by decide, by decide, ?_, hcrlf, hheader, hbody, hreturned hcrlf hheader hbody,
    by decide, by decide, hplain (by decide) (by decide)⟩
  rw [hlines (by decide) (by decide)]
  decide

end LicenseHeaders

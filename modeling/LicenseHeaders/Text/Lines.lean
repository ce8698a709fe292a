import LicenseHeaders.Text.Basic

/-!
# Lines

Two notions of line are in use.  Console output and the one-blank-line rule
for inserted headers count lines that end in `\n` or `\r\n` (`lines`).  Diffs
keep every line with its own ending, where a lone `\r` ends a line as well
(`terminatedLines`), so that the pieces put together again give back the text.

* `join_terminatedLines` — nothing is lost by cutting a text into lines.
-/

namespace LicenseHeaders.Text

/-- The lines of a text without their endings.  A line ends at `\n`, and a
`\r` right before that `\n` belongs to the ending; a last line need not end. -/
def lines (t : Text) : List Text :=
  let pieces := splitOn '\n' t
  let ended := pieces.dropLast.map fun piece => (dropEnding? ['\r'] piece).getD piece
  match pieces.getLast? with
  | none | some [] => ended
  | some last => ended ++ [last]

/-- The lines of a text with their endings, which are `\n`, `\r\n` and a `\r`
that no `\n` follows. -/
def terminatedLines : Text → List Text
  | [] => []
  | '\r' :: '\n' :: rest => ['\r', '\n'] :: terminatedLines rest
  | c :: rest =>
    if c = '\n' ∨ c = '\r' then [c] :: terminatedLines rest
    else
      match terminatedLines rest with
      | [] => [[c]]
      | line :: others => (c :: line) :: others

/-- Whether the last character of a text ends a line. -/
def endsLine (t : Text) : Bool :=
  match t.getLast? with
  | some c => c = '\n' || c = '\r'
  | none => false

theorem join_terminatedLines (t : Text) : (terminatedLines t).flatten = t := by
  fun_induction terminatedLines t <;> simp_all

end LicenseHeaders.Text

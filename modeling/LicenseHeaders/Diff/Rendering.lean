import LicenseHeaders.Diff.Compaction
import LicenseHeaders.Files.Path
import LicenseHeaders.Text.Lines

/-!
# Diffs as text

A diff opens with a title line that names the path.  Every line follows with a
sign in front: a blank for a kept line, `-` for a deleted and `+` for an
inserted one.  Lines bring their own endings; a last line without an ending is
given `\n`, so that each diff line is a line of its own.

* `Rendered` — a text is a diff of two texts, told from the text alone.
-/

namespace LicenseHeaders.Diff

def Mark.sign : Mark → Char
  | .kept => ' '
  | .deleted => '-'
  | .inserted => '+'

/-- A line with its sign and an ending. -/
def renderLine (line : Mark × Text) : Text :=
  line.1.sign :: line.2 ++ (if Text.endsLine line.2 then [] else ['\n'])

/-- The title of a diff. -/
def title (path : Path) : Text :=
  "Diff for ".toList ++ path.text ++ [':', '\n']

/-- The lines of a diff without its title. -/
def renderLines (old new : Text) : Text :=
  (compare (Text.terminatedLines old) (Text.terminatedLines new)).flatMap renderLine

/-- The diff between two versions of the file at a path. -/
def render (path : Path) (old new : Text) : Text :=
  title path ++ renderLines old new

/-- A text with `\n` added when it is not empty and does not end a line. -/
def closed (t : Text) : Text :=
  if t = [] ∨ Text.endsLine t then t else t ++ ['\n']

/-- The lines of a diff whose sign is among the given ones, without it. -/
def select (signs : List Char) (diff : Text) : Text :=
  (Text.terminatedLines diff).flatMap fun line =>
    match line with
    | sign :: rest => if sign ∈ signs then rest else []
    | [] => []

/-- The text is a list of signed lines that spell both versions. -/
def Rendered (old new diff : Text) : Prop :=
  (∀ line ∈ Text.terminatedLines diff, ∃ sign rest, line = sign :: rest ∧ sign ∈ [' ', '-', '+']) ∧
  select [' ', '-'] diff = closed old ∧ select [' ', '+'] diff = closed new

end LicenseHeaders.Diff

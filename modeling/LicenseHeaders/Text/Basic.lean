/-!
# Plain text

File contents, header texts, file names and paths are all plain sequences of
characters; nothing in this library looks at the grammar of what it changes.
This module holds the sequences themselves and the measures on them that do
not depend on any notion of line.

* `Text` — a sequence of characters;
* `Text.byteCount` — its length in the encoding a disk uses.
-/

namespace LicenseHeaders

/-- A sequence of characters. -/
abbrev Text := List Char

namespace Text

/-- The number of bytes of a text in UTF-8. -/
def byteCount : Text → Nat
  | [] => 0
  | c :: rest => c.utf8Size + byteCount rest

/-- Texts in the order of their characters. -/
def notAfter (s t : Text) : Bool := !List.lex t s

/-- The texts between the separators; a text with `n` separators has `n + 1`
pieces. -/
def splitOn (separator : Char) : Text → List Text
  | [] => [[]]
  | c :: rest =>
    if c = separator then [] :: splitOn separator rest
    else
      match splitOn separator rest with
      | [] => [[c]]
      | piece :: pieces => (c :: piece) :: pieces

/-- The texts in order with the separator between neighbours. -/
def joinWith (separator : Text) : List Text → Text
  | [] => []
  | [t] => t
  | t :: rest => t ++ separator ++ joinWith separator rest

/-- A text without a given ending, if it has it. -/
def dropEnding? (ending t : Text) : Option Text :=
  if ending.isSuffixOf t then some (t.take (t.length - ending.length)) else none

theorem splitOn_ne_nil (separator : Char) (t : Text) : splitOn separator t ≠ [] := by
  cases t with
  | nil => simp [splitOn]
  | cons c rest =>
    unfold splitOn
    split
    · simp
    · split <;> simp

/-- A text without the separator is one piece. -/
theorem splitOn_of_not_mem {separator : Char} {t : Text} (h : separator ∉ t) :
    splitOn separator t = [t] := by
  induction t with
  | nil => rfl
  | cons c rest ih =>
    have hc : c ≠ separator := fun e => h (e ▸ List.mem_cons_self)
    have hrest : separator ∉ rest := fun e => h (List.mem_cons_of_mem c e)
    rw [splitOn, if_neg hc, ih hrest]

/-- No piece reaches over a separator. -/
theorem splitOn_append (separator : Char) (s t : Text) :
    splitOn separator (s ++ separator :: t) = splitOn separator s ++ splitOn separator t := by
  induction s with
  | nil => simp [splitOn]
  | cons c rest ih =>
    rw [List.cons_append, splitOn, splitOn]
    by_cases hc : c = separator
    · rw [if_pos hc, if_pos hc, ih, List.cons_append]
    · rw [if_neg hc, if_neg hc, ih]
      cases hpieces : splitOn separator rest with
      | nil => exact absurd hpieces (splitOn_ne_nil separator rest)
      | cons piece pieces => rfl

end Text

end LicenseHeaders

import LicenseHeaders.Text.Basic

/-!
# Writing JSON

Values and their two layouts: compact, without any blanks, and over several
lines with two blanks of indentation per level.  In texts only the quote, the
backslash and control characters are escaped.

* `quote` — a text with its quotes and escapes;
* `compact`, `pretty` — the two layouts.
-/

namespace LicenseHeaders.Json

/-- A value to be written.  Numbers are given by their digits. -/
inductive Value where
  | text (t : Text)
  | number (digits : Text)
  | truth (b : Bool)
  | list (items : List Value)
  | object (fields : List (Text × Value))
  deriving Repr

/-- A number from 0 to 15 as a hexadecimal digit. -/
def hexDigit (n : Nat) : Char :=
  if n < 10 then Char.ofNat ('0'.toNat + n) else Char.ofNat ('a'.toNat + (n - 10))

/-- A character as it stands between quotes. -/
def escape (c : Char) : Text :=
  if c = '"' then ['\\', '"']
  else if c = '\\' then ['\\', '\\']
  else if c = '\x08' then ['\\', 'b']
  else if c = '\x0c' then ['\\', 'f']
  else if c = '\n' then ['\\', 'n']
  else if c = '\r' then ['\\', 'r']
  else if c = '\t' then ['\\', 't']
  else if c.toNat < 0x20 then
    ['\\', 'u', '0', '0', hexDigit (c.toNat / 16), hexDigit (c.toNat % 16)]
  else [c]

/-- A text in quotes. -/
def quote (t : Text) : Text := '"' :: t.flatMap escape ++ ['"']

def truthText (b : Bool) : Text := if b then "true".toList else "false".toList

mutual

/-- A value without blanks. -/
def compact : Value → Text
  | .text t => quote t
  | .number digits => digits
  | .truth b => truthText b
  | .list items => '[' :: compactItems items ++ [']']
  | .object fields => '\x7b' :: compactFields fields ++ ['\x7d']

def compactItems : List Value → Text
  | [] => []
  | [v] => compact v
  | v :: rest => compact v ++ ',' :: compactItems rest

def compactFields : List (Text × Value) → Text
  | [] => []
  | [(key, v)] => quote key ++ ':' :: compact v
  | (key, v) :: rest => quote key ++ ':' :: compact v ++ ',' :: compactFields rest

end

/-- A line break and the indentation of a level. -/
def newLine (level : Nat) : Text := '\n' :: List.replicate (2 * level) ' '

mutual

/-- A value over several lines, whose first line stands at a level. -/
def pretty (level : Nat) : Value → Text
  | .text t => quote t
  | .number digits => digits
  | .truth b => truthText b
  | .list [] => ['[', ']']
  | .list (v :: rest) => '[' :: prettyItems (level + 1) (v :: rest) ++ newLine level ++ [']']
  | .object [] => ['\x7b', '\x7d']
  | .object (field :: rest) =>
    '\x7b' :: prettyFields (level + 1) (field :: rest) ++ newLine level ++ ['\x7d']

def prettyItems (level : Nat) : List Value → Text
  | [] => []
  | [v] => newLine level ++ pretty level v
  | v :: rest => newLine level ++ pretty level v ++ ',' :: prettyItems level rest

def prettyFields (level : Nat) : List (Text × Value) → Text
  | [] => []
  | [(key, v)] => newLine level ++ quote key ++ ':' :: ' ' :: pretty level v
  | (key, v) :: rest =>
    newLine level ++ quote key ++ ':' :: ' ' :: pretty level v ++ ',' :: prettyFields level rest

end

end LicenseHeaders.Json

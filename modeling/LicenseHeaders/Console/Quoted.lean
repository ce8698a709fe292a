import LicenseHeaders.Text.Shown

/-!
# Quoted names

Messages about settings show names between double quotes, so that blanks and
controls in them are seen.  Quotes and backslashes are marked by a backslash,
as are the controls that have a letter of their own; any other character that
cannot be shown is written as its number.

* `quoted` — one name;
* `quotedSet` — several names between braces.
-/

namespace LicenseHeaders

/-- A number in lower-case hexadecimal digits between braces. -/
def bracedNumber (n : Nat) : Text :=
  ['\\', 'u', '\x7b'] ++ Nat.toDigits 16 n ++ ['\x7d']

/-- How one character is written between quotes. -/
def quotedChar (c : Char) : Text :=
  match c with
  | '\x00' => ['\\', '0']
  | '\t' => ['\\', 't']
  | '\r' => ['\\', 'r']
  | '\n' => ['\\', 'n']
  | '"' => ['\\', '"']
  | '\\' => ['\\', '\\']
  | c => if Text.canShow c then [c] else bracedNumber c.toNat

/-- A name between quotes. -/
def quoted (t : Text) : Text := '"' :: t.flatMap quotedChar ++ ['"']

/-- Names between braces, each quoted. -/
def quotedSet (names : List Text) : Text :=
  '\x7b' :: Text.joinWith [',', ' '] (names.map quoted) ++ ['\x7d']

end LicenseHeaders

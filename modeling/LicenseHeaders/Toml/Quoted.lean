import LicenseHeaders.Text.Digit

/-!
# Quoted texts

Texts stand in double quotes with escapes, or in single quotes without.  Tripled
quotes let a text run over several lines: a line break right after the opening
is dropped, one or two quotes may stand right before the closing, and between
double quotes a backslash at the end of a line swallows the break and all
blanks after it.

Each reader answers the text and what follows it.  The readers go over the
characters one by one; `skip` characters belong to an escape that has been
read.
-/

namespace LicenseHeaders.Toml

/-- What a reader makes of the beginning of a text, with the rest. -/
abbrev Reader (α : Type) := Text → Option (α × Text)

def isBlank (c : Char) : Bool := c = ' ' || c = '\t'

/-- Characters that may stand in texts and comments on one line. -/
def isPrintable (c : Char) : Bool :=
  c = '\t' || (' ' ≤ c && c.toNat ≠ 0x7f)

/-- The number of characters a line break takes at the beginning of a text. -/
def breakLength : Text → Nat
  | '\n' :: _ => 1
  | '\r' :: '\n' :: _ => 2
  | _ => 0

/-- The character with a number, if the number is one of a character. -/
def charOf? (n : Nat) : Option Char :=
  if n.isValidChar then some (Char.ofNat n) else none

/-- The character that `width` hexadecimal digits stand for. -/
def hexChar? (width : Nat) (t : Text) : Option Char := do
  let digits ← (t.take width).mapM digitValue?
  if digits.length = width then charOf? (digits.foldl (fun n d => 16 * n + d) 0) else none

/-- The character an escape stands for, from what follows the backslash, with
the number of characters taken. -/
def escape? : Text → Option (Char × Nat)
  | 'b' :: _ => some ('\x08', 1)
  | 't' :: _ => some ('\t', 1)
  | 'n' :: _ => some ('\n', 1)
  | 'f' :: _ => some ('\x0c', 1)
  | 'r' :: _ => some ('\r', 1)
  | 'e' :: _ => some ('\x1b', 1)
  | '"' :: _ => some ('"', 1)
  | '\\' :: _ => some ('\\', 1)
  | 'x' :: rest => (hexChar? 2 rest).map (·, 3)
  | 'u' :: rest => (hexChar? 4 rest).map (·, 5)
  | 'U' :: rest => (hexChar? 8 rest).map (·, 9)
  | _ => none

/-- A text in double quotes, after the opening one. -/
def basicFrom : (skip : Nat) → Reader Text
  | _, [] => none
  | skip + 1, _ :: rest => basicFrom skip rest
  | 0, c :: rest =>
    if c = '"' then some ([], rest)
    else if c = '\\' then do
      let (escaped, length) ← escape? rest
      let (t, rest) ← basicFrom length rest
      return (escaped :: t, rest)
    else if isPrintable c then do
      let (t, rest) ← basicFrom 0 rest
      return (c :: t, rest)
    else none

/-- A text in single quotes, after the opening one. -/
def literalFrom : Reader Text
  | [] => none
  | c :: rest =>
    if c = '\'' then some ([], rest)
    else if isPrintable c then do
      let (t, rest) ← literalFrom rest
      return (c :: t, rest)
    else none

/-- The number of quotes at the beginning of a text, if they close a text over
several lines: three, or up to two more that belong to it. -/
def closing? (quote : Char) (t : Text) : Option Nat :=
  let quotes := (t.takeWhile (· = quote)).length
  if quotes < 3 then none else some (min quotes 5)

/-- The number of characters after a backslash that it swallows together with
the end of its line. -/
def foldLength? (t : Text) : Option Nat :=
  let blanks := (t.takeWhile isBlank).length
  match breakLength (t.drop blanks) with
  | 0 => none
  | length => some (blanks + length + swallowed 0 (t.drop (blanks + length)))
where
  /-- The blanks and line breaks at the beginning of a text. -/
  swallowed : Nat → Text → Nat
    | _, [] => 0
    | skip + 1, _ :: rest => swallowed skip rest + 1
    | 0, c :: rest =>
      if isBlank c then swallowed 0 rest + 1
      else
        match breakLength (c :: rest) with
        | 0 => 0
        | length => swallowed (length - 1) rest + 1

/-- A text over several lines, after its opening; `folds` is whether backslashes
have a meaning. -/
def multilineFrom (quote : Char) (folds : Bool) : (skip : Nat) → Reader Text
  | _, [] => none
  | skip + 1, _ :: rest => multilineFrom quote folds skip rest
  | 0, c :: rest =>
    match closing? quote (c :: rest) with
    | some quotes =>
      some (List.replicate (quotes - 3) quote, (c :: rest).drop quotes)
    | none =>
      if folds ∧ c = '\\' then
        match foldLength? rest with
        | some length => multilineFrom quote folds length rest
        | none => do
          let (escaped, length) ← escape? rest
          let (t, rest) ← multilineFrom quote folds length rest
          return (escaped :: t, rest)
      else if isPrintable c ∨ breakLength (c :: rest) = 1 then do
        let (t, rest) ← multilineFrom quote folds 0 rest
        return (c :: t, rest)
      else if breakLength (c :: rest) = 2 then do
        let (t, rest) ← multilineFrom quote folds 1 rest
        return ('\r' :: '\n' :: t, rest)
      else none

/-- The text over several lines after its opening quotes. -/
def multiline (quote : Char) (folds : Bool) : Reader Text := fun t =>
  multilineFrom quote folds 0 (t.drop (breakLength t))

/-- A text in quotes on one line. -/
def quotedOnLine : Reader Text
  | '"' :: rest => basicFrom 0 rest
  | '\'' :: rest => literalFrom rest
  | _ => none

/-- A text in quotes of any kind. -/
def quoted : Reader Text
  | '"' :: '"' :: '"' :: rest => multiline '"' true rest
  | '\'' :: '\'' :: '\'' :: rest => multiline '\'' false rest
  | t => quotedOnLine t

end LicenseHeaders.Toml

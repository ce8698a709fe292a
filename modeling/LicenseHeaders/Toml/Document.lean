import LicenseHeaders.Toml.Quoted
import LicenseHeaders.Toml.Scalar

/-!
# Reading a settings document

A document is a sequence of lines: headers in brackets, which open a table, and
keys with values, which go into the open table.  Blank lines, blanks around the
parts and comments carry no meaning.  Arrays and inline tables may run over
several lines and end in a comma; they nest to a limited depth, and keys have a
limited number of parts.

* `document` — the table that a text describes, or nothing when the text is no
  document.
-/

namespace LicenseHeaders.Toml

/-- How deep arrays and inline tables may nest. -/
def depthLimit : Nat := 80

/-- How many parts a key may have. -/
def keyLimit : Nat := 80

/-- What follows a comment, from its `#` on. -/
def afterComment (t : Text) : Option Text :=
  let comment := t.takeWhile fun c => c ≠ '\n' && c ≠ '\r'
  if comment.all isPrintable then some (t.drop comment.length) else none

def dropBlanks (t : Text) : Text := t.dropWhile isBlank

/-- What follows blanks, line breaks and comments. -/
def dropFiller : (turns : Nat) → Text → Option Text
  | 0, t => some t
  | turns + 1, t =>
    match dropBlanks t with
    | [] => some []
    | '#' :: rest => do dropFiller turns (← afterComment ('#' :: rest))
    | t =>
      match breakLength t with
      | 0 => some t
      | length => dropFiller turns (t.drop length)

/-- What follows blanks, line breaks and comments. -/
def afterFiller (t : Text) : Option Text := dropFiller (2 * t.length + 1) t

def isBareKey (c : Char) : Bool := c.isAlphanum || c = '_' || c = '-'

/-- One part of a key. -/
def simpleKey : Reader Text
  | '"' :: '"' :: '"' :: _ => none
  | '\'' :: '\'' :: '\'' :: _ => none
  | '"' :: rest => basicFrom 0 rest
  | '\'' :: rest => literalFrom rest
  | t =>
    let key := t.takeWhile isBareKey
    if key.isEmpty then none else some (key, t.drop key.length)

/-- The parts of a key, divided by dots. -/
def dottedKey : (parts : Nat) → Reader (List Text)
  | 0, _ => none
  | parts + 1, t => do
    let (key, t) ← simpleKey (dropBlanks t)
    match dropBlanks t with
    | '.' :: rest => do
      let (keys, t) ← dottedKey parts rest
      return (key :: keys, t)
    | t => return ([key], t)

/-- A key with its parts, and what follows it and the blanks after it. -/
def key (t : Text) : Option (List Text × Text) := dottedKey keyLimit t

/-- A word without quotes ends before these. -/
def endsWord (c : Char) : Bool :=
  isBlank c || c ∈ ['\n', '\r', '#', ',', '=', '[', ']', '\x7b', '\x7d']

/-- A value without quotes.  A date and a time may be divided by a blank. -/
def word : Reader Scalar := fun t =>
  let first := t.takeWhile fun c => !endsWord c
  let rest := t.drop first.length
  match rest with
  | ' ' :: c :: more =>
    if isDate first ∧ c.isDigit then
      let second := (c :: more).takeWhile fun c => !endsWord c
      (scalar? (first ++ ' ' :: second)).map (·, (c :: more).drop second.length)
    else (scalar? first).map (·, rest)
  | _ => (scalar? first).map (·, rest)

/-- The items of an array after its opening bracket or a comma. -/
def arrayItems (value : Reader Value) : (items : Nat) → Reader (List Value)
  | 0, _ => none
  | items + 1, t => do
    match ← afterFiller t with
    | ']' :: rest => return ([], rest)
    | t => do
      let (item, t) ← value t
      match ← afterFiller t with
      | ',' :: rest => do
        let (others, t) ← arrayItems value items rest
        return (item :: others, t)
      | ']' :: rest => return ([item], rest)
      | _ => none

/-- A key, an equals sign and a value. -/
def keyValue (value : Reader Value) : Reader (List Text × Value) := fun t => do
  let (path, t) ← key t
  let t ← takeChar '=' t
  let (v, t) ← value (dropBlanks t)
  return ((path, v), t)

/-- Adds a value under the parts of a key. -/
def addUnder (path : List Text) (value : Value) (form : Form) (entries : Entries) :
    Option Entries :=
  match path.getLast? with
  | some last => addDotted path.dropLast last value form entries
  | none => none

/-- The entries of an inline table after its opening brace or a comma, added to
those before. -/
def inlineEntries (value : Reader Value) : (items : Nat) → Entries → Reader Entries
  | 0, _, _ => none
  | items + 1, entries, t => do
    match ← afterFiller t with
    | '\x7d' :: rest => return (entries, rest)
    | t => do
      let ((path, v), t) ← keyValue value t
      let entries ← addUnder path v .inline entries
      match ← afterFiller t with
      | ',' :: rest => inlineEntries value items entries rest
      | '\x7d' :: rest => return (entries, rest)
      | _ => none

/-- A value, with arrays and inline tables nested up to a depth. -/
def value : (depth : Nat) → Reader Value
  | _, [] => none
  | depth, c :: rest =>
    if c = '"' ∨ c = '\'' then (quoted (c :: rest)).map fun (t, rest) => (.text t, rest)
    else if c = '[' then
      match depth with
      | 0 => none
      | depth + 1 =>
        (arrayItems (value depth) (rest.length + 1) rest).map fun (items, rest) =>
          (.array items, rest)
    else if c = '\x7b' then
      match depth with
      | 0 => none
      | depth + 1 =>
        (inlineEntries (value depth) (rest.length + 1) [] rest).map fun (entries, rest) =>
          (.table .inline entries, rest)
    else (word (c :: rest)).map fun (s, rest) => (.scalar s, rest)

/-- What follows the rest of a line, which may hold only blanks and a
comment. -/
def afterLine (t : Text) : Option Text := do
  let t ← match dropBlanks t with
    | '#' :: rest => afterComment ('#' :: rest)
    | t => some t
  match t with
  | [] => some []
  | t =>
    match breakLength t with
    | 0 => none
    | length => some (t.drop length)

/-- Opens the table of a header, with `act` on the last part of its key. -/
def openAt (act : Text → Entries → Option Entries) (path : List Text) (root : Entries) :
    Option Entries :=
  match path.getLast? with
  | some last => changeAt .implied (fun _ entries => act last entries) path.dropLast .header root
  | none => none

/-- Reads the lines of a document; `current` leads to the open table. -/
def lines : (turns : Nat) → (current : List Text) → Entries → Text → Option Entries
  | 0, _, _, _ => none
  | turns + 1, current, root, t => do
    match ← afterFiller t with
    | [] => some root
    | '[' :: '[' :: rest => do
      let (path, t) ← key rest
      let t ← takeChar ']' t
      let t ← takeChar ']' t
      let root ← openAt openNext path root
      lines turns path root (← afterLine t)
    | '[' :: rest => do
      let (path, t) ← key rest
      let t ← takeChar ']' t
      let root ← openAt openTable path root
      lines turns path root (← afterLine t)
    | t => do
      let ((path, v), t) ← keyValue (value depthLimit) t
      let root ← changeAt .implied (addUnder path v) current .header root
      lines turns current root (← afterLine t)

/-- The table a text describes.  A byte order mark in front is no part of it. -/
def document (t : Text) : Option Entries :=
  let t := match t with
    | '\ufeff' :: rest => rest
    | t => t
  lines (t.length + 1) [] [] t

end LicenseHeaders.Toml

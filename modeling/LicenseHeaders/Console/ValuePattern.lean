import LicenseHeaders.Text.Digit
import LicenseHeaders.Text.Letter

/-!
# Patterns for the values of fields

A log rule may ask for the value of a field: a number, or a text that matches a
regular expression.  No message has such a value, so only the form of the
pattern matters.  It is read from left to right with the modes in force, a
stack of the modes to return to at the end of each open group, and whether
there is something to repeat.  Sets between brackets nest and can be
intersected, subtracted and compared.

A pattern stands between an equals sign and a brace or comma, so bounded
repetitions and numbers in braces never get closed.  It has to match whole
characters only, and no tables of the characters of all scripts are at hand:
classes such as that of all digits, the borders of words and disregard of case
exist for ASCII alone, under the mode that speaks of bytes.

* `isRegular` — whether a text is a regular expression;
* `isNumeric` — whether a text is a number, or one of the words for numbers that
  have no digits;
* `isValuePattern` — whether a value can be asked for by a text.
-/

namespace LicenseHeaders.ValuePattern

/-- How the characters of a pattern are taken. -/
structure Modes where
  /-- The pattern speaks of characters, not of bytes. -/
  characters : Bool := true
  ignoresCase : Bool := false
  /-- Blanks and comments mean nothing. -/
  spaced : Bool := false
  deriving DecidableEq, Repr

namespace Modes

/-- What follows blanks and comments, where they mean nothing. -/
def dropFiller (m : Modes) : (turns : Nat) → Text → Text
  | turns + 1, c :: rest =>
    if !m.spaced then c :: rest
    else if Text.isBlank c then m.dropFiller turns rest
    else if c = '#' then m.dropFiller turns (rest.dropWhile (· ≠ '\n'))
    else c :: rest
  | _, t => t

/-- What follows blanks and comments, where they mean nothing. -/
def afterFiller (m : Modes) (t : Text) : Text := m.dropFiller t.length t

/-- The modes with those that letters name switched on, and off after a minus
sign. -/
def switch (letters : Text) (m : Modes) : Modes :=
  let switchedOn := letters.takeWhile (· ≠ '-')
  let state := fun (letter : Char) (before : Bool) =>
    if letter ∈ letters then decide (letter ∈ switchedOn) else before
  { characters := state 'u' m.characters
    ignoresCase := state 'i' m.ignoresCase
    spaced := state 'x' m.spaced }

/-- Whether letters can be matched: disregard of case is out of reach for the
characters of all scripts. -/
def matchesLetters (m : Modes) : Bool := !(m.characters && m.ignoresCase)

end Modes

/-- The letters of modes with the character that ends them, and what follows. -/
def modeLetters? (t : Text) : Option (Text × Char × Text) :=
  let letters := t.takeWhile fun c => c ≠ ':' && c ≠ ')'
  match t.drop letters.length with
  | [] => none
  | ending :: rest =>
    if letters.all (· ∈ "-imsRUux".toList) ∧ letters.Nodup ∧ letters.getLast? ≠ some '-' then
      some (letters, ending, rest)
    else none

/-- What an escape or a single character stands for. -/
inductive Atom where
  | character (number : Nat)
  /-- One of the classes of digits, blanks and word characters, or what is not in
  it. -/
  | familiar (complement : Bool)
  /-- A place between characters. -/
  | place
  deriving DecidableEq, Repr

/-- A number of hexadecimal digits, appended to those before. -/
def hexDigits (m : Modes) : (count : Nat) → (number : Nat) → Text → Option (Nat × Text)
  | 0, number, t => some (number, t)
  | count + 1, number, t =>
    match m.afterFiller t with
    | [] => none
    | c :: rest => do
      let d ← digitValue? c
      hexDigits m count (16 * number + d) rest

/-- The character that hexadecimal digits stand for.  Two digits stand for a byte
where the pattern speaks of bytes, and only some bytes are characters. -/
def hexEscape (m : Modes) (count : Nat) (t : Text) : Option (Atom × Text) := do
  let (number, rest) ← hexDigits m count 0 t
  if number.isValidChar ∧ (m.characters ∨ count ≠ 2 ∨ number < 128) then
    some (.character number, rest)
  else none

/-- What an escape stands for, after its backslash. -/
def escape (m : Modes) : Text → Option (Atom × Text)
  | [] => none
  | c :: rest =>
    match c with
    | 'x' => hexEscape m 2 rest
    | 'u' => hexEscape m 4 rest
    | 'U' => hexEscape m 8 rest
    | 'a' => some (.character 7, rest)
    | 't' => some (.character 9, rest)
    | 'n' => some (.character 10, rest)
    | 'v' => some (.character 11, rest)
    | 'f' => some (.character 12, rest)
    | 'r' => some (.character 13, rest)
    | 'A' => some (.place, rest)
    | 'z' => some (.place, rest)
    | _ =>
      if c ∈ ['d', 's', 'w'] then if m.characters then none else some (.familiar false, rest)
      else if c ∈ ['b', 'B', '<', '>'] then if m.characters then none else some (.place, rest)
      else if c.isAlphanum ∨ c.toNat > 127 then none
      else some (.character c.toNat, rest)

/-! ## Sets between brackets -/

/-- How a set is combined with the one before it. -/
inductive Combination where
  | intersection
  | difference
  | symmetric
  deriving DecidableEq, Repr

/-- Whether a combined set holds something, given whether its parts do, where
each part holds all of it or nothing of it. -/
def Combination.holds : Combination → Bool → Bool → Bool
  | .intersection, a, b => a && b
  | .difference, a, b => a && !b
  | .symmetric, a, b => a != b

/-- A set that is being read.  Of the bytes that are no characters by themselves a
set holds all or none, which is what `high` tells. -/
structure Bracket where
  complement : Bool
  earlier : Option (Combination × Bool) := none
  high : Bool := false
  deriving Repr

namespace Bracket

/-- Adds an item to a set. -/
def add (high : Bool) (b : Bracket) : Bracket := { b with high := b.high || high }

/-- Whether what has been read holds the high bytes. -/
def combined (b : Bracket) : Bool :=
  match b.earlier with
  | none => b.high
  | some (how, before) => how.holds before b.high

/-- Combines what has been read with what follows. -/
def combine (how : Combination) (b : Bracket) : Bracket :=
  { b with earlier := some (how, b.combined), high := false }

/-- Whether the complete set holds the high bytes. -/
def result (b : Bracket) : Bool := b.combined != b.complement

end Bracket

/-- The set that an opening bracket begins.  Dashes right after it and a closing
bracket in the first place are items. -/
def openBracket (m : Modes) (t : Text) : Bracket × Text :=
  let (complement, t) := match m.afterFiller t with
    | '^' :: rest => (true, m.afterFiller rest)
    | t => (false, t)
  let rest := match t with
    | ']' :: rest => rest
    | t => t.dropWhile fun c => c = '-' || (m.spaced && Text.isBlank c)
  (⟨complement, none, false⟩, rest)

/-- The classes that are named between colons. -/
def classNames : List String :=
  ["alnum", "alpha", "ascii", "blank", "cntrl", "digit", "graph", "lower", "print", "punct",
    "space", "upper", "word", "xdigit"]

/-- Whether a class named between colons is meant by its complement, from what
follows the opening bracket. -/
def namedClass? : Text → Option (Bool × Text)
  | ':' :: t =>
    let (complement, t) := match t with
      | '^' :: rest => (true, rest)
      | t => (false, t)
    let name := t.takeWhile (· ≠ ':')
    match t.drop name.length with
    | ':' :: ']' :: rest =>
      if String.ofList name ∈ classNames then some (complement, rest) else none
    | _ => none
  | _ => none

/-- One end of a range, or an item by itself. -/
def classAtom (m : Modes) (t : Text) : Option (Atom × Text) := do
  let (a, rest) ← match t with
    | [] => none
    | '\\' :: rest => escape m rest
    | c :: rest => some (.character c.toNat, rest)
  match a with
  | .place => none
  | .character number => if m.characters ∨ number < 128 then some (a, rest) else none
  | .familiar _ => some (a, rest)

/-- What follows an item of a set: a character, a class or a range. -/
def afterItem (m : Modes) (t : Text) : Option Text := do
  let (a, t) ← classAtom m t
  match m.afterFiller t with
  | [] => none
  | '-' :: rest =>
    match m.afterFiller rest with
    | [] => none
    | c :: more =>
      if c = ']' ∨ c = '-' then some ('-' :: rest)
      else do
        let (z, t) ← classAtom m (c :: more)
        match a, z with
        | .character first, .character last => if first ≤ last then some t else none
        | _, _ => none
  | t => some t

/-- What follows the innermost of some open sets and all around it. -/
def afterBrackets (m : Modes) : (turns : Nat) → List Bracket → Text → Option Text
  | _, [], t => some t
  | 0, _, _ => none
  | turns + 1, b :: outer, t =>
    match m.afterFiller t with
    | [] => none
    | ']' :: rest =>
      if b.result ∧ !m.characters then none
      else
        match outer with
        | [] => some rest
        | o :: outer => afterBrackets m turns (o.add b.result :: outer) rest
    | '[' :: rest =>
      match namedClass? rest with
      | some (complement, rest) => afterBrackets m turns (b.add complement :: outer) rest
      | none =>
        let (inner, rest) := openBracket m rest
        afterBrackets m turns (inner :: b :: outer) rest
    | '&' :: '&' :: rest => afterBrackets m turns (b.combine .intersection :: outer) rest
    | '-' :: '-' :: rest => afterBrackets m turns (b.combine .difference :: outer) rest
    | '~' :: '~' :: rest => afterBrackets m turns (b.combine .symmetric :: outer) rest
    | t => do afterBrackets m turns (b :: outer) (← afterItem m t)

/-- What follows a set, after its opening bracket. -/
def afterSet (m : Modes) (t : Text) : Option Text :=
  let (b, rest) := openBracket m t
  afterBrackets m (rest.length + 1) [b] rest

/-! ## The whole pattern -/

/-- What has been read of a pattern. -/
structure Reading where
  modes : Modes := {}
  /-- The modes to return to at the end of each open group, the innermost
  first. -/
  outer : List Modes := []
  /-- Whether something stands in front that can be repeated. -/
  repeatable : Bool := false
  /-- The names of groups. -/
  names : List Text := []
  deriving Repr

namespace Reading

/-- The reading after something that can be repeated. -/
def item (r : Reading) : Reading := { r with repeatable := true }

/-- The reading at the beginning of a group. -/
def enter (modes : Modes) (r : Reading) : Reading :=
  { r with modes, outer := r.modes :: r.outer, repeatable := false }

/-- Whether a text can be the name of a group. -/
def isName : Text → Bool
  | [] => false
  | first :: others =>
    (first = '_' || Text.isLetter first)
      && others.all fun c => c ∈ ['_', '.', '[', ']'] || Text.isWordChar c

/-- A group with a name. -/
def enterNamed (r : Reading) (t : Text) : Option (Reading × Text) :=
  let name := t.takeWhile (· ≠ '>')
  match t.drop name.length with
  | [] => none
  | _ :: rest =>
    if isName name && !r.names.contains name then
      some ({ r.enter r.modes with names := name :: r.names }, rest)
    else none

/-- What an opening parenthesis begins: a group with or without a name, one with
modes of its own, or a change of the modes in the rest of the group around. -/
def parenthesis (r : Reading) (t : Text) : Option (Reading × Text) :=
  match r.modes.afterFiller t with
  | '?' :: 'P' :: '<' :: rest => r.enterNamed rest
  | '?' :: '<' :: rest => r.enterNamed rest
  | '?' :: rest => do
    let (letters, ending, rest) ← modeLetters? rest
    let modes := r.modes.switch letters
    if ending = ':' then some (r.enter modes, rest)
    else if letters.isEmpty then none
    else some ({ r with modes, repeatable := false }, rest)
  | t => some (r.enter r.modes, t)

/-- The reading after one more piece of the pattern. -/
def next (r : Reading) (c : Char) (rest : Text) : Option (Reading × Text) :=
  match c with
  | '(' => r.parenthesis rest
  | ')' =>
    match r.outer with
    | [] => none
    | modes :: outer => some ({ r with modes, outer, repeatable := true }, rest)
  | '|' => some ({ r with repeatable := false }, rest)
  | '[' =>
    if r.modes.matchesLetters then (afterSet r.modes rest).map (r.item, ·) else none
  | '\x7b' => none
  | '.' => if r.modes.characters then some (r.item, rest) else none
  | '^' => some (r.item, rest)
  | '$' => some (r.item, rest)
  | '\\' => do
    match ← escape r.modes rest with
    | (.character _, rest) => if r.modes.matchesLetters then some (r.item, rest) else none
    | (.familiar _, rest) => some (r.item, rest)
    | (.place, rest) => some (r.item, rest)
  | _ =>
    if c ∈ ['?', '*', '+'] then if r.repeatable then some (r, rest) else none
    else if r.modes.matchesLetters then some (r.item, rest)
    else none

/-- Whether a pattern can go on with a text and end there. -/
def accepts : (turns : Nat) → Reading → Text → Bool
  | 0, _, _ => false
  | turns + 1, r, t =>
    match r.modes.afterFiller t with
    | [] => r.outer.isEmpty
    | c :: rest =>
      match r.next c rest with
      | none => false
      | some (r, rest) => accepts turns r rest

end Reading

/-- Whether a text is a regular expression. -/
def isRegular (t : Text) : Bool := Reading.accepts (t.length + 1) {} t

/-- Whether a text is a number without a sign: digits, a point among or beside
them, and an exponent. -/
def isUnsigned (t : Text) : Bool :=
  let whole := t.takeWhile Char.isDigit
  let t := t.drop whole.length
  let (fraction, t) := match t with
    | '.' :: rest => (rest.takeWhile Char.isDigit, rest.dropWhile Char.isDigit)
    | t => ([], t)
  let exponent := match t with
    | [] => true
    | e :: rest =>
      let digits := match rest with
        | '+' :: digits => digits
        | '-' :: digits => digits
        | digits => digits
      (e = 'e' || e = 'E') && !digits.isEmpty && digits.all Char.isDigit
  !(whole.isEmpty && fraction.isEmpty) && exponent

/-- Whether a text is a number, or a word for one that has no digits. -/
def isNumeric (t : Text) : Bool :=
  let t := match t with
    | '+' :: rest => rest
    | '-' :: rest => rest
    | t => t
  isUnsigned t || String.ofList (t.map Char.toLower) ∈ ["inf", "infinity", "nan"]

end ValuePattern

/-- Whether a text is a pattern for the value of a field. -/
def isValuePattern (t : Text) : Bool := ValuePattern.isNumeric t || ValuePattern.isRegular t

end LicenseHeaders

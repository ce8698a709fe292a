import LicenseHeaders.Json.Numeral
import LicenseHeaders.Text.Digit

/-!
# Reading JSON piece by piece

A reader takes its piece off the beginning of a text.  Reading stops at the
first fault: the text ends too early, it is not JSON, or it is JSON of another
shape than the one expected.  What shape is found is told from the beginning
of a value, which has to be sound for the shape to be at fault.

Values that nobody asks for are skipped.  They have to be well formed, but
neither paired surrogates nor the size of numbers matter in them.

* `string` — a text with its escapes resolved;
* `skipValue` — what follows a value of any shape;
* `unexpected` — the fault of a value of the wrong shape.
-/

namespace LicenseHeaders.Json

/-- What is wrong with a text. -/
inductive Fault where
  | ended
  | malformed
  | unfitting
  deriving DecidableEq, Repr

/-- What a reader makes of the beginning of a text, with the rest. -/
abbrev Reader (α : Type) := Text → Except Fault (α × Text)

def isSpace (c : Char) : Bool := c = ' ' || c = '\n' || c = '\t' || c = '\r'

def dropSpace (t : Text) : Text := t.dropWhile isSpace

/-- The number that four hexadecimal digits spell.  The text has ended when
fewer than four bytes are left. -/
def fourHex (t : Text) : Except Fault Nat :=
  if Text.byteCount (t.take 4) < 4 then .error .ended
  else
    match (t.take 4).mapM digitValue? with
    | some [a, b, c, d] => .ok (((a * 16 + b) * 16 + c) * 16 + d)
    | _ => .error .malformed

def isLeading (n : Nat) : Bool := 0xD800 ≤ n && n ≤ 0xDBFF
def isTrailing (n : Nat) : Bool := 0xDC00 ≤ n && n ≤ 0xDFFF

/-- The character that a pair of surrogates stands for. -/
def pairedChar (leading trailing : Nat) : Char :=
  Char.ofNat ((leading - 0xD800) * 0x400 + (trailing - 0xDC00) + 0x10000)

/-- The character of a numeric escape, from what follows its `u`, with the
number of characters taken. -/
def unicodeEscape (t : Text) : Except Fault (Char × Nat) := do
  let n ← fourHex t
  if isTrailing n then .error .malformed
  else if isLeading n then
    match t.drop 4 with
    | [] => .error .ended
    | ['\\'] => .error .ended
    | '\\' :: 'u' :: rest => do
      let m ← fourHex rest
      if isTrailing m then .ok (pairedChar n m, 10) else .error .malformed
    | _ => .error .malformed
  else .ok (Char.ofNat n, 4)

/-- The character an escape stands for, from what follows the backslash, with
the number of characters taken. -/
def escaped : Text → Except Fault (Char × Nat)
  | [] => .error .ended
  | c :: rest =>
    match c with
    | '"' | '\\' | '/' => .ok (c, 1)
    | 'b' => .ok ('\x08', 1)
    | 'f' => .ok ('\x0c', 1)
    | 'n' => .ok ('\n', 1)
    | 'r' => .ok ('\r', 1)
    | 't' => .ok ('\t', 1)
    | 'u' => (unicodeEscape rest).map fun (c, length) => (c, length + 1)
    | _ => .error .malformed

/-- A text after its opening quote; `skip` characters belong to an escape. -/
def stringFrom : (skip : Nat) → Reader Text
  | _, [] => .error .ended
  | skip + 1, _ :: rest => stringFrom skip rest
  | 0, c :: rest =>
    if c = '"' then .ok ([], rest)
    else if c = '\\' then do
      let (e, length) ← escaped rest
      let (t, rest) ← stringFrom length rest
      return (e :: t, rest)
    else if c.toNat < 0x20 then .error .malformed
    else do
      let (t, rest) ← stringFrom 0 rest
      return (c :: t, rest)

/-- A text after its opening quote. -/
def string : Reader Text := stringFrom 0

/-- The number of characters an escape takes when nobody asks for its
character. -/
def escapeLength : Text → Except Fault Nat
  | [] => .error .ended
  | c :: rest =>
    if c ∈ ['"', '\\', '/', 'b', 'f', 'n', 'r', 't'] then .ok 1
    else if c = 'u' then (fourHex rest).map fun _ => 5
    else .error .malformed

/-- What follows a text that nobody asks for, after its opening quote. -/
def skipStringFrom : (skip : Nat) → Text → Except Fault Text
  | _, [] => .error .ended
  | skip + 1, _ :: rest => skipStringFrom skip rest
  | 0, c :: rest =>
    if c = '"' then .ok rest
    else if c = '\\' then do skipStringFrom (← escapeLength rest) rest
    else if c.toNat < 0x20 then .error .malformed
    else skipStringFrom 0 rest

/-- What follows a word such as `null`. -/
def word : (letters : Text) → Text → Except Fault Text
  | [], t => .ok t
  | _ :: _, [] => .error .ended
  | letter :: letters, c :: rest => if c = letter then word letters rest else .error .malformed

/-- The digits at the beginning of a text, of which there has to be one. -/
def digits (missing : Text → Fault) : Reader Text := fun t =>
  let ds := t.takeWhile Char.isDigit
  if ds.isEmpty then .error (missing t) else .ok (ds, t.drop ds.length)

/-- The digits after a point, if there is one. -/
def places (missing : Text → Fault) : Reader Text
  | '.' :: rest => digits missing rest
  | t => .ok ([], t)

/-- The sign of an exponent, which can be left out, and what follows it. -/
def exponentSign : Text → Int × Text
  | '-' :: rest => (-1, rest)
  | '+' :: rest => (1, rest)
  | t => (1, t)

/-- An exponent, which is zero where there is none. -/
def exponent (missing : Text → Fault) : Reader Int
  | c :: rest =>
    if c = 'e' ∨ c = 'E' then do
      let (sign, t) := exponentSign rest
      let (ds, t) ← digits missing t
      return (sign * Text.valueIn 10 ds, t)
    else .ok (0, c :: rest)
  | [] => .ok (0, [])

/-- A number without its sign. -/
def magnitude (missing : Text → Fault) : Reader Numeral := fun t => do
  let (whole, t) ← digits missing t
  if whole.length > 1 ∧ whole.head? = some '0' then .error .malformed
  else
    let (fraction, t) ← places missing t
    let (power, t) ← exponent missing t
    return (⟨whole, fraction, power⟩, t)

/-- A number.  `missing` is the fault when a digit is expected and another text
is found. -/
def number (missing : Text → Fault) : Reader Numeral
  | '-' :: rest => magnitude missing rest
  | t => magnitude missing t

/-- In a number that is asked for, the text may end where a digit should be. -/
def missingDigit : Text → Fault
  | [] => .ended
  | _ => .malformed

mutual

/-- What follows a value that nobody asks for. -/
def skipWithin : (turns : Nat) → Text → Except Fault Text
  | 0, _ => .error .ended
  | turns + 1, t =>
    match dropSpace t with
    | [] => .error .ended
    | c :: rest =>
      match c with
      | 'n' => word "ull".toList rest
      | 't' => word "rue".toList rest
      | 'f' => word "alse".toList rest
      | '"' => skipStringFrom 0 rest
      | '[' =>
        match dropSpace rest with
        | ']' :: rest => .ok rest
        | [] => .error .ended
        | t => skipItems turns t
      | '\x7b' =>
        match dropSpace rest with
        | '\x7d' :: rest => .ok rest
        | [] => .error .ended
        | t => skipFields turns t
      | _ =>
        if c = '-' ∨ c.isDigit then (number (fun _ => .malformed) (c :: rest)).map (·.2)
        else .error .malformed

/-- What follows the items of a list. -/
def skipItems : (turns : Nat) → Text → Except Fault Text
  | 0, _ => .error .ended
  | turns + 1, t => do
    match dropSpace (← skipWithin turns t) with
    | ',' :: rest => skipItems turns rest
    | ']' :: rest => .ok rest
    | [] => .error .ended
    | _ => .error .malformed

/-- What follows the fields of an object. -/
def skipFields : (turns : Nat) → Text → Except Fault Text
  | 0, _ => .error .ended
  | turns + 1, t => do
    let t ← match dropSpace t with
      | '"' :: rest => skipStringFrom 0 rest
      | [] => .error .ended
      | _ => .error .malformed
    let t ← match dropSpace t with
      | ':' :: rest => .ok rest
      | [] => .error .ended
      | _ => .error .malformed
    match dropSpace (← skipWithin turns t) with
    | ',' :: rest => skipFields turns rest
    | '\x7d' :: rest => .ok rest
    | [] => .error .ended
    | _ => .error .malformed

end

/-- What follows a value that nobody asks for. -/
def skipValue (t : Text) : Except Fault Text := skipWithin (2 * t.length + 2) t

/-- The fault of a value whose shape is not the expected one. -/
def unexpected (t : Text) : Fault :=
  match dropSpace t with
  | [] => .ended
  | c :: rest =>
    let faultOf : {α : Type} → Except Fault α → Fault := fun
      | .ok _ => .unfitting
      | .error fault => fault
    match c with
    | 'n' => faultOf (word "ull".toList rest)
    | 't' => faultOf (word "rue".toList rest)
    | 'f' => faultOf (word "alse".toList rest)
    | '"' => faultOf (string rest)
    | '[' => .unfitting
    | '\x7b' => .unfitting
    | _ =>
      if c = '-' ∨ c.isDigit then
        match number missingDigit (c :: rest) with
        | .error fault => fault
        | .ok (n, _) => if n.isRepresentable then .unfitting else .malformed
      else .malformed

/-- A text where one is expected. -/
def expectString : Reader Text := fun t =>
  match dropSpace t with
  | '"' :: rest => string rest
  | t => .error (unexpected t)

/-- A given character after blanks; `fault` when another one is found. -/
def expectChar (c : Char) (t : Text) : Except Fault Text :=
  match dropSpace t with
  | [] => .error .ended
  | d :: rest => if c = d then .ok rest else .error .malformed

/-- The word `null` or the beginning of a text where either may stand. -/
def optionalString : Reader (Option Text) := fun t =>
  match dropSpace t with
  | 'n' :: rest => (word "ull".toList rest).map fun rest => (none, rest)
  | t => (expectString t).map fun (s, rest) => (some s, rest)

end LicenseHeaders.Json

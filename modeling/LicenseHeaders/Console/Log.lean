import LicenseHeaders.Console.Quoted
import LicenseHeaders.Console.Style
import LicenseHeaders.Console.ValuePattern
import LicenseHeaders.Event

/-!
# Which messages are logged, and how

A log filter is a list of rules.  Each speaks of the parts of the program whose
names begin with a certain text, or of all parts, and sets the most detailed
level at which those parts may speak.  Where several rules apply, the one with
the longest beginning decides, of those one that asks for a field, and of two
that are as precise the later.

The usual filter has one rule, set by how quiet or verbose a run is to be.  An
environment variable can replace it: rules stand between commas, written
`level`, `name` or `name=level`.  After the name a rule may be confined in
brackets: to a scope, to messages that have a field, or to fields with certain
values.  Messages have one field, their text, and neither scopes nor other
values; so a rule that asks for more lets nothing through.  A text that is no
list of rules is ignored as a whole.

* `LogFilter.allows` — whether a message is logged;
* `LogFilter.read?` — the filter a text describes;
* `logLine` — the line of a message.
-/

namespace LicenseHeaders

/-- The name that rules know a part by. -/
def Origin.target : Origin → String
  | .command => "headersync::cli::run"
  | .headers => "headersync::headers"
  | .filter => "headersync::file_filter"
  | .walk => "headersync::processor::file_collector"
  | .run => "headersync::processor"

/-- The level of a run's messages, by how often more of them was asked for. -/
def Level.chosen (quiet : Bool) (verbosity : Nat) : Level :=
  if quiet then .error
  else match verbosity with
    | 0 => .warn
    | 1 => .info
    | 2 => .debug
    | _ => .trace

/-- The field that every message has. -/
def messageField : Text := "message".toList

/-- How much some parts may say. -/
structure LogRule where
  /-- What the names of these parts begin with; all parts, if missing. -/
  target : Option Text := none
  /-- A field that messages must have. -/
  field : Option Text := none
  /-- Whether the rule is confined to a scope or to values of fields. -/
  confined : Bool := false
  /-- The number of the most detailed level; zero is below every level. -/
  detail : Nat
  deriving DecidableEq, Repr

namespace LogRule

/-- Whether a rule speaks of the messages of a part. -/
def applies (origin : Origin) (r : LogRule) : Bool :=
  !r.confined && (r.target.getD []).isPrefixOf origin.target.toList
    && r.field.all (· = messageField)

/-- How much a rule asks for, the beginning of a name before a field. -/
def precision (r : LogRule) : Nat :=
  let target := match r.target with
    | none => 0
    | some t => t.length + 1
  2 * target + if r.field.isSome then 1 else 0

end LogRule

/-- Rules in the order in which they were given. -/
abbrev LogFilter := List LogRule

namespace LogFilter

/-- The more precise of two rules, and the later of two that are as precise. -/
def prefer (best : Option LogRule) (r : LogRule) : Option LogRule :=
  match best with
  | none => some r
  | some b => if b.precision ≤ r.precision then some r else some b

/-- The rule that decides about a part. -/
def deciding? (f : LogFilter) (origin : Origin) : Option LogRule :=
  (f.filter (·.applies origin)).foldl prefer none

/-- Whether a message is logged. -/
def allows (f : LogFilter) (level : Level) (origin : Origin) : Bool :=
  match f.deciding? origin with
  | some r => level.detail ≤ r.detail
  | none => false

/-- The filter for a run without one of its own. -/
def usual (quiet : Bool) (verbosity : Nat) : LogFilter :=
  [{ target := some "headersync".toList, detail := (Level.chosen quiet verbosity).detail }]

/-- A number in decimal digits, after at most one plus sign. -/
def natural? (t : Text) : Option Nat :=
  let digits := match t with
    | '+' :: rest => rest
    | t => t
  if digits.isEmpty || !digits.all Char.isDigit then none
  else some (Nat.ofDigitChars 10 digits 0)

/-- The detail that a word or number stands for. -/
def detail? (t : Text) : Option Nat :=
  match natural? t with
  | some n => if n ≤ 5 then some n else none
  | none => ["off", "error", "warn", "info", "debug", "trace"].findIdx? fun word =>
      word.toList = t.map Char.toLower

/-- The detail of every level. -/
def fullDetail : Nat := Level.trace.detail

/-- The detail after an equals sign; nothing there means every level. -/
def detailAfter? (t : Text) : Option Nat := if t = [] then some fullDetail else detail? t

/-- Whether a rule can begin with a character. -/
def opensRule (c : Char) : Bool := c ∈ ['[', '-', ':', '_'] || Text.isWordChar c

/-- A text without the blanks around it. -/
def trimmed (t : Text) : Text :=
  ((t.dropWhile Text.isBlank).reverse.dropWhile Text.isBlank).reverse

/-- What a rule says in brackets. -/
structure Brackets where
  scope : Text
  field : Option Text
  deriving DecidableEq, Repr

/-- What stands in brackets, and what follows them, given what follows the opening
one. -/
def brackets? (t : Text) : Option (Brackets × Text) :=
  let scope := t.takeWhile fun c => c ≠ ']' && c ≠ '\x7b'
  match t.drop scope.length with
  | [] => none
  | ']' :: rest => some (⟨scope, none⟩, rest)
  | _ :: braced =>
    let field := braced.takeWhile (· ≠ '\x7d')
    match braced.drop field.length with
    | '\x7d' :: ']' :: rest => if field.isEmpty then none else some (⟨scope, some field⟩, rest)
    | _ => none

/-- The name of a field and whether a value is asked for, which has to be a
pattern. -/
def field? (t : Text) : Option (Text × Bool) :=
  match Text.splitOn '=' t with
  | name :: value :: _ => if isValuePattern value then some (name, true) else none
  | [name] => some (name, false)
  | [] => none

/-- The rule that one piece stands for.  Its parts are looked for in the piece
without the blanks around it, and cut out of the whole piece at the places where
they were found.  So blanks in front of a rule push its parts out of place, and
blanks behind it belong to its last part. -/
def rule? (piece : Text) : Option LogRule :=
  let written := trimmed piece
  let name := written.takeWhile fun c => c ≠ '=' && c ≠ '['
  let target := if name.isEmpty then none else some (piece.take name.length)
  if !written.head?.any opensRule then none
  else
    match written.drop name.length with
    | [] =>
      match detail? piece with
      | some detail => some { detail }
      | none => some { target := some piece, detail := fullDetail }
    | '[' :: inside => do
      let (brackets, rest) ← brackets? inside
      let detail ← match rest with
        | [] => some fullDetail
        | '=' :: level => detailAfter? (piece.drop (written.length - level.length))
        | _ => none
      match brackets.field with
      | none => return { target, confined := true, detail }
      | some field => do
        let before := name.length + brackets.scope.length + 2
        let (field, asksValue) ← field? ((piece.drop before).take field.length)
        let confined := asksValue || !brackets.scope.isEmpty
        return { target, field := some field, confined, detail }
    | _ => do
      let detail ← detailAfter? (piece.drop (name.length + 1))
      return { target, detail }

/-- The filter that a text describes.  Without any rule only errors are
logged. -/
def read? (t : Text) : Option LogFilter :=
  let pieces := (Text.splitOn ',' t).filter (· ≠ [])
  if pieces = [] then some [{ detail := Level.error.detail }] else pieces.mapM rule?

/-- The environment variable that holds a filter. -/
def variableName : String := "RUST_LOG"

/-- The filter of a run: the one in the environment, or else the usual one. -/
def forRun (environment : Environment) (quiet : Bool) (verbosity : Nat) : LogFilter :=
  ((environment variableName).bind fun t => read? t.toList).getD (usual quiet verbosity)

end LogFilter

/-- The word for a level, five characters wide. -/
def Level.label : Level → String
  | .error => "ERROR"
  | .warn => " WARN"
  | .info => " INFO"
  | .debug => "DEBUG"
  | .trace => "TRACE"

/-- The number of the colour of a level. -/
def Level.colour : Level → Nat
  | .error => 31
  | .warn => 33
  | .info => 32
  | .debug => 34
  | .trace => 35

/-- How one character of a message is logged: controls that move the cursor or
change the colours are spelled out. -/
def loggedChar (c : Char) : Text :=
  match c with
  | '\x1b' => "\\x1b".toList
  | '\x07' => "\\x07".toList
  | '\x08' => "\\x08".toList
  | '\x0c' => "\\x0c".toList
  | '\x7f' => "\\x7f".toList
  | c => if 0x80 ≤ c.toNat ∧ c.toNat ≤ 0x9f then bracedNumber c.toNat else [c]

/-- The line of a message, with its level in colour or not. -/
def logLine (colours : Bool) (level : Level) (text : String) : String :=
  let label := if colours then styleMark level.colour ++ level.label ++ styleMark 0 else level.label
  label ++ " " ++ String.ofList (text.toList.flatMap loggedChar)

/-- Whether the levels of messages are in colour. -/
def coloursLevels (environment : Environment) : Bool :=
  match environment "NO_COLOR" with
  | none => true
  | some value => value.isEmpty

end LicenseHeaders

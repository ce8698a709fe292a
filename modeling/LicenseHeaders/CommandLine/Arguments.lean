import LicenseHeaders.CommandLine.Options

/-!
# Reading arguments

Arguments begin with a command, and its options follow.  A long option is
written `--name value` or `--name=value`; letters stand together behind one
`-`, and what follows the letter of a valued option in the same argument is its
value.  An argument that begins with `-` is never a value, apart from a single
`-`; after `--` there are neither options nor values.

The values of an option are looked at when the next option begins, or at the
end.  Until then an argument that is no option and no value is the graver
fault.  What the options demand of one another is looked at last: first that no
two exclude each other, then that none is missing.

* `Request.ofArguments` — the request that arguments make, or why there is none.
-/

namespace LicenseHeaders

/-- What is wrong with arguments. -/
inductive Misuse where
  | noCommand
  | unknownCommand
  | unknownArgument
  /-- A value is missing or is none that the option accepts. -/
  | badValue
  /-- A value was given to a switch. -/
  | surplusValue
  /-- Two options exclude each other, or one was given twice. -/
  | conflict
  /-- An option that is needed was not given. -/
  | missingOption
  deriving DecidableEq, Repr

/-- Why arguments make no request. -/
inductive Halt where
  | help
  /-- The version was asked for, with its origin or without. -/
  | version (detailed : Bool)
  | misuse (fault : Misuse)
  deriving DecidableEq, Repr

/-- What has been given so far, in order. -/
structure Given where
  switches : List Switch := []
  values : List (Valued × Text) := []
  deriving DecidableEq, Repr

namespace Given

/-- The values of an option. -/
def valuesOf (g : Given) (v : Valued) : List Text :=
  g.values.filterMap fun value => if value.1 = v then some value.2 else none

/-- Adds a switch.  Only one of them can be given again. -/
def addSwitch (g : Given) (s : Switch) : Except Halt Given :=
  if s = .help then .error .help
  else if s ≠ .verbose ∧ s ∈ g.switches then .error (.misuse .conflict)
  else .ok { g with switches := g.switches ++ [s] }

/-- Adds an option with its values. -/
def addValues (g : Given) (v : Valued) (values : List Text) : Except Halt Given :=
  let values := if values = [] then v.implied?.toList else values
  if values = [] then .error (.misuse .badValue)
  else if !v.isRepeatable && g.valuesOf v ≠ [] then .error (.misuse .conflict)
  else if values.all v.accepts then
    .ok { g with values := g.values ++ values.map fun t => (v, t) }
  else .error (.misuse .badValue)

/-- Whether options that exclude each other were given. -/
def isContradictory (g : Given) : Bool :=
  (g.switches.contains .quiet && g.switches.contains .verbose) ||
    (g.switches.contains .noSettings && g.valuesOf .settings ≠ [])

/-- The most detailed verbosity that is counted. -/
def verbosityLimit : Nat := 255

/-- The options that were given. -/
def options (g : Given) : Options where
  licenses := (g.valuesOf .licenses).map Path.mk
  directories := (g.valuesOf .directories).map Path.mk
  pattern := (g.valuesOf .pattern).head?
  exclude := g.valuesOf .exclude
  settings := ((g.valuesOf .settings).head?).map Path.mk
  noSettings := g.switches.contains .noSettings
  dryRun := g.switches.contains .dryRun
  showDiff := g.switches.contains .showDiff
  savedDiff := ((g.valuesOf .savedDiff).head?).map Path.mk
  keepGoing := g.switches.contains .keepGoing
  report := ((g.valuesOf .report).head?).map Path.mk
  verbosity := min (g.switches.count .verbose) verbosityLimit
  quiet := g.switches.contains .quiet
  colours := ((g.valuesOf .colours).head?.bind Valued.colourChoice?).getD .auto

/-- The options, if they agree with one another. -/
def finish (g : Given) : Except Halt Options :=
  if g.isContradictory then .error (.misuse .conflict)
  else if g.valuesOf .licenses = [] ∨ g.valuesOf .directories = [] then
    .error (.misuse .missingOption)
  else .ok g.options

end Given

/-- An option whose values are being read. -/
structure Awaiting where
  option : Valued
  values : List Text := []
  deriving DecidableEq, Repr

/-- How far the reading of options has come. -/
structure Reading where
  given : Given := {}
  /-- The last option, while its values have not been looked at. -/
  awaiting : Option Awaiting := none
  /-- Whether the next argument can be a value of that option. -/
  isOpen : Bool := false
  /-- Whether `--` has been met. -/
  isClosed : Bool := false
  deriving DecidableEq, Repr

namespace Reading

/-- Looks at the values that are waiting. -/
def settle (r : Reading) : Except Halt Reading :=
  match r.awaiting with
  | none => .ok { r with isOpen := false }
  | some a =>
    (r.given.addValues a.option a.values).map fun given =>
      { r with given := given, awaiting := none, isOpen := false }

/-- Takes a switch. -/
def takeSwitch (r : Reading) (s : Switch) : Except Halt Reading := do
  let r ← r.settle
  return { r with given := ← r.given.addSwitch s }

/-- Takes a valued option, with the value attached to it if there is one. -/
def takeValued (r : Reading) (v : Valued) (attached : Option Text) : Except Halt Reading := do
  let r ← r.settle
  match attached with
  | some value => return { r with given := ← r.given.addValues v [value] }
  | none => return { r with awaiting := some { option := v }, isOpen := true }

/-- The value behind a letter: a first equals sign is none of it. -/
def attachedValue : Text → Option Text
  | [] => none
  | '=' :: value => some value
  | value => some value

/-- Takes the letters behind a `-`. -/
def takeLetters (r : Reading) : Text → Except Halt Reading
  | [] => .ok r
  | letter :: rest =>
    match Flag.lettered? letter with
    | none => .error (.misuse .unknownArgument)
    | some (.valued v) => r.takeValued v (attachedValue rest)
    | some (.switch s) => do takeLetters (← r.takeSwitch s) rest

/-- Takes what stands behind a `--`. -/
def takeLong (r : Reading) (t : Text) : Except Halt Reading :=
  let name := t.takeWhile (· ≠ '=')
  let attached := (t.drop name.length).tail?
  match Flag.named? name, attached with
  | none, _ => .error (.misuse .unknownArgument)
  | some (.valued v), attached => r.takeValued v attached
  | some (.switch _), some _ => .error (.misuse .surplusValue)
  | some (.switch s), none => r.takeSwitch s

/-- Takes an argument that is no option. -/
def takePlain (r : Reading) (t : Text) : Except Halt Reading :=
  match r.awaiting, r.isOpen with
  | some a, true =>
    .ok { r with
      awaiting := some { a with values := a.values ++ [t] }, isOpen := a.option.isOpenEnded }
  | _, _ => .error (.misuse .unknownArgument)

/-- Takes one argument. -/
def take (r : Reading) (argument : Text) : Except Halt Reading :=
  if r.isClosed then .error (.misuse .unknownArgument)
  else
    match argument with
    | ['-', '-'] => .ok { r with isClosed := true }
    | '-' :: '-' :: t => r.takeLong t
    | '-' :: letter :: rest => r.takeLetters (letter :: rest)
    | t => r.takePlain t

end Reading

/-- The options that arguments give. -/
def Options.ofArguments (arguments : List Text) : Except Halt Options := do
  let r ← arguments.foldlM Reading.take {}
  (← r.settle).given.finish

/-- The operation a command names. -/
def Operation.named? (name : Text) : Option Operation :=
  match String.ofList name with
  | "synchronize" | "sync" => some .synchronize
  | "remove" => some .remove
  | _ => none

/-- The command that asks for help on another. -/
def helpCommand : Text := "help".toList

/-- Whether a text names a command. -/
def isCommand (name : Text) : Bool :=
  (Operation.named? name).isSome || name = helpCommand

/-- The names of commands that help is wanted on: one command at most. -/
def helpOn : List Text → Halt
  | [] => .help
  | [name] => if isCommand name then .help else .misuse .unknownCommand
  | _ => .misuse .unknownCommand

/-- What an option in the place of a command asks for. -/
def haltOfOption : Text → Halt
  | '-' :: name =>
    match String.ofList (name.takeWhile (· ≠ '=')), name.contains '=' with
    | "help", false => .help
    | "version", false => .version true
    | "help", true | "version", true => .misuse .surplusValue
    | _, _ => .misuse .unknownArgument
  | 'h' :: _ => .help
  | 'V' :: _ => .version false
  | _ => .misuse .unknownArgument

/-- What is wrong with arguments after a `--` in the place of a command. -/
def haltAfterDashes : List Text → Halt
  | [] => .misuse .noCommand
  | name :: _ => .misuse (if isCommand name then .unknownArgument else .unknownCommand)

/-- The request that arguments make. -/
def Request.ofArguments : List Text → Except Halt Request
  | [] => .error (.misuse .noCommand)
  | ['-', '-'] :: rest => .error (haltAfterDashes rest)
  | ('-' :: letter :: name) :: _ => .error (haltOfOption (letter :: name))
  | name :: rest =>
    if name = helpCommand then .error (helpOn rest)
    else
      match Operation.named? name with
      | some operation =>
        (Options.ofArguments rest).map fun options => { operation, options }
      | none => .error (.misuse .unknownCommand)

end LicenseHeaders

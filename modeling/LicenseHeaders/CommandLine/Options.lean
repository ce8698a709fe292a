import LicenseHeaders.Console.Style
import LicenseHeaders.Files.Path
import LicenseHeaders.Header.Change

/-!
# Options of the command line

What a run can be asked for on the command line.  A switch is given or not; a
valued option takes one or more values.  An option has a long name and may have
a letter.

* `Switch`, `Valued`, `Flag` — the options themselves, with their names and
  with what they accept;
* `Options`, `Request` — what has been asked for.
-/

namespace LicenseHeaders

/-- An option without a value. -/
inductive Switch where
  | noSettings
  | dryRun
  | showDiff
  | keepGoing
  | verbose
  | quiet
  | help
  deriving DecidableEq, Repr

/-- An option with values. -/
inductive Valued where
  | licenses
  | directories
  | pattern
  | exclude
  | settings
  | savedDiff
  | report
  | colours
  deriving DecidableEq, Repr

/-- An option. -/
inductive Flag where
  | switch (s : Switch)
  | valued (v : Valued)
  deriving DecidableEq, Repr

namespace Valued

/-- Whether more than one value can follow the option at once. -/
def isOpenEnded : Valued → Bool
  | .licenses | .directories => true
  | _ => false

/-- Whether the option can be given more than once. -/
def isRepeatable : Valued → Bool
  | .licenses | .directories | .exclude => true
  | _ => false

/-- What stands for a missing value, if it may be missing. -/
def implied? : Valued → Option Text
  | .colours => some ColourChoice.always.word.toList
  | _ => none

/-- The choice of colours a word stands for. -/
def colourChoice? (t : Text) : Option ColourChoice :=
  [ColourChoice.auto, .never, .always].find? fun choice => choice.word.toList = t

/-- Whether a text can be a value of the option. -/
def accepts (v : Valued) (t : Text) : Bool :=
  match v with
  | .pattern | .exclude => true
  | .colours => (colourChoice? t).isSome
  | .licenses | .directories | .settings | .savedDiff | .report => t ≠ []

end Valued

namespace Flag

/-- The options with their long names, and their letters where they have one. -/
def all : List (Flag × String × Option Char) := [
  (.valued .licenses, "licenses", some 'l'),
  (.valued .directories, "directories", some 'd'),
  (.valued .pattern, "pattern", some 'p'),
  (.valued .exclude, "exclude", some 'e'),
  (.valued .settings, "config", none),
  (.switch .noSettings, "no-config", none),
  (.switch .dryRun, "dry-run", none),
  (.switch .showDiff, "show-diff", none),
  (.valued .savedDiff, "save-diff", some 'o'),
  (.switch .keepGoing, "keep-going", none),
  (.valued .report, "report-json", none),
  (.switch .verbose, "verbose", some 'v'),
  (.switch .quiet, "quiet", some 'q'),
  (.valued .colours, "colors", none),
  (.switch .help, "help", some 'h')]

/-- The option with a long name. -/
def named? (name : Text) : Option Flag :=
  (all.find? fun flag => flag.2.1.toList = name).map (·.1)

/-- The option with a letter. -/
def lettered? (letter : Char) : Option Flag :=
  (all.find? fun flag => flag.2.2 = some letter).map (·.1)

end Flag

/-- What a run was asked for. -/
structure Options where
  /-- Header files, the canonical one first. -/
  licenses : List Path
  directories : List Path
  pattern : Option Text := none
  exclude : List Text := []
  settings : Option Path := none
  noSettings : Bool := false
  dryRun : Bool := false
  showDiff : Bool := false
  savedDiff : Option Path := none
  keepGoing : Bool := false
  report : Option Path := none
  /-- How often more messages were asked for. -/
  verbosity : Nat := 0
  quiet : Bool := false
  colours : ColourChoice := .auto
  deriving DecidableEq, Repr

/-- An operation with its options. -/
structure Request where
  operation : Operation
  options : Options
  deriving DecidableEq, Repr

end LicenseHeaders

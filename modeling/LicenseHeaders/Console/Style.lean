import LicenseHeaders.Text.Basic

/-!
# Colours on the console

Some words are coloured when the console is to show colours.  Whether it is can
be fixed; otherwise the environment decides, since the output is no terminal:
colours are shown only when they are forced.

* `paint` — a text between the marks that switch a style on and off.
-/

namespace LicenseHeaders

/-- How a word stands out. -/
inductive Style where
  | green
  | red
  | yellow
  | cyan
  | dimmed
  deriving DecidableEq, Repr

/-- The numbers that switch a style on and off. -/
def Style.codes : Style → Nat × Nat
  | .green => (32, 39)
  | .red => (31, 39)
  | .yellow => (33, 39)
  | .cyan => (36, 39)
  | .dimmed => (2, 0)

/-- The mark for a number. -/
def styleMark (code : Nat) : String := s!"\x1b[{code}m"

/-- A text in a style, if colours are shown. -/
def paint (colours : Bool) (style : Style) (t : String) : String :=
  if colours then styleMark style.codes.1 ++ t ++ styleMark style.codes.2 else t

/-- When colours are shown. -/
inductive ColourChoice where
  | auto
  | never
  | always
  deriving DecidableEq, Repr

def ColourChoice.word : ColourChoice → String
  | .auto => "auto"
  | .never => "never"
  | .always => "always"

/-- The values of environment variables. -/
abbrev Environment := String → Option String

/-- Whether a text is a number, and that number is zero. -/
def isZero (t : String) : Bool :=
  let digits := match t.toList with
    | '+' :: rest => rest
    | t => t
  !digits.isEmpty && digits.all (· = '0')

/-- Whether the environment forces colours.  One variable takes the place of the
other where both are set. -/
def coloursForced (environment : Environment) : Bool :=
  match environment "FORCE_COLOR" with
  | some value => !(value = "false" || isZero value)
  | none =>
    match environment "CLICOLOR_FORCE" with
    | some value => value ≠ "0"
    | none => false

/-- Whether colours are shown. -/
def ColourChoice.shows (choice : ColourChoice) (environment : Environment) : Bool :=
  match choice with
  | .auto => coloursForced environment
  | .never => false
  | .always => true

end LicenseHeaders

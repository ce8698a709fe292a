import LicenseHeaders.Failure
import LicenseHeaders.Run.DiffOutput
import LicenseHeaders.Settings.Loading

/-!
# Why a command ended early

A command that cannot go on says what it attempted and, line by line, what lies
behind that, the nearest cause first.  Several causes are numbered from zero.
A cause of several lines stays indented throughout.
-/

namespace LicenseHeaders

/-- What was attempted in vain, and the causes behind it. -/
structure Trouble where
  attempt : String
  causes : List String := []
  deriving DecidableEq, Repr

namespace Trouble

/-- A failure as it is, without an attempt of its own. -/
def ofFailure (f : Failure) : Trouble := ⟨f.message, f.causes⟩

/-- A failure of an attempt. -/
def whileTrying (attempt : String) (f : Failure) : Trouble := ⟨attempt, f.message :: f.causes⟩

/-- A failure to load settings from a file. -/
def ofSettings (path : Path) (f : SettingsFailure) : Trouble :=
  ⟨loadingContext path, f.message :: f.causes⟩

def ofOutput (f : OutputFailure) : Trouble := ⟨f.context, [f.cause.message]⟩

/-- A text with its first line after `first` and the others after `others`. -/
def indented (first others : Text) (t : Text) : Text :=
  first ++ Text.joinWith ('\n' :: others) (Text.splitOn '\n' t)

/-- A cause with its number, right-aligned in five places. -/
def numbered (number : Nat) (cause : String) : Text :=
  let digits := Nat.toDigits 10 number
  let first := List.replicate (5 - digits.length) ' ' ++ digits ++ [':', ' ']
  indented first (List.replicate 7 ' ') cause.toList

/-- The causes, one below the other. -/
def causeTexts : List String → List Text
  | [cause] => [indented (List.replicate 4 ' ') (List.replicate 4 ' ') cause.toList]
  | causes => causes.mapIdx numbered

/-- The text that tells of a trouble. -/
def text (t : Trouble) : String :=
  let head := "Error: " ++ t.attempt
  if t.causes = [] then head
  else head ++ "\n\nCaused by:\n" ++ String.ofList (Text.joinWith ['\n'] (causeTexts t.causes))

end Trouble

end LicenseHeaders

/-!
# Why the system refuses

Each refusal of the file system has one cause, and each cause one wording.
The numbers are the system's own error numbers; the two causes without a
number are found before or after the system is asked.
-/

namespace LicenseHeaders

/-- Why an access to the file system failed. -/
inductive Cause where
  | noSuchEntry
  | accessDenied
  | notADirectory
  | isADirectory
  | nameTooLong
  | tooManyLinks
  | notText
  | zeroInPath
  deriving DecidableEq, Repr

/-- The wording of a cause. -/
def Cause.message : Cause → String
  | .noSuchEntry => "No such file or directory (os error 2)"
  | .accessDenied => "Permission denied (os error 13)"
  | .notADirectory => "Not a directory (os error 20)"
  | .isADirectory => "Is a directory (os error 21)"
  | .nameTooLong => "File name too long (os error 36)"
  | .tooManyLinks => "Too many levels of symbolic links (os error 40)"
  | .notText => "stream did not contain valid UTF-8"
  | .zeroInPath => "file name contained an unexpected NUL byte"

end LicenseHeaders

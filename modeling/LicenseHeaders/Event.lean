import LicenseHeaders.Text.Basic

/-!
# What a run tells about itself

While it works, a run tells what it does: messages with a level, from one of
its parts, remarks for verbose output, and the lines of diffs that are to be
shown.  Events are plain values in the order in which they happen; which of
them become visible is decided where they are printed.
-/

namespace LicenseHeaders

/-- How important a message is, the gravest first. -/
inductive Level where
  | error
  | warn
  | info
  | debug
  | trace
  deriving DecidableEq, Repr

/-- A larger number means a more detailed level. -/
def Level.detail : Level → Nat
  | .error => 1
  | .warn => 2
  | .info => 3
  | .debug => 4
  | .trace => 5

def Level.word : Level → String
  | .error => "error"
  | .warn => "warn"
  | .info => "info"
  | .debug => "debug"
  | .trace => "trace"

/-- The part of the program a message comes from. -/
inductive Origin where
  | command
  | headers
  | filter
  | walk
  | run
  deriving DecidableEq, Repr

/-- Something a run tells. -/
inductive Event where
  | message (level : Level) (origin : Origin) (text : String)
  | remark (text : String)
  | diffLine (line : Text)
  deriving DecidableEq, Repr

end LicenseHeaders

import LicenseHeaders.Console.Listing
import LicenseHeaders.Console.Log

/-!
# The transcript of a run

What a run tells becomes lines apart from its other output, in the order in
which it was told: messages that the log filter allows, remarks when output is
verbose, and the lines of diffs, of which the added and the removed ones are
coloured.
-/

namespace LicenseHeaders

/-- How a run speaks. -/
structure Console where
  display : Display := {}
  log : LogFilter := LogFilter.usual false 0
  /-- Whether the levels of messages are in colour. -/
  colouredLevels : Bool := false
  deriving DecidableEq, Repr

namespace Console

/-- A line of a diff. -/
def diffLine (c : Console) (line : Text) : String :=
  let shown := String.ofList line
  match line.head? with
  | some '+' => paint c.display.colours .green shown
  | some '-' => paint c.display.colours .red shown
  | _ => shown

/-- The line of an event, if it is shown. -/
def line? (c : Console) : Event → Option String
  | .message level origin text =>
    if c.log.allows level origin then some (logLine c.colouredLevels level text) else none
  | .remark text => if c.display.isVerbose then some text else none
  | .diffLine line => some (c.diffLine line)

/-- The lines of events. -/
def transcript (c : Console) (events : List Event) : Printed :=
  events.filterMap fun event => (c.line? event).map fun line => (.err, line)

end Console

end LicenseHeaders

import LicenseHeaders.Header.Removal
import LicenseHeaders.Header.Set

/-!
# Putting the canonical header in front

The header is followed by one blank line, written with the line ending that
the header itself uses.  The text below it is kept as it is, unless a legacy
header was cut out of it: then the line breaks at its beginning, which that
header left behind, go as well.
-/

namespace LicenseHeaders

/-- The line ending of a header: `\r\n` when it contains one. -/
def lineEnding (header : Text) : Text :=
  if Text.occursIn ['\r', '\n'] header then ['\r', '\n'] else ['\n']

/-- What stands between a header and the text below it. -/
def separator (header : Text) : Text :=
  if header.getLast? = some '\n' then lineEnding header
  else lineEnding header ++ lineEnding header

/-- The header, one blank line and the text. -/
def prependHeader (header body : Text) : Text :=
  header ++ separator header ++ body

def isBreak (c : Char) : Bool := c = '\r' || c = '\n'

/-- The text below a new canonical header, and whether a legacy header was
removed from it. -/
def bodyBelow (legacy : List Text) (t : Text) : Text × Bool :=
  match strip legacy t with
  | some stripped => (stripped.dropWhile isBreak, true)
  | none => (t, false)

/-- The text with the canonical header in place of the legacy headers, and
whether there were any. -/
def insertHeader (canonical : Text) (legacy : List Text) (t : Text) : Text × Bool :=
  let (body, replaced) := bodyBelow legacy t
  (prependHeader canonical body, replaced)

end LicenseHeaders

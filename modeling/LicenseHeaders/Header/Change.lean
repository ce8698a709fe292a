import LicenseHeaders.Header.Insertion

/-!
# What an operation makes of a text

Synchronizing leaves a text alone that already contains the canonical header,
and inserts the header into any other; removing strips all headers.  The test
for the canonical header is a parameter.  A change is the new text together
with the action that reports show; a text that stays as it is has none.
-/

namespace LicenseHeaders

/-- The two things a run can do. -/
inductive Operation where
  | synchronize
  | remove
  deriving DecidableEq, Repr

def Operation.word : Operation → String
  | .synchronize => "synchronize"
  | .remove => "remove"

/-- What became of a file. -/
inductive Action where
  | inserted
  | replaced
  | stripped
  | unchanged
  | failed
  deriving DecidableEq, Repr

def Action.word : Action → String
  | .inserted => "inserted"
  | .replaced => "replaced"
  | .stripped => "stripped"
  | .unchanged => "unchanged"
  | .failed => "failed"

/-- Whether an action gives the file a new content. -/
def Action.changesContent : Action → Bool
  | .inserted | .replaced | .stripped => true
  | .unchanged | .failed => false

/-- A new text and how it came about. -/
structure Change where
  text : Text
  action : Action
  deriving DecidableEq, Repr

/-- The test for the canonical header: header first, then content. -/
abbrev Presence := Text → Text → Bool

/-- The header is present when it occurs character by character. -/
def verbatim : Presence := fun header content => Text.occursIn header content

/-- The change that synchronizing makes when there is a canonical header. -/
def synchronizeChange? (present : Presence) (canonical : Text) (legacy : List Text) (t : Text) :
    Option Change :=
  if present canonical t then none
  else
    let (text, replaced) := insertHeader canonical legacy t
    some ⟨text, if replaced then .replaced else .inserted⟩

/-- The change that removing makes. -/
def removeChange? (headers : HeaderSet) (t : Text) : Option Change :=
  (strip headers.texts t).map fun text => ⟨text, .stripped⟩

/-- The action of a change, or of its absence. -/
def actionOf (change : Option Change) : Action :=
  (change.map (·.action)).getD .unchanged

/-- The text after a change, or after none. -/
def textAfter (t : Text) (change : Option Change) : Text :=
  (change.map (·.text)).getD t

end LicenseHeaders

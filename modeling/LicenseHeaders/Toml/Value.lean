import LicenseHeaders.Text.Basic

/-!
# Values of a settings document

A TOML document is a table of values.  Texts, arrays and tables are kept;
numbers, truth values and points in time are checked for their form and then
only told apart, since no setting has such a value.  A number beyond the range
of its kind is no fault of the document, but of whoever looks at it.

A table remembers how it came about, because that decides what may still be
added to it: a table with a header of its own is closed to dotted keys, a table
made by dotted keys is closed to headers, one that is only implied by a longer
header may still get its own, and an inline table is complete.
-/

namespace LicenseHeaders.Toml

/-- Values that are checked and not kept. -/
inductive Scalar where
  | integer
  | float
  | boolean
  | dateTime
  /-- A number that is too large. -/
  | excessive
  deriving DecidableEq, Repr

/-- How a table came about. -/
inductive Form where
  | header
  | implied
  | dotted
  | inline
  deriving DecidableEq, Repr

inductive Value where
  | text (t : Text)
  | scalar (s : Scalar)
  | array (items : List Value)
  /-- An array built by repeated headers, the newest table last. -/
  | tables (items : List Value)
  | table (form : Form) (entries : List (Text × Value))
  deriving Repr

/-- The entries of a table, in the order in which their keys appear. -/
abbrev Entries := List (Text × Value)

mutual

/-- Whether no number in a value is too large. -/
def Value.isModerate : Value → Bool
  | .text _ => true
  | .scalar s => s ≠ .excessive
  | .array items => areModerate items
  | .tables items => areModerate items
  | .table _ entries => entriesAreModerate entries

def areModerate : List Value → Bool
  | [] => true
  | v :: rest => v.isModerate && areModerate rest

def entriesAreModerate : List (Text × Value) → Bool
  | [] => true
  | (_, v) :: rest => v.isModerate && entriesAreModerate rest

end

/-- Whether no number under other keys than the given ones is too large. -/
def othersAreModerate (keys : List Text) (entries : Entries) : Bool :=
  entriesAreModerate (entries.filter fun e => !keys.contains e.1)

/-- The value of a key. -/
def find? (key : Text) (entries : Entries) : Option Value :=
  (entries.find? fun e => e.1 = key).map (·.2)

/-- The entries with a key given a value. -/
def assign (key : Text) (value : Value) : Entries → Entries
  | [] => [(key, value)]
  | e :: rest => if e.1 = key then (key, value) :: rest else e :: assign key value rest

/-- Follows keys from a table and changes the table at their end.  Missing
tables on the way are made with the form `made`; nothing comes of it when a key
leads to something that is no table or may not be extended. -/
def changeAt (made : Form) (act : Form → Entries → Option Entries) :
    List Text → Form → Entries → Option Entries
  | [], form, entries => act form entries
  | key :: path, _, entries =>
    match find? key entries with
    | none => do
      let inner ← changeAt made act path made []
      return assign key (.table made inner) entries
    | some (.table .inline _) => none
    | some (.table form inner) =>
      if made = .dotted ∧ form = .header then none
      else do
        let inner ← changeAt made act path form inner
        return assign key (.table form inner) entries
    | some (.tables items) =>
      match items.getLast? with
      | some (.table form inner) => do
        let inner ← changeAt made act path form inner
        return assign key (.tables (items.dropLast ++ [.table form inner])) entries
      | _ => none
    | some _ => none

/-- Adds a value under a key in a table that does not have the key. -/
def addNew (key : Text) (value : Value) (entries : Entries) : Option Entries :=
  match find? key entries with
  | none => some (assign key value entries)
  | some _ => none

/-- Adds a value under a dotted key.  A table reached through dots has to be one
that dots have made. -/
def addDotted (path : List Text) (key : Text) (value : Value) (form : Form) (entries : Entries) :
    Option Entries :=
  changeAt .dotted
    (fun form entries =>
      if path.isEmpty ↔ form = .dotted then none else addNew key value entries)
    path form entries

/-- Opens the table of a header: a new one, or one that so far was implied. -/
def openTable (key : Text) (entries : Entries) : Option Entries :=
  match find? key entries with
  | none => some (assign key (.table .header []) entries)
  | some (.table .implied inner) => some (assign key (.table .header inner) entries)
  | some _ => none

/-- Adds a table to the array of a repeated header. -/
def openNext (key : Text) (entries : Entries) : Option Entries :=
  match find? key entries with
  | none => some (assign key (.tables [.table .header []]) entries)
  | some (.tables items) => some (assign key (.tables (items ++ [.table .header []])) entries)
  | some _ => none

end LicenseHeaders.Toml

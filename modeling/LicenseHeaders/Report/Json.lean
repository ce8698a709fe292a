import LicenseHeaders.Json.Reader
import LicenseHeaders.Json.Value
import LicenseHeaders.Report.Basic

/-!
# Reports as JSON

A report is written as an object with a summary and a list of files, laid out
over several lines.  The report of one file can be read back.  It is an object
with the fields `path`, `action` and `error`, or a list of their values in this
order; an error may be missing or null, fields of other names mean nothing, and
an action may be given by its name or as an object that has the name as its
only field, with the value null.

* `FileReport.json`, `Report.json` — the values that are written;
* `FileReport.read` — the report of one file from a text.
-/

namespace LicenseHeaders

/-- The report of one file as a value.  A missing error is left out. -/
def FileReport.json (f : FileReport) : Json.Value :=
  let error := match f.error with
    | some e => [("error".toList, .text e)]
    | none => []
  .object ([("path".toList, .text f.path.text),
    ("action".toList, .text f.action.word.toList)] ++ error)

/-- The report of one file without blanks. -/
def FileReport.compactText (f : FileReport) : Text := Json.compact f.json

/-- The time a run took, in seconds. -/
def Timing.inSeconds (t : Timing) : Double :=
  (Double.nearest t.seconds 1).add (Double.nearest t.nanoseconds 1000000000)

namespace Report

def natural (n : Nat) : Json.Value := .number (Nat.toDigits 10 n)

def integer (n : Int) : Json.Value :=
  .number (if n < 0 then '-' :: Nat.toDigits 10 n.natAbs else Nat.toDigits 10 n.natAbs)

/-- The summary of a report as a value. -/
def summaryJson (r : Report) : Json.Value :=
  .object [
    ("operation".toList, .text r.operation.word.toList),
    ("dry_run".toList, .truth r.dryRun),
    ("files_scanned".toList, natural r.scannedCount),
    ("files_changed".toList, natural r.changedCount),
    ("files_failed".toList, natural r.failedCount),
    ("processing_time_seconds".toList, .number (Decimal.shortest r.timing.inSeconds).toText),
    ("timestamp".toList, integer r.timing.timestamp)]

/-- A report as a value. -/
def json (r : Report) : Json.Value :=
  .object [
    ("summary".toList, r.summaryJson),
    ("files".toList, .list (r.files.map FileReport.json))]

/-- A report over several lines. -/
def prettyText (r : Report) : Text := Json.pretty 0 r.json

end Report

namespace FileReport

open Json (Fault Reader)

/-- The action with a name. -/
def actionNamed (name : Text) : Except Fault Action :=
  match [Action.inserted, .replaced, .stripped, .unchanged, .failed].find? fun a =>
      a.word.toList = name with
  | some action => .ok action
  | none => .error .unfitting

/-- The name of the only field of an object, after the opening brace.  Nothing
else may stand in its place. -/
def readName : Reader Text := fun t =>
  match Json.dropSpace t with
  | [] => .error .ended
  | '"' :: rest => Json.string rest
  | _ => .error .malformed

/-- An action, by its name or as an object. -/
def readAction : Reader Action := fun t =>
  match Json.dropSpace t with
  | [] => .error .ended
  | '"' :: rest => do
    let (name, t) ← Json.string rest
    return (← actionNamed name, t)
  | '\x7b' :: rest => do
    let (name, t) ← readName rest
    let action ← actionNamed name
    let t ← Json.expectChar ':' t
    let t ← match Json.dropSpace t with
      | 'n' :: rest => Json.word "ull".toList rest
      | t => .error (Json.unexpected t)
    let t ← Json.expectChar '\x7d' t
    return (action, t)
  | _ => .error .malformed

/-- The fields of a report that have been read. -/
structure Fields where
  path : Option Text := none
  action : Option Action := none
  error : Option (Option Text) := none

/-- A complete report from its fields. -/
def Fields.report (f : Fields) : Except Fault FileReport :=
  match f.path, f.action with
  | some path, some action => .ok ⟨⟨path⟩, action, f.error.getD none⟩
  | _, _ => .error .unfitting

/-- The value of a field, added to those read before. -/
def readField (f : Fields) (key t : Text) : Except Fault (Fields × Text) :=
  if key = "path".toList then
    if f.path.isSome then .error .unfitting
    else do
      let (path, t) ← Json.expectString (← Json.expectChar ':' t)
      return ({ f with path := some path }, t)
  else if key = "action".toList then
    if f.action.isSome then .error .unfitting
    else do
      let (action, t) ← readAction (← Json.expectChar ':' t)
      return ({ f with action := some action }, t)
  else if key = "error".toList then
    if f.error.isSome then .error .unfitting
    else do
      let (error, t) ← Json.optionalString (← Json.expectChar ':' t)
      return ({ f with error := some error }, t)
  else do
    let t ← Json.skipValue (← Json.expectChar ':' t)
    return (f, t)

/-- A key and its value, and all that follow up to the closing brace. -/
def readFields : (fields : Nat) → Fields → Text → Except Fault (FileReport × Text)
  | 0, _, _ => .error .ended
  | fields + 1, f, t => do
    match Json.dropSpace t with
    | [] => .error .ended
    | '"' :: rest => do
      let (key, t) ← Json.string rest
      let (f, t) ← readField f key t
      match Json.dropSpace t with
      | [] => .error .ended
      | ',' :: rest => readFields fields f rest
      | '\x7d' :: rest => return (← f.report, rest)
      | _ => .error .malformed
    | _ => .error .malformed

/-- A report written as an object, after its opening brace. -/
def readObject (t : Text) : Except Fault (FileReport × Text) :=
  match Json.dropSpace t with
  | [] => .error .ended
  | '\x7d' :: _ => .error .unfitting
  | t => readFields (t.length + 1) {} t

/-- Whether another item of a list follows an earlier one, and where. -/
def nextItem (t : Text) : Except Fault (Option Text) :=
  match Json.dropSpace t with
  | [] => .error .ended
  | ']' :: _ => .ok none
  | ',' :: rest =>
    match Json.dropSpace rest with
    | [] => .error .ended
    | ']' :: _ => .error .malformed
    | t => .ok (some t)
  | _ => .error .malformed

/-- A report written as a list, after its opening bracket. -/
def readList (t : Text) : Except Fault (FileReport × Text) := do
  let (path, t) ← match Json.dropSpace t with
    | [] => .error .ended
    | ']' :: _ => .error .unfitting
    | t => Json.expectString t
  match ← nextItem t with
  | none => .error .unfitting
  | some t => do
    let (action, t) ← readAction t
    let (error, t) ← match ← nextItem t with
      | none => .ok (none, t)
      | some t => Json.optionalString t
    let rest ← Json.expectChar ']' t
    return (⟨⟨path⟩, action, error⟩, rest)

/-- The report of one file that a text holds. -/
def read (t : Text) : Except Fault FileReport := do
  let (report, rest) ← match Json.dropSpace t with
    | [] => .error .ended
    | '\x7b' :: rest => readObject rest
    | '[' :: rest => readList rest
    | t => .error (Json.unexpected t)
  if (Json.dropSpace rest).isEmpty then .ok report else .error .malformed

end FileReport

end LicenseHeaders

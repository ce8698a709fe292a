import LicenseHeaders.CommandLine.Execution

/-!
# The command line

The program proper is a function on a file system as a value.  Here the part of
the disk that a request concerns is read into such a value, the request is
carried out on it, and the files that came out different are written back.

Files are read only where a run can look at them: the settings, the headers,
the files that receive output, and below the roots the files whose names are
selected.  A link is kept with the place it finally leads to; one that leads
nowhere is left out, which means the same to everything that asks.
-/

namespace LicenseHeaders

/-- The disk as far as it has been read. -/
abbrev Disk := StateT FileSystem IO

namespace Disk

/-- The path of a location, for the system. -/
def place (l : Location) : String := String.ofList ('/' :: Text.joinWith ['/'] l)

/-- A location as the system knows it. -/
def entryAt (l : Location) : IO.FS.DirEntry := { root := place l, fileName := "" }

/-- What is at a location, if anything is. -/
def typeAt (l : Location) : IO (Option IO.FS.FileType) :=
  try
    return some (← (entryAt l).root.symlinkMetadata).type
  catch _ => return none

/-- The place a link finally leads to. -/
def targetOf (l : Location) : IO (Option Path) :=
  try
    return some (Path.ofString (← IO.FS.realPath (place l)).toString)
  catch _ => return none

/-- What the file at a location holds, if it can be read. -/
def contentAt (l : Location) : IO (Option Content) :=
  try
    return some (.ofBytes (← IO.FS.readBinFile (place l)))
  catch _ => return none

/-- Whether the file at a location can be changed. -/
def canChange (l : Location) : IO Bool :=
  try
    discard <| IO.FS.Handle.mk (place l) .append
    return true
  catch _ => return false

/-- Whether the directory at a location can be searched. -/
def canSearch (l : Location) : IO Bool :=
  try
    discard <| (entryAt (l ++ [['.']])).root.metadata
    return true
  catch _ => return false

/-- Puts the directory at a location into the file system. -/
def putDirectory (l : Location) : Disk Unit := do
  modify (·.put l .directory)
  if !(← canSearch l) then modify (·.deny .searching l)

/-- Puts the file at a location into the file system. -/
def putFile (l : Location) : Disk Unit := do
  let content ← contentAt l
  modify (·.put l (.file (content.getD .empty)))
  if content.isNone then modify (·.deny .reading l)
  if !(← canChange l) then modify (·.deny .writing l)

/-- Reads the entries that a path passes through, beginning at a directory. -/
partial def follow (l : Location) : List Path.Component → Disk Unit
  | [] => return
  | .root :: rest => follow [] rest
  | .here :: rest => follow l rest
  | .up :: rest => follow l.dropLast rest
  | .name n :: rest => do
    let l := l ++ [n]
    match ← typeAt l with
    | some .dir => do
      putDirectory l
      follow l rest
    | some .file => putFile l
    | some .symlink =>
      match ← targetOf l with
      | some target => do
        modify (·.put l (.link target))
        follow [] (target.components ++ rest)
      | none => return
    | _ => return

/-- Reads the entries that a path passes through. -/
def followPath (p : Path) : Disk Unit := do
  follow (← get).current p.components

/-- Notes that there is a file, unless more is known of it. -/
def noteFile (l : Location) : Disk Unit :=
  modify fun fs => if (fs.find? l).isSome then fs else fs.put l (.file .empty)

/-- The names in the directory at a location, if they can be read. -/
def namesAt (l : Location) : IO (Option (List Name)) :=
  try
    return some ((← (entryAt l).root.readDir).toList.map fun entry => entry.fileName.toList)
  catch _ => return none

/-- Reads what lies below a directory; of files that are not wanted, only that
they exist.  A name that cannot be looked up, in a directory that cannot be
searched, is taken to be that of a file. -/
partial def readBelow (wanted : Name → Bool) (l : Location) : Disk Unit := do
  let names ← namesAt l
  if names.isNone then modify (·.deny .reading l)
  for name in names.getD [] do
    let inner := l ++ [name]
    match ← typeAt inner with
    | some .dir => do
      putDirectory inner
      readBelow wanted inner
    | some .file =>
      if wanted name then putFile inner else noteFile inner
    | some .symlink => follow l [.name name]
    | some .other => pure ()
    | none => noteFile inner

/-- Reads the tree below a root. -/
def readTree (wanted : Name → Bool) (root : Path) : Disk Unit := do
  followPath root
  match (← get).lookup .target root with
  | .ok (l, .directory) => readBelow wanted l
  | _ => return

/-- Whether a name is selected by the criteria of a run, as far as they can be
told already. -/
def selects (r : Request) (environment : Environment) (fs : FileSystem) : Name → Bool :=
  match (r.options.plan environment {} { fs := fs }).1 with
  | .error _ => fun _ => false
  | .ok plan =>
    match plan.criteria.filters with
    | .error _ => fun _ => false
    | .ok filters => fun name => (firstRejection? filters ⟨name⟩).isNone

/-- Reads all that a request concerns. -/
def readFor (r : Request) (environment : Environment) : Disk Unit := do
  let o := r.options
  let base := (← get).current.path
  followPath base
  let source := o.settingsSource environment base
  let settings := source.explicit.toList ++ (source.environment.map Path.mk).toList ++
    [base.join settingsFileName]
  for path in settings ++ o.licenses ++ o.savedDiff.toList ++ o.report.toList do
    followPath path
  let wanted := selects r environment (← get)
  for root in o.directories do
    readTree wanted root

end Disk

/-- The environment variables that a run looks at. -/
def readEnvironment : IO Environment := do
  let names :=
    ["FORCE_COLOR", "CLICOLOR_FORCE", "NO_COLOR", LogFilter.variableName, settingsVariable]
  let values ← names.mapM fun name => do return (name, ← IO.getEnv name)
  return fun name => (values.lookup name).join

/-- Seconds of the epoch, read off a file that is made for the purpose. -/
def secondsNow : IO Int := do
  let (_, path) ← IO.FS.createTempFile
  let seconds := (← path.metadata).modified.sec
  IO.FS.removeFile path
  return seconds

/-- Writes the files that differ from an earlier state. -/
def writeBack (fs before : FileSystem) : IO Unit := do
  for (l, entry) in fs.changesSince before [] do
    match entry with
    | some (.file content) => IO.FS.writeBinFile (Disk.place l) content.toBytes
    | _ => pure ()

/-- Prints what a command printed and answers its exit code. -/
def Outcome.show (outcome : Outcome) : IO UInt32 := do
  for (stream, line) in outcome.printed do
    match stream with
    | .out => IO.println line
    | .err => IO.eprintln line
  return UInt32.ofNat outcome.exitCode

/-- The location of the current directory; one that has been deleted is where
nothing can be, at an empty name. -/
def currentLocation : IO Location :=
  try
    let directory ← IO.currentDir
    return (Path.ofString directory.toString).pieces.filter fun piece => !Path.isIdle piece
  catch _ => return [[]]

/-- Carries out a request on the disk.  Which names are those of one file is not asked
for, so each file is taken to have one. -/
def Request.carryOut (r : Request) : IO UInt32 := do
  let environment ← readEnvironment
  let current ← currentLocation
  let ((), before) ← (Disk.readFor r environment).run
    { FileSystem.empty with current := current }
  let start ← IO.monoNanosNow
  let result ← IO.lazyPure fun () => r.perform environment {} { fs := before }
  let elapsed := (← IO.monoNanosNow) - start
  let timing : Timing := ⟨elapsed / 1000000000, elapsed % 1000000000, ← secondsNow⟩
  let outcome := r.conclude environment timing {} result
  writeBack outcome.fs before
  outcome.show

end LicenseHeaders

/-- Carries out the command that the arguments make. -/
def main (arguments : List String) : IO UInt32 :=
  match LicenseHeaders.Request.ofArguments (arguments.map String.toList) with
  | .ok request => request.carryOut
  | .error halt => (halt.outcome .empty).show

import LicenseHeaders.Text.Basic
import LicenseHeaders.Text.Digit
import LicenseHeaders.Text.Occurrence
import LicenseHeaders.Text.Lines
import LicenseHeaders.Files.Path
import LicenseHeaders.Files.Cause
import LicenseHeaders.Files.Content
import LicenseHeaders.Files.System
import LicenseHeaders.Files.Resolution
import LicenseHeaders.Files.Access
import LicenseHeaders.Files.HardLinks
import LicenseHeaders.Files.Edit
import LicenseHeaders.Selection.Pattern
import LicenseHeaders.Selection.Criteria
import LicenseHeaders.Header.Set
import LicenseHeaders.Header.Removal
import LicenseHeaders.Header.Insertion
import LicenseHeaders.Header.Change
import LicenseHeaders.Failure
import LicenseHeaders.Diff.Script
import LicenseHeaders.Diff.Search
import LicenseHeaders.Diff.Compaction
import LicenseHeaders.Diff.Rendering
import LicenseHeaders.Event
import LicenseHeaders.Selection.Walk
import LicenseHeaders.Report.Basic
import LicenseHeaders.Header.Loading
import LicenseHeaders.Run.World
import LicenseHeaders.Run.DiffOutput
import LicenseHeaders.Run.Engine
import LicenseHeaders.Toml.Value
import LicenseHeaders.Toml.Scalar
import LicenseHeaders.Toml.Quoted
import LicenseHeaders.Toml.Document
import LicenseHeaders.Settings.Selection
import LicenseHeaders.Settings.Loading
import LicenseHeaders.Number.Double
import LicenseHeaders.Number.Decimal
import LicenseHeaders.Json.Value
import LicenseHeaders.Json.Numeral
import LicenseHeaders.Json.Reader
import LicenseHeaders.Report.Json
import LicenseHeaders.Console.Style
import LicenseHeaders.Console.Listing
import LicenseHeaders.Text.Runs
import LicenseHeaders.Text.Shown
import LicenseHeaders.Text.Letter
import LicenseHeaders.Console.Quoted
import LicenseHeaders.Console.ValuePattern
import LicenseHeaders.Console.Log
import LicenseHeaders.CommandLine.Options
import LicenseHeaders.CommandLine.Arguments
import LicenseHeaders.Console.Transcript
import LicenseHeaders.CommandLine.Trouble
import LicenseHeaders.CommandLine.Execution
import LicenseHeaders.Main
import LicenseHeaders.Proofs.NormalForm
import LicenseHeaders.Proofs.Outline
import LicenseHeaders.Proofs.Resolution
import LicenseHeaders.Proofs.Rewriting
import LicenseHeaders.Proofs.Sharing
import LicenseHeaders.Proofs.Directories
import LicenseHeaders.Proofs.Survey
import LicenseHeaders.Proofs.Termination
import LicenseHeaders.Proofs.Outcome
import LicenseHeaders.Proofs.Progress
import LicenseHeaders.Proofs.Run
import LicenseHeaders.Proofs.Postcondition
import LicenseHeaders.Proofs.Idempotence
import LicenseHeaders.Proofs.Pointwise
import LicenseHeaders.Proofs.Passage
import LicenseHeaders.Proofs.Stepwise
import LicenseHeaders.Proofs.DryRun
import LicenseHeaders.Proofs.FailFast
import LicenseHeaders.Proofs.Resuming
import LicenseHeaders.Proofs.Reloading
import LicenseHeaders.Proofs.NameOrder
import LicenseHeaders.Proofs.Visiting
import LicenseHeaders.Proofs.Selection
import LicenseHeaders.Proofs.Coverage
import LicenseHeaders.Proofs.Accounting
import LicenseHeaders.Proofs.Preparation
import LicenseHeaders.Proofs.Creation
import LicenseHeaders.Proofs.Spreading
import LicenseHeaders.Proofs.Treatment
import LicenseHeaders.Proofs.TargetState
import LicenseHeaders.Proofs.Commands
import LicenseHeaders.Proofs.Overlap
import LicenseHeaders.Proofs.Rootwise
import LicenseHeaders.Proofs.Locations
import LicenseHeaders.Proofs.Roots
import LicenseHeaders.Proofs.Insertion
import LicenseHeaders.Proofs.Rotation
import LicenseHeaders.Proofs.Composition
import LicenseHeaders.Proofs.Disk
import LicenseHeaders.Proofs.DiffFile
import LicenseHeaders.Proofs.Precedence
import LicenseHeaders.Proofs.ExitCode
import LicenseHeaders.Proofs.Confluence
import LicenseHeaders.Proofs.BlankLine
import LicenseHeaders.Proofs.Advancing
import LicenseHeaders.Proofs.Interference
import LicenseHeaders.Proofs.Collection
import LicenseHeaders.Proofs.Fitting
import LicenseHeaders.Proofs.Rendering
import LicenseHeaders.Proofs.SavedDiffs
import LicenseHeaders.Proofs.JsonScalars
import LicenseHeaders.Proofs.JsonLayout
import LicenseHeaders.Proofs.ReportReading
import LicenseHeaders.Proofs.PatternForm
import LicenseHeaders.Proofs.Pieces
import LicenseHeaders.Proofs.RelativePaths
import LicenseHeaders.Proofs.PathOrder
import LicenseHeaders.Proofs.Validation
import LicenseHeaders.Proofs.Overriding
import LicenseHeaders.Proofs.Exclusion
import LicenseHeaders.Proofs.ChangedFiles

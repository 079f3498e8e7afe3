import LinkGate.Buffer.Basic
import LinkGate.Buffer.ByteBuffer
import LinkGate.Buffer.Handle
import LinkGate.Buffer.Memory
import LinkGate.Buffer.Session
import LinkGate.CallGraph.Basic
import LinkGate.CallGraph.Document
import LinkGate.Capability.Basic
import LinkGate.CommandLine.Arguments
import LinkGate.CommandLine.Run
import LinkGate.Compile.Basic
import LinkGate.Compile.Command
import LinkGate.Compile.Program
import LinkGate.Config.Basic
import LinkGate.Config.Document
import LinkGate.Config.Resolution
import LinkGate.Decimal.Binary64
import LinkGate.Decimal.Shortest
import LinkGate.Files.Path
import LinkGate.Files.System
import LinkGate.Files.Tree
import LinkGate.Gate.Basic
import LinkGate.Gate.Reach
import LinkGate.Gate.Report
import LinkGate.Gate.Walk
import LinkGate.Json.Fault
import LinkGate.Json.Number
import LinkGate.Json.Reader
import LinkGate.Json.Record
import LinkGate.Json.Skip
import LinkGate.Json.Token
import LinkGate.Json.Value
import LinkGate.Log.Event
import LinkGate.Log.FieldValue
import LinkGate.Log.Filter
import LinkGate.Log.Pattern
import LinkGate.Log.Pattern.Bracketed
import LinkGate.Log.Pattern.Mode
import LinkGate.Log.Pattern.Nesting
import LinkGate.Log.Pattern.Symbol
import LinkGate.Main
import LinkGate.Proofs.Buffer.Aliasing
import LinkGate.Proofs.Buffer.Backing
import LinkGate.Proofs.Buffer.Bounds
import LinkGate.Proofs.Buffer.Bridge
import LinkGate.Proofs.Buffer.Bulk
import LinkGate.Proofs.Buffer.Failures
import LinkGate.Proofs.Buffer.Isolation
import LinkGate.Proofs.Buffer.Memory
import LinkGate.Proofs.Buffer.Operation
import LinkGate.Proofs.Buffer.ReadOnly
import LinkGate.Proofs.Buffer.Refill
import LinkGate.Proofs.Buffer.Sequences
import LinkGate.Proofs.CallGraph.Documents
import LinkGate.Proofs.CallGraph.Strictness
import LinkGate.Proofs.Capability.Markers
import LinkGate.Proofs.CommandLine.Settings
import LinkGate.Proofs.CommandLine.Verdict
import LinkGate.Proofs.Compile.Artifacts
import LinkGate.Proofs.Compile.Calls
import LinkGate.Proofs.Compile.Closures
import LinkGate.Proofs.Compile.ErrorLines
import LinkGate.Proofs.Compile.Failures
import LinkGate.Proofs.Compile.Isolation
import LinkGate.Proofs.Compile.Programs
import LinkGate.Proofs.Config.Documents
import LinkGate.Proofs.Config.Resolution
import LinkGate.Proofs.Decimal.Layout
import LinkGate.Proofs.Files.Listing
import LinkGate.Proofs.Files.Order
import LinkGate.Proofs.Files.Path
import LinkGate.Proofs.Files.System
import LinkGate.Proofs.Files.Tree
import LinkGate.Proofs.Files.Walk
import LinkGate.Proofs.Gate.Callers
import LinkGate.Proofs.Gate.Edits
import LinkGate.Proofs.Gate.Growth
import LinkGate.Proofs.Gate.Guarding
import LinkGate.Proofs.Gate.HitOrder
import LinkGate.Proofs.Gate.LivePart
import LinkGate.Proofs.Gate.MarkerUses
import LinkGate.Proofs.Gate.Rearrangement
import LinkGate.Proofs.Gate.Recovery
import LinkGate.Proofs.Gate.Refusals
import LinkGate.Proofs.Gate.Rounds
import LinkGate.Proofs.Gate.Trails
import LinkGate.Proofs.Gate.Walk
import LinkGate.Proofs.Json.Grammar
import LinkGate.Proofs.Json.Numbers
import LinkGate.Proofs.Json.Numerals
import LinkGate.Proofs.Json.OneLine
import LinkGate.Proofs.Json.OpenRecords
import LinkGate.Proofs.Json.Quoted
import LinkGate.Proofs.Json.Readers
import LinkGate.Proofs.Json.Reads
import LinkGate.Proofs.Json.RecordReaders
import LinkGate.Proofs.Json.Records
import LinkGate.Proofs.Json.Shape
import LinkGate.Proofs.Json.Skipped
import LinkGate.Proofs.Json.Strings
import LinkGate.Proofs.Json.Unambiguous
import LinkGate.Proofs.Json.Written
import LinkGate.Proofs.Lists
import LinkGate.Proofs.Lookup
import LinkGate.Proofs.Outcome
import LinkGate.Proofs.Report.Members
import LinkGate.Proofs.Report.Order
import LinkGate.Proofs.Report.Positions
import LinkGate.Proofs.Report.Texts
import LinkGate.Proofs.Report.Updates
import LinkGate.Proofs.Sorting
import LinkGate.Proofs.Text.BooleanWord
import LinkGate.Proofs.Text.Lossy
import LinkGate.Proofs.Text.Order
import LinkGate.Proofs.Text.Pieces
import LinkGate.Proofs.Text.Trimmed
import LinkGate.Proofs.Text.WellFormed
import LinkGate.Proofs.Text.WrittenNumbers
import LinkGate.Report.Basic
import LinkGate.Text.Alphabetic
import LinkGate.Text.Alphanumeric
import LinkGate.Text.Blank
import LinkGate.Text.BooleanWord
import LinkGate.Text.Hidden
import LinkGate.Text.Pieces
import LinkGate.Text.Quoted
import LinkGate.Text.Utf8
import LinkGate.World

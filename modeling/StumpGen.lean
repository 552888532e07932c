import StumpGen.Assembly.Audit
import StumpGen.Assembly.Emitter
import StumpGen.Assembly.Instruction
import StumpGen.Assembly.Listing
import StumpGen.Build
import StumpGen.Build.Progress
import StumpGen.Build.Stage
import StumpGen.Cache
import StumpGen.CommandLine
import StumpGen.CommandLine.Command
import StumpGen.CommandLine.Flag
import StumpGen.CommandLine.Instruments
import StumpGen.CommandLine.Output
import StumpGen.CommandLine.Settings
import StumpGen.Compilation
import StumpGen.Diagnostic
import StumpGen.Diagnostic.Bag
import StumpGen.Diagnostic.Code
import StumpGen.Diagnostic.Report
import StumpGen.Digest
import StumpGen.Document
import StumpGen.Document.Codec
import StumpGen.Document.Conversion
import StumpGen.Document.Draft
import StumpGen.Document.Error
import StumpGen.Document.File
import StumpGen.Document.Format
import StumpGen.Document.MessagePack
import StumpGen.Document.Toml
import StumpGen.Fault
import StumpGen.FileTree
import StumpGen.Host
import StumpGen.Instant
import StumpGen.Job
import StumpGen.Json
import StumpGen.Literal
import StumpGen.Lowering.Error
import StumpGen.Lowering.Frame
import StumpGen.Lowering.Label
import StumpGen.Lowering.Program
import StumpGen.Lowering.Statement
import StumpGen.Main
import StumpGen.Manifest
import StumpGen.MessagePack
import StumpGen.Path
import StumpGen.Path.Display
import StumpGen.Program
import StumpGen.Register
import StumpGen.Stats
import StumpGen.Stats.Summary
import StumpGen.Switch
import StumpGen.Text
import StumpGen.Text.Blank
import StumpGen.Text.Canonical
import StumpGen.Text.Case
import StumpGen.Text.Cluster
import StumpGen.Text.CodeTable
import StumpGen.Text.Composed
import StumpGen.Text.Decimal
import StumpGen.Text.Joining
import StumpGen.Text.Numeral
import StumpGen.Text.Printable
import StumpGen.Text.Quoted
import StumpGen.Text.Rune
import StumpGen.Text.Style
import StumpGen.Text.Width
import StumpGen.Timer
import StumpGen.Toml.Line
import StumpGen.Toml.Scalar
import StumpGen.Toml.Table
import StumpGen.Toml.Value
import StumpGen.Trace.Call
import StumpGen.Trace.Event
import StumpGen.Trace.Format
import StumpGen.Trace.Ring
import StumpGen.Trace.Tracer
import StumpGen.Version
import StumpGen.Proofs.Emission
import StumpGen.Proofs.TextParts
import StumpGen.Proofs.Label
import StumpGen.Proofs.Lowering
import StumpGen.Proofs.Layout
import StumpGen.Proofs.References
import StumpGen.Proofs.Acceptance
import StumpGen.Proofs.Validity
import StumpGen.Proofs.Conversion
import StumpGen.Proofs.Machine
import StumpGen.Proofs.PlainText
import StumpGen.Proofs.TomlStrings
import StumpGen.Proofs.TomlLines
import StumpGen.Proofs.TomlTables
import StumpGen.Proofs.TomlRoundTrip
import StumpGen.Proofs.Reading
import StumpGen.Proofs.Auditing
import StumpGen.Proofs.Packing
import StumpGen.Proofs.PackedRoundTrip
import StumpGen.Proofs.Fingerprint
import StumpGen.Proofs.FileEffects
import StumpGen.Proofs.Freshness
import StumpGen.Proofs.Paths
import StumpGen.Proofs.Placement
import StumpGen.Proofs.ProjectPaths
import StumpGen.Proofs.Independence
import StumpGen.Proofs.Interleaving
import StumpGen.Proofs.Schedules
import StumpGen.Proofs.Bag
import StumpGen.Proofs.Reporting
import StumpGen.Proofs.ImageSize
import StumpGen.Proofs.StraightLine
import StumpGen.Proofs.Calling
import StumpGen.Proofs.LiteralGrammar
import StumpGen.Proofs.LabelDiscipline
import StumpGen.Proofs.Atomicity
import StumpGen.Proofs.DataLayout
import StumpGen.Proofs.ListingLines
import StumpGen.Proofs.ListingRules
import StumpGen.Proofs.StoredEntries
import StumpGen.Proofs.OptionsKey
import StumpGen.Proofs.ProgressRuns
import StumpGen.Proofs.TracedCalls
import StumpGen.Proofs.TraceNesting
import StumpGen.Proofs.Duplicates
import StumpGen.Proofs.NewestEvents

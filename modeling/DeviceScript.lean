import DeviceScript.Command.Basic
import DeviceScript.Command.Bench
import DeviceScript.Command.Dispatch
import DeviceScript.Command.Execution
import DeviceScript.Command.Flags
import DeviceScript.Command.Inspection
import DeviceScript.Config.Basic
import DeviceScript.Data.Datum
import DeviceScript.Data.Moment
import DeviceScript.Fault
import DeviceScript.Files.Path
import DeviceScript.Files.Tree
import DeviceScript.Library.Basic
import DeviceScript.Library.Placeholder
import DeviceScript.Library.Setup
import DeviceScript.Main
import DeviceScript.Number.Binary64
import DeviceScript.Number.Reading
import DeviceScript.Number.Writing
import DeviceScript.Operation.Binding
import DeviceScript.Operation.Handler
import DeviceScript.Operation.Registry
import DeviceScript.Operation.Standard
import DeviceScript.Outcome.Basic
import DeviceScript.Outcome.Store
import DeviceScript.Pattern.Basic
import DeviceScript.Pattern.Reader
import DeviceScript.Pattern.Search
import DeviceScript.Proofs.Data.Sequence
import DeviceScript.Proofs.Files.Clean
import DeviceScript.Proofs.Grammar.Block
import DeviceScript.Proofs.Grammar.Derivation
import DeviceScript.Proofs.Grammar.Statement
import DeviceScript.Proofs.Grammar.Taking
import DeviceScript.Proofs.Library.Closure
import DeviceScript.Proofs.Library.Crash
import DeviceScript.Proofs.Library.Entered
import DeviceScript.Proofs.Library.Growth
import DeviceScript.Proofs.Library.History
import DeviceScript.Proofs.Library.Inclusions
import DeviceScript.Proofs.Library.OneLine
import DeviceScript.Proofs.Library.Trails
import DeviceScript.Proofs.Library.Walk
import DeviceScript.Proofs.Operation.Agreement
import DeviceScript.Proofs.Operation.Aliases
import DeviceScript.Proofs.Operation.Binding
import DeviceScript.Proofs.Operation.Keeping
import DeviceScript.Proofs.Operation.Options
import DeviceScript.Proofs.Operation.Registered
import DeviceScript.Proofs.Operation.Sleeping
import DeviceScript.Proofs.Operation.Views
import DeviceScript.Proofs.Parallel.Asking
import DeviceScript.Proofs.Parallel.Compiling
import DeviceScript.Proofs.Parallel.Crew
import DeviceScript.Proofs.Parallel.Running
import DeviceScript.Proofs.Parallel.Slots
import DeviceScript.Proofs.Pattern.Layout
import DeviceScript.Proofs.Pattern.Leftmost
import DeviceScript.Proofs.Pattern.Spans
import DeviceScript.Proofs.Pattern.Threads
import DeviceScript.Proofs.Reporting.Agreement
import DeviceScript.Proofs.Run.Aliases
import DeviceScript.Proofs.Run.Bound
import DeviceScript.Proofs.Run.Boundary
import DeviceScript.Proofs.Run.Candor
import DeviceScript.Proofs.Run.Comparison
import DeviceScript.Proofs.Run.Compilation
import DeviceScript.Proofs.Run.Conditions
import DeviceScript.Proofs.Run.Control
import DeviceScript.Proofs.Run.Depth
import DeviceScript.Proofs.Run.Devices
import DeviceScript.Proofs.Run.Formula
import DeviceScript.Proofs.Run.Inside
import DeviceScript.Proofs.Run.Interpolation
import DeviceScript.Proofs.Run.Layout
import DeviceScript.Proofs.Run.Loading
import DeviceScript.Proofs.Run.Meaning
import DeviceScript.Proofs.Run.Missing
import DeviceScript.Proofs.Run.Nesting
import DeviceScript.Proofs.Run.Placement
import DeviceScript.Proofs.Run.Plain
import DeviceScript.Proofs.Run.Policy
import DeviceScript.Proofs.Run.Recording
import DeviceScript.Proofs.Run.Safety
import DeviceScript.Proofs.Run.Simulation
import DeviceScript.Proofs.Run.Stacks
import DeviceScript.Proofs.Run.Stopping
import DeviceScript.Proofs.Run.Trace
import DeviceScript.Proofs.Run.View
import DeviceScript.Proofs.Schema.Accepted
import DeviceScript.Proofs.Schema.Entries
import DeviceScript.Proofs.Schema.Flow
import DeviceScript.Proofs.Schema.Merging
import DeviceScript.Proofs.Schema.Placing
import DeviceScript.Proofs.Schema.Validity
import DeviceScript.Proofs.Schema.Vocabulary
import DeviceScript.Proofs.Session.Output
import DeviceScript.Proofs.Source.Acceptance
import DeviceScript.Proofs.Source.Instructions
import DeviceScript.Proofs.Source.Leniency
import DeviceScript.Proofs.Source.Lines
import DeviceScript.Proofs.Source.Linkage
import DeviceScript.Proofs.Source.LoopEnds
import DeviceScript.Proofs.Source.Places
import DeviceScript.Proofs.Source.Rejection
import DeviceScript.Proofs.Source.Steps
import DeviceScript.Proofs.Text.Quoting
import DeviceScript.Proofs.Text.Runes
import DeviceScript.Proofs.Token.Arguments
import DeviceScript.Proofs.Token.Forms
import DeviceScript.Proofs.Token.Naming
import DeviceScript.Proofs.Token.QuotedArguments
import DeviceScript.Proofs.Token.RoundTrip
import DeviceScript.Proofs.Token.Words
import DeviceScript.Reporting.Basic
import DeviceScript.Reporting.Duration
import DeviceScript.Reporting.JUnit
import DeviceScript.Reporting.Json
import DeviceScript.Reporting.Plain
import DeviceScript.Reporting.Render
import DeviceScript.Run.Condition
import DeviceScript.Run.ControlStack
import DeviceScript.Run.Interpolation
import DeviceScript.Run.Log
import DeviceScript.Run.Machine
import DeviceScript.Run.Vars
import DeviceScript.Schema.Basic
import DeviceScript.Schema.Document
import DeviceScript.Schema.Standard
import DeviceScript.Schema.Validation
import DeviceScript.Script.Arguments
import DeviceScript.Script.Assembly
import DeviceScript.Script.Instruction
import DeviceScript.Script.Problem
import DeviceScript.Script.Value
import DeviceScript.Session.Basic
import DeviceScript.Session.Simulated
import DeviceScript.Session.WebSocket
import DeviceScript.Text.Basic
import DeviceScript.Text.Blank
import DeviceScript.Text.Category
import DeviceScript.Text.Fold
import DeviceScript.Text.Integer
import DeviceScript.Text.Literal
import DeviceScript.Text.Quoted
import DeviceScript.Text.Script
import DeviceScript.Text.Segment
import DeviceScript.Text.Utf8
import DeviceScript.Token.Basic
import DeviceScript.Token.Line
import DeviceScript.Token.Render
import DeviceScript.Token.Word
import DeviceScript.Toml.Draft
import DeviceScript.Toml.Reader
import DeviceScript.Toml.Scalar
import DeviceScript.Yaml.Node
import DeviceScript.Yaml.Reader

import FfiBindings.Binding.Basic
import FfiBindings.Binding.Text
import FfiBindings.Cleanup
import FfiBindings.CommandLine.Option
import FfiBindings.CommandLine.Parse
import FfiBindings.CommandLine.Word
import FfiBindings.Compiler.Basic
import FfiBindings.Compiler.Native
import FfiBindings.Compiler.Runner
import FfiBindings.Discovery
import FfiBindings.Extraction.Parameters
import FfiBindings.Extraction.Registry
import FfiBindings.Extraction.Scan
import FfiBindings.FfiType
import FfiBindings.Generation.Emit
import FfiBindings.Generation.Generate
import FfiBindings.Glob.Basic
import FfiBindings.Glob.Exclusion
import FfiBindings.Index.Basic
import FfiBindings.Index.Text
import FfiBindings.Layout
import FfiBindings.Log.Configure
import FfiBindings.Log.Hierarchy
import FfiBindings.Log.Record
import FfiBindings.Main
import FfiBindings.Number.Double
import FfiBindings.Number.Numeral
import FfiBindings.Number.Shortest
import FfiBindings.Path.Basic
import FfiBindings.Path.Location
import FfiBindings.Program
import FfiBindings.Proofs.Binding
import FfiBindings.Proofs.BindingText
import FfiBindings.Proofs.Cleanup
import FfiBindings.Proofs.CommandLine
import FfiBindings.Proofs.Compiler
import FfiBindings.Proofs.Discovery
import FfiBindings.Proofs.Extraction.Grammar
import FfiBindings.Proofs.Extraction.Spans
import FfiBindings.Proofs.Generation.Again
import FfiBindings.Proofs.Generation.Completed
import FfiBindings.Proofs.Generation.Frame
import FfiBindings.Proofs.Generation.Fresh
import FfiBindings.Proofs.Generation.Inputs
import FfiBindings.Proofs.Generation.Outputs
import FfiBindings.Proofs.Generation.Partition
import FfiBindings.Proofs.Generation.Redo
import FfiBindings.Proofs.Generation.Steps
import FfiBindings.Proofs.Generation.Stopped
import FfiBindings.Proofs.Index.Exports
import FfiBindings.Proofs.Index.Statements
import FfiBindings.Proofs.Layout
import FfiBindings.Proofs.Library
import FfiBindings.Proofs.Log.Delivery
import FfiBindings.Proofs.Path
import FfiBindings.Proofs.Program
import FfiBindings.Proofs.Run.Edits
import FfiBindings.Proofs.Run.Failures
import FfiBindings.Proofs.Run.Frame
import FfiBindings.Proofs.Run.Records
import FfiBindings.Proofs.Run.Steps
import FfiBindings.Proofs.Run.Yields
import FfiBindings.Proofs.Settings
import FfiBindings.Proofs.Settings.File
import FfiBindings.Proofs.Settings.Quoting
import FfiBindings.Proofs.Template
import FfiBindings.Proofs.Text
import FfiBindings.Proofs.Tree.Content
import FfiBindings.Proofs.Tree.Growth
import FfiBindings.Proofs.Tree.Operations
import FfiBindings.Proofs.Tree.Resolution
import FfiBindings.Proofs.Tree.Room
import FfiBindings.Proofs.Tree.Unlinked
import FfiBindings.Proofs.Tree.Ways
import FfiBindings.Proofs.Work
import FfiBindings.Run.Failure
import FfiBindings.Run.Nature
import FfiBindings.Run.World
import FfiBindings.Script.Command
import FfiBindings.Script.Evaluate
import FfiBindings.Script.Format
import FfiBindings.Script.Launch
import FfiBindings.Script.Shell
import FfiBindings.Script.Word
import FfiBindings.Settings.Basic
import FfiBindings.Settings.Coercion
import FfiBindings.Settings.Load
import FfiBindings.Signature
import FfiBindings.Template.Datum
import FfiBindings.Template.Error
import FfiBindings.Template.Expression
import FfiBindings.Template.Project
import FfiBindings.Template.Render
import FfiBindings.Template.SearchPath
import FfiBindings.Template.Segment
import FfiBindings.Template.Statement
import FfiBindings.Text.Alphanumeric
import FfiBindings.Text.Base64
import FfiBindings.Text.Blank
import FfiBindings.Text.Casing
import FfiBindings.Text.Digit
import FfiBindings.Text.Newline
import FfiBindings.Text.Printable
import FfiBindings.Text.Quoted
import FfiBindings.Text.Ranges
import FfiBindings.Text.Split
import FfiBindings.Text.Utf8
import FfiBindings.Tree.Basic
import FfiBindings.Tree.Change
import FfiBindings.Tree.Difference
import FfiBindings.Tree.FileError
import FfiBindings.Tree.Walk
import FfiBindings.Value.Basic
import FfiBindings.Value.Moment
import FfiBindings.Value.Text
import FfiBindings.Yaml.Document
import FfiBindings.Yaml.Fault
import FfiBindings.Yaml.Node
import FfiBindings.Yaml.Scalar
import FfiBindings.Yaml.ScalarText
import FfiBindings.Yaml.Scanner
import FfiBindings.Yaml.Tag
import FfiBindings.Yaml.Token
import FfiBindings.Yaml.Tokens
import FfiBindings.Proofs.Extraction.Parameters
import FfiBindings.Proofs.Extraction.Spelling
import FfiBindings.Proofs.Extraction.Describe
import FfiBindings.Proofs.Extraction.Mutable
import FfiBindings.Proofs.BindingComments
import FfiBindings.Proofs.BindingNames
import FfiBindings.Proofs.Extraction.Locality
import FfiBindings.Proofs.Utf8
import FfiBindings.Proofs.SourceText
import FfiBindings.Proofs.Discovery.Exact
import FfiBindings.Proofs.TypeAliases
import FfiBindings.Proofs.Index.Specifiers
import FfiBindings.Proofs.Settings.Separation
import FfiBindings.Proofs.Compiler.Calls
import FfiBindings.Proofs.Compiler.Artifacts
import FfiBindings.Proofs.Index.Calls
import FfiBindings.Proofs.Index.Template
import FfiBindings.Proofs.Index.Collisions
import FfiBindings.Proofs.BindingScope
import FfiBindings.Proofs.Cleanup.Turns

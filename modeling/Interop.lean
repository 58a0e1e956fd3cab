import Interop.Binding.Basic
import Interop.Binding.Identifier
import Interop.Binding.Lowering
import Interop.Binding.Member
import Interop.Binding.TypeName
import Interop.Command.Arguments
import Interop.Command.Bindgen
import Interop.Command.Grammar
import Interop.Command.Paths
import Interop.Command.Report
import Interop.Config.Default
import Interop.Config.File
import Interop.Config.Merge
import Interop.Config.Options
import Interop.Decl.Basic
import Interop.Decl.Describe
import Interop.Decl.Document
import Interop.Decl.ModelFile
import Interop.Fault
import Interop.Files.Path
import Interop.Files.Store
import Interop.Generation.Bindings
import Interop.Generation.Remarks
import Interop.Generation.Request
import Interop.Generation.Run
import Interop.Json.Reader
import Interop.Json.Writer
import Interop.Log.FileName
import Interop.Log.Journal
import Interop.Log.Level
import Interop.Log.Message
import Interop.Log.Record
import Interop.Log.Remark
import Interop.Log.Setup
import Interop.Log.Slot
import Interop.Main
import Interop.Number.Basic
import Interop.Number.Binary64
import Interop.Number.Rounded
import Interop.Number.Shortest
import Interop.Proofs.Binding.Admitted
import Interop.Proofs.Binding.Candidates
import Interop.Proofs.Binding.Demand
import Interop.Proofs.Binding.Faults
import Interop.Proofs.Binding.Lowering
import Interop.Proofs.Binding.Mismatch
import Interop.Proofs.Binding.Parameters
import Interop.Proofs.Binding.Provenance
import Interop.Proofs.Binding.Records
import Interop.Proofs.Binding.Tiling
import Interop.Proofs.Binding.Types
import Interop.Proofs.Binding.Workers
import Interop.Proofs.Command.Mistakes
import Interop.Proofs.Command.Reports
import Interop.Proofs.Config.ByPath
import Interop.Proofs.Config.Layers
import Interop.Proofs.Config.Merge
import Interop.Proofs.Config.Options
import Interop.Proofs.Config.Policy
import Interop.Proofs.Decl.Describing
import Interop.Proofs.Decl.Loading
import Interop.Proofs.Decl.Locations
import Interop.Proofs.Decl.Pruning
import Interop.Proofs.Decl.Reading
import Interop.Proofs.Failing
import Interop.Proofs.Files.Alike
import Interop.Proofs.Files.Changes
import Interop.Proofs.Files.Follow
import Interop.Proofs.Files.Parts
import Interop.Proofs.Generation.Effects
import Interop.Proofs.Generation.Gates
import Interop.Proofs.Generation.Manifest
import Interop.Proofs.Generation.Policy
import Interop.Proofs.Generation.Run
import Interop.Proofs.Generation.Skipping
import Interop.Proofs.Json.RoundTrip
import Interop.Proofs.Log.Routing
import Interop.Proofs.Log.Setup
import Interop.Proofs.Number.Sum
import Interop.Proofs.Number.Text
import Interop.Proofs.Number.Value
import Interop.Proofs.Paired
import Interop.Proofs.Pool
import Interop.Proofs.Running
import Interop.Proofs.Schema.Fits
import Interop.Proofs.Schema.Message
import Interop.Proofs.Schema.Semantics
import Interop.Proofs.Session
import Interop.Proofs.Source.Blocks
import Interop.Proofs.Source.Characters
import Interop.Proofs.Source.Comments
import Interop.Proofs.Source.Faults
import Interop.Proofs.Source.FileLines
import Interop.Proofs.Source.FileLiterals
import Interop.Proofs.Source.Indentation
import Interop.Proofs.Source.Layout
import Interop.Proofs.Source.Literals
import Interop.Proofs.Source.Locality
import Interop.Proofs.Source.Names
import Interop.Proofs.Source.Nesting
import Interop.Proofs.Source.Passes
import Interop.Proofs.Source.Pointers
import Interop.Proofs.Source.Provenance
import Interop.Proofs.Source.QuotedNames
import Interop.Proofs.Source.Reading
import Interop.Proofs.Source.Settle
import Interop.Proofs.Source.Slots
import Interop.Proofs.Source.Standing
import Interop.Proofs.Source.Storage
import Interop.Proofs.Source.Tidied
import Interop.Proofs.Text.Blank
import Interop.Proofs.Text.Cuts
import Interop.Proofs.Text.Lines
import Interop.Proofs.Value.Parts
import Interop.Proofs.Value.Paths
import Interop.Proofs.Value.Text
import Interop.Schema.Shape
import Interop.Schema.Violation
import Interop.Session
import Interop.Source.Member
import Interop.Source.Note
import Interop.Source.Pointer
import Interop.Source.Tidy
import Interop.Source.Unit
import Interop.Template.Field
import Interop.Template.Fill
import Interop.Template.Kind
import Interop.Template.Member
import Interop.Template.Roll
import Interop.Template.Subject
import Interop.Template.TextRoll
import Interop.Text.Ascii
import Interop.Text.Blank
import Interop.Text.Capital
import Interop.Text.Digits
import Interop.Text.Layout
import Interop.Text.Lines
import Interop.Text.Printable
import Interop.Text.Quoted
import Interop.Text.Utf8
import Interop.Time.Format
import Interop.Time.Moment
import Interop.Time.Stamp
import Interop.Toml.Lexeme
import Interop.Toml.Reader
import Interop.Toml.Table
import Interop.Value.Basic

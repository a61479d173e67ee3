import DeviceModel.CommandLine.Arguments
import DeviceModel.CommandLine.Reach
import DeviceModel.CommandLine.Report
import DeviceModel.CommandLine.Run
import DeviceModel.Config.Basic
import DeviceModel.Config.Toml
import DeviceModel.Config.Toml.Moment
import DeviceModel.Config.Toml.Number
import DeviceModel.Cpp.Body
import DeviceModel.Cpp.Generate
import DeviceModel.Cpp.Header
import DeviceModel.Cpp.Line
import DeviceModel.Cpp.Literal
import DeviceModel.Cpp.Name
import DeviceModel.Description.Constraint
import DeviceModel.Description.Decode
import DeviceModel.Description.Device
import DeviceModel.Description.Param
import DeviceModel.Description.Value
import DeviceModel.Device.Basic
import DeviceModel.Device.Constraint
import DeviceModel.Device.Summary
import DeviceModel.Device.Types
import DeviceModel.Document.Decode
import DeviceModel.Document.Format
import DeviceModel.Document.JsonText
import DeviceModel.Document.Node
import DeviceModel.Document.Scalar
import DeviceModel.Document.Spot
import DeviceModel.Document.Yaml.Cursor
import DeviceModel.Document.Yaml.Scalars
import DeviceModel.Document.Yaml.Token
import DeviceModel.Document.Yaml.Tree
import DeviceModel.Entries
import DeviceModel.Json
import DeviceModel.Json.Compare
import DeviceModel.Log
import DeviceModel.Main
import DeviceModel.Number.Binary
import DeviceModel.Number.Decimal
import DeviceModel.Number.Layout
import DeviceModel.Number.Shortest
import DeviceModel.Path
import DeviceModel.Resolve.Device
import DeviceModel.Resolve.Error
import DeviceModel.Resolve.Import
import DeviceModel.Resolve.Load
import DeviceModel.Resolve.Param
import DeviceModel.Resolve.Progress
import DeviceModel.Resolve.Rule
import DeviceModel.Resolve.Template
import DeviceModel.Resolve.Value
import DeviceModel.Schema.Basic
import DeviceModel.Schema.Device
import DeviceModel.Schema.Read
import DeviceModel.Source.Basic
import DeviceModel.Source.Documents
import DeviceModel.Source.FileTree
import DeviceModel.Text.Identifier
import DeviceModel.Text.Split
import DeviceModel.Text.Upper
import DeviceModel.Proofs.Forest
import DeviceModel.Proofs.Growth
import DeviceModel.Proofs.Steps
import DeviceModel.Proofs.ProgressInvariant
import DeviceModel.Proofs.Copying
import DeviceModel.Proofs.Growing
import DeviceModel.Proofs.Resolved
import DeviceModel.Proofs.Silence
import DeviceModel.Proofs.Expansion
import DeviceModel.Proofs.References
import DeviceModel.Proofs.Layout
import DeviceModel.Proofs.Faults
import DeviceModel.Proofs.Lineage
import DeviceModel.Proofs.NoDanglingIndex
import DeviceModel.Proofs.ImportStack
import DeviceModel.Proofs.Preorder
import DeviceModel.Proofs.Templates
import DeviceModel.Proofs.Agreement
import DeviceModel.Proofs.Written
import DeviceModel.Proofs.Items
import DeviceModel.Proofs.Definitions
import DeviceModel.Proofs.HeaderText
import DeviceModel.Proofs.HeaderOrder
import DeviceModel.Proofs.BodyOrder
import DeviceModel.Proofs.Lookup
import DeviceModel.Proofs.Oids
import DeviceModel.Proofs.Placement
import DeviceModel.Proofs.Collision
import DeviceModel.Proofs.Variables
import DeviceModel.Proofs.Twins
import DeviceModel.Proofs.Mirror
import DeviceModel.Proofs.Blocks
import DeviceModel.Proofs.Continuation
import DeviceModel.Proofs.Likeness
import DeviceModel.Proofs.Reordering
import DeviceModel.Proofs.Constraints
import DeviceModel.Proofs.Initializers
import DeviceModel.Proofs.Closure
import DeviceModel.Proofs.CheckedCode
import DeviceModel.Proofs.MarkedCode
import DeviceModel.Proofs.CodeNames
import DeviceModel.Proofs.Reading
import DeviceModel.Proofs.SchemaNames
import DeviceModel.Proofs.Runs
import DeviceModel.Proofs.GeneratedNames
import DeviceModel.Proofs.Conformance
import DeviceModel.Proofs.FieldOrder
import DeviceModel.Proofs.Paths
import DeviceModel.Proofs.Replicas
import DeviceModel.Proofs.Instantiation
import DeviceModel.Proofs.Outline
import DeviceModel.Proofs.Classification
import DeviceModel.Proofs.Finding
import DeviceModel.Proofs.ShortestDigits
import DeviceModel.Proofs.Literals
import DeviceModel.Proofs.Lossless
import DeviceModel.Proofs.GivenFloats
import DeviceModel.Proofs.StringLists
import DeviceModel.Proofs.FileTrees
import DeviceModel.Proofs.FailedRuns
import DeviceModel.Proofs.DryRun
import DeviceModel.Proofs.Menus
import DeviceModel.Proofs.PathIdentities
import DeviceModel.Proofs.DeviceNames
import DeviceModel.Proofs.Watching
import DeviceModel.Proofs.Ledger
import DeviceModel.Proofs.LedgerSteps
import DeviceModel.Proofs.Registration

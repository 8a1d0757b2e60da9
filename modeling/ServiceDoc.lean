import ServiceDoc.Command.Arguments
import ServiceDoc.Command.Run
import ServiceDoc.Comment.Basic
import ServiceDoc.Comment.Block
import ServiceDoc.Config.Basic
import ServiceDoc.Config.Options
import ServiceDoc.Config.Parameter
import ServiceDoc.Config.Value
import ServiceDoc.Definition.Basic
import ServiceDoc.Definition.Context
import ServiceDoc.Definition.SourceInfo
import ServiceDoc.Definition.Value
import ServiceDoc.Definition.Visit
import ServiceDoc.Document.Assemble
import ServiceDoc.Document.Base
import ServiceDoc.Document.Order
import ServiceDoc.Document.Raw
import ServiceDoc.Document.Render
import ServiceDoc.Document.Servers
import ServiceDoc.Document.Title
import ServiceDoc.Document.Ways
import ServiceDoc.Double.Basic
import ServiceDoc.Double.Shortest
import ServiceDoc.Failure
import ServiceDoc.Files
import ServiceDoc.Generation
import ServiceDoc.Json.Read
import ServiceDoc.Json.Write
import ServiceDoc.Main
import ServiceDoc.Notice
import ServiceDoc.OpenApi.Depth
import ServiceDoc.OpenApi.Dump
import ServiceDoc.OpenApi.Element
import ServiceDoc.OpenApi.Kind
import ServiceDoc.OpenApi.Load
import ServiceDoc.OpenApi.Merge
import ServiceDoc.Operation.Assemble
import ServiceDoc.Operation.Host
import ServiceDoc.Operation.Parameter
import ServiceDoc.Operation.Query
import ServiceDoc.Operation.Rule
import ServiceDoc.Operation.Share
import ServiceDoc.Operation.Template
import ServiceDoc.Registry.Basic
import ServiceDoc.Registry.Index
import ServiceDoc.Registry.Recall
import ServiceDoc.Schema.Name
import ServiceDoc.Schema.Reflect
import ServiceDoc.Schema.WellKnown
import ServiceDoc.Text.Blank
import ServiceDoc.Text.Case
import ServiceDoc.Text.Code
import ServiceDoc.Text.Integer
import ServiceDoc.Text.Pieces
import ServiceDoc.Text.Printable
import ServiceDoc.Text.Quoted
import ServiceDoc.Text.Ranges
import ServiceDoc.Text.Utf8
import ServiceDoc.Text.Word
import ServiceDoc.Value.Basic
import ServiceDoc.Value.Closed
import ServiceDoc.Value.Moment
import ServiceDoc.Value.Part
import ServiceDoc.Value.Same
import ServiceDoc.Value.Scalar
import ServiceDoc.Value.Shown
import ServiceDoc.Value.Sorting
import ServiceDoc.Wire.Message
import ServiceDoc.Wire.Request
import ServiceDoc.Wire.Varint
import ServiceDoc.Workspace
import ServiceDoc.Yaml.Base64
import ServiceDoc.Yaml.Cursor
import ServiceDoc.Yaml.Lines
import ServiceDoc.Yaml.Merge
import ServiceDoc.Yaml.Moment
import ServiceDoc.Yaml.Node
import ServiceDoc.Yaml.Number
import ServiceDoc.Yaml.Pen
import ServiceDoc.Yaml.Plain
import ServiceDoc.Yaml.Quotes
import ServiceDoc.Yaml.Read
import ServiceDoc.Yaml.Scalar
import ServiceDoc.Yaml.Scan
import ServiceDoc.Yaml.Style
import ServiceDoc.Yaml.Token
import ServiceDoc.Yaml.Write
import ServiceDoc.Proofs.Build.Refers
import ServiceDoc.Proofs.OpenApi.Reference
import ServiceDoc.Proofs.Build.Gives
import ServiceDoc.Proofs.Build.Fails
import ServiceDoc.Proofs.OpenApi.Schema
import ServiceDoc.Proofs.Schema.Reflect
import ServiceDoc.Proofs.Document.Component
import ServiceDoc.Proofs.Registry.Index
import ServiceDoc.Proofs.Operation.Reflect
import ServiceDoc.Proofs.Document.Operations
import ServiceDoc.Proofs.Document.Resolve
import ServiceDoc.Proofs.Value.Sorting
import ServiceDoc.Proofs.Document.Tidy
import ServiceDoc.Proofs.Document.Dangling
import ServiceDoc.Proofs.Document.Exact
import ServiceDoc.Proofs.Operation.Way
import ServiceDoc.Proofs.Operation.Query
import ServiceDoc.Proofs.Operation.Path
import ServiceDoc.Proofs.Value.Text
import ServiceDoc.Proofs.OpenApi.Fields
import ServiceDoc.Proofs.Document.Servers
import ServiceDoc.Proofs.Document.Hoist
import ServiceDoc.Proofs.Document.Effect
import ServiceDoc.Proofs.Operation.Fixed
import ServiceDoc.Proofs.Operation.Cover
import ServiceDoc.Proofs.Document.Settle
import ServiceDoc.Proofs.Document.Union
import ServiceDoc.Proofs.Document.Modes
import ServiceDoc.Proofs.Value.Order
import ServiceDoc.Proofs.Registry.Rearrange
import ServiceDoc.Proofs.Registry.Views
import ServiceDoc.Proofs.Operation.Agree
import ServiceDoc.Proofs.Document.Closure
import ServiceDoc.Proofs.Document.Arrange
import ServiceDoc.Proofs.Document.Dependencies
import ServiceDoc.Proofs.Value.Entries
import ServiceDoc.Proofs.OpenApi.Dump
import ServiceDoc.Proofs.OpenApi.Load
import ServiceDoc.Proofs.OpenApi.Document
import ServiceDoc.Proofs.OpenApi.Patch
import ServiceDoc.Proofs.OpenApi.Overlay
import ServiceDoc.Proofs.Schema.Name
import ServiceDoc.Proofs.Operation.Target
import ServiceDoc.Proofs.Document.Turns
import ServiceDoc.Proofs.Operation.Nesting
import ServiceDoc.Proofs.Operation.InPlace
import ServiceDoc.Proofs.OpenApi.Reload
import ServiceDoc.Proofs.Document.Account
import ServiceDoc.Proofs.Document.Passes
import ServiceDoc.Proofs.Json.Token
import ServiceDoc.Proofs.Json.Grammar
import ServiceDoc.Proofs.Comment.Block
import ServiceDoc.Proofs.Json.Decoded
import ServiceDoc.Proofs.OpenApi.Shape
import ServiceDoc.Proofs.Operation.Tags
import ServiceDoc.Proofs.Document.ServerData
import ServiceDoc.Proofs.Operation.Representable
import ServiceDoc.Proofs.Operation.Fails
import ServiceDoc.Proofs.Document.Malformed
import ServiceDoc.Proofs.Document.BaseSchemas
import ServiceDoc.Proofs.Definition.Path
import ServiceDoc.Proofs.Definition.Visits
import ServiceDoc.Proofs.Document.Properties
import ServiceDoc.Proofs.Text.Case
import ServiceDoc.Proofs.Config.Parameter
import ServiceDoc.Proofs.Config.Options

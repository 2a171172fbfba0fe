import ProtoStub.CommandLine
import ProtoStub.Definition
import ProtoStub.Definition.Bundled
import ProtoStub.Definition.Compile
import ProtoStub.Definition.Content
import ProtoStub.Definition.Declaration
import ProtoStub.Definition.Describe
import ProtoStub.Definition.Grammar
import ProtoStub.Definition.Known
import ProtoStub.Definition.Lexer
import ProtoStub.Definition.Link
import ProtoStub.Definition.Options
import ProtoStub.Definition.Reader
import ProtoStub.Definition.Rules
import ProtoStub.Definition.Scope
import ProtoStub.Definition.Stored
import ProtoStub.Definition.Stored.Decode
import ProtoStub.Definition.Stored.Default
import ProtoStub.Definition.Stored.Family
import ProtoStub.Definition.Stored.Link
import ProtoStub.Definition.Stored.OfLinked
import ProtoStub.Definition.Stored.Rules
import ProtoStub.Definition.Use
import ProtoStub.Definition.Warning
import ProtoStub.Descriptor
import ProtoStub.Descriptor.Walk
import ProtoStub.Discovery
import ProtoStub.Duration
import ProtoStub.Error
import ProtoStub.ExternalCompiler
import ProtoStub.Generation
import ProtoStub.Glob
import ProtoStub.Json
import ProtoStub.JsonSchema.Document
import ProtoStub.JsonSchema.Reference
import ProtoStub.Log
import ProtoStub.Main
import ProtoStub.Name
import ProtoStub.Output
import ProtoStub.Path
import ProtoStub.Profile
import ProtoStub.Program
import ProtoStub.Program.Build
import ProtoStub.Program.Declare
import ProtoStub.Program.Qualify
import ProtoStub.Program.Resolve
import ProtoStub.Program.SymbolTable
import ProtoStub.Program.Visibility
import ProtoStub.Proofs.Acceptance
import ProtoStub.Proofs.Agreement
import ProtoStub.Proofs.Arena
import ProtoStub.Proofs.Binding
import ProtoStub.Proofs.BlockReading
import ProtoStub.Proofs.ByteOrder
import ProtoStub.Proofs.CanonicalForm
import ProtoStub.Proofs.ClassText
import ProtoStub.Proofs.ClassTrees
import ProtoStub.Proofs.Clients
import ProtoStub.Proofs.Commitment
import ProtoStub.Proofs.CompletionOrder
import ProtoStub.Proofs.Containment
import ProtoStub.Proofs.Correspondence
import ProtoStub.Proofs.Cutting
import ProtoStub.Proofs.Declaration
import ProtoStub.Proofs.Definitions
import ProtoStub.Proofs.Documents
import ProtoStub.Proofs.Edits
import ProtoStub.Proofs.Extraction
import ProtoStub.Proofs.FieldSchemas
import ProtoStub.Proofs.Following
import ProtoStub.Proofs.FullSpelling
import ProtoStub.Proofs.Hyphens
import ProtoStub.Proofs.Identifiers
import ProtoStub.Proofs.ImportLayout
import ProtoStub.Proofs.ImportNames
import ProtoStub.Proofs.KnownPackages
import ProtoStub.Proofs.Layout
import ProtoStub.Proofs.Letters
import ProtoStub.Proofs.Linking
import ProtoStub.Proofs.Listing
import ProtoStub.Proofs.Loading
import ProtoStub.Proofs.Location
import ProtoStub.Proofs.Marking
import ProtoStub.Proofs.Membership
import ProtoStub.Proofs.Mirroring
import ProtoStub.Proofs.Modularity
import ProtoStub.Proofs.Nesting
import ProtoStub.Proofs.ObjectModel
import ProtoStub.Proofs.Outline
import ProtoStub.Proofs.OutputPaths
import ProtoStub.Proofs.Overriding
import ProtoStub.Proofs.PassedStatements
import ProtoStub.Proofs.Placement
import ProtoStub.Proofs.Printing
import ProtoStub.Proofs.Properties
import ProtoStub.Proofs.References
import ProtoStub.Proofs.Refusal
import ProtoStub.Proofs.Relining
import ProtoStub.Proofs.Rendering
import ProtoStub.Proofs.Reordering
import ProtoStub.Proofs.Resolution
import ProtoStub.Proofs.Respelling
import ProtoStub.Proofs.Routes
import ProtoStub.Proofs.Scoping
import ProtoStub.Proofs.Sharing
import ProtoStub.Proofs.Tables
import ProtoStub.Proofs.TextAgreement
import ProtoStub.Proofs.Turns
import ProtoStub.Proofs.Visibility
import ProtoStub.Proofs.Walking
import ProtoStub.Proofs.WriteOrder
import ProtoStub.Proofs.Writing
import ProtoStub.Proofs.WrittenNames
import ProtoStub.Route
import ProtoStub.Schema
import ProtoStub.Schema.Closure
import ProtoStub.Schema.Fault
import ProtoStub.Schema.Grammar
import ProtoStub.Schema.ImportSet
import ProtoStub.Schema.Search
import ProtoStub.Schema.Source
import ProtoStub.Settings
import ProtoStub.Settings.Environment
import ProtoStub.Settings.File
import ProtoStub.Settings.Flag
import ProtoStub.Strategy
import ProtoStub.Table
import ProtoStub.Text.Base64
import ProtoStub.Text.CodePoint
import ProtoStub.Text.Glyph
import ProtoStub.Text.Integer
import ProtoStub.Text.Letter
import ProtoStub.Text.Printable
import ProtoStub.Text.Quoted
import ProtoStub.Text.Split
import ProtoStub.Token
import ProtoStub.Token.Fault
import ProtoStub.Token.Lexer
import ProtoStub.Token.Literal
import ProtoStub.Token.Numeral
import ProtoStub.Type
import ProtoStub.VisualBasic.Class
import ProtoStub.VisualBasic.Client
import ProtoStub.VisualBasic.Type
import ProtoStub.VisualBasic.Unit
import ProtoStub.VisualBasic.Word
import ProtoStub.Wire
import ProtoStub.Workspace
import ProtoStub.Workspace.Change
import ProtoStub.Yaml
import ProtoStub.Yaml.Layout
import ProtoStub.Yaml.Meaning
import ProtoStub.Yaml.Scalar
import ProtoStub.Yaml.Token

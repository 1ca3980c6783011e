import GoAtlas.BasicKind
import GoAtlas.Check.Go
import GoAtlas.Check.Inquiry
import GoAtlas.Check.Progress
import GoAtlas.Check.Receiver
import GoAtlas.Check.Report
import GoAtlas.Check.Resolution
import GoAtlas.Check.Scope
import GoAtlas.Cli
import GoAtlas.Cli.Arguments
import GoAtlas.Comment
import GoAtlas.Config
import GoAtlas.Constant
import GoAtlas.Constant.Arithmetic
import GoAtlas.Constant.Conversion
import GoAtlas.Constant.Literal
import GoAtlas.Constant.Operator
import GoAtlas.Decimal.Binary64
import GoAtlas.Decimal.Reading
import GoAtlas.Decimal.Shortest
import GoAtlas.Definition
import GoAtlas.Encoding
import GoAtlas.Error
import GoAtlas.FileTree
import GoAtlas.GoType
import GoAtlas.Index
import GoAtlas.Json
import GoAtlas.Main
import GoAtlas.Package
import GoAtlas.Package.Kind
import GoAtlas.Package.Loaded
import GoAtlas.Package.Prebuilt
import GoAtlas.Package.Provenance
import GoAtlas.Path
import GoAtlas.Proofs.Ancestors
import GoAtlas.Proofs.Answers
import GoAtlas.Proofs.Check.Accounting
import GoAtlas.Proofs.Check.Behind
import GoAtlas.Proofs.Check.ByteEscapes
import GoAtlas.Proofs.Check.Collected
import GoAtlas.Proofs.Check.ConstGroups
import GoAtlas.Proofs.Check.Declarations
import GoAtlas.Proofs.Check.Distinct
import GoAtlas.Proofs.Check.Elsewhere
import GoAtlas.Proofs.Check.Evaluated
import GoAtlas.Proofs.Check.Exposed
import GoAtlas.Proofs.Check.ExpressionTracks
import GoAtlas.Proofs.Check.ExpressionTrails
import GoAtlas.Proofs.Check.Expressions
import GoAtlas.Proofs.Check.Faultless
import GoAtlas.Proofs.Check.Findings
import GoAtlas.Proofs.Check.Following
import GoAtlas.Proofs.Check.Found
import GoAtlas.Proofs.Check.FoundValues
import GoAtlas.Proofs.Check.Go
import GoAtlas.Proofs.Check.IntegerConstants
import GoAtlas.Proofs.Check.Items
import GoAtlas.Proofs.Check.Links
import GoAtlas.Proofs.Check.Lossless
import GoAtlas.Proofs.Check.Names
import GoAtlas.Proofs.Check.Neat
import GoAtlas.Proofs.Check.Once
import GoAtlas.Proofs.Check.Onward
import GoAtlas.Proofs.Check.Operands
import GoAtlas.Proofs.Check.OrderIndependence
import GoAtlas.Proofs.Check.Outcome
import GoAtlas.Proofs.Check.PackageTrails
import GoAtlas.Proofs.Check.Pending
import GoAtlas.Proofs.Check.Rearranged
import GoAtlas.Proofs.Check.Runs
import GoAtlas.Proofs.Check.Scope
import GoAtlas.Proofs.Check.Shapes
import GoAtlas.Proofs.Check.Spans
import GoAtlas.Proofs.Check.Steady
import GoAtlas.Proofs.Check.Termination
import GoAtlas.Proofs.Check.Tracks
import GoAtlas.Proofs.Check.Trails
import GoAtlas.Proofs.Check.TwinScopes
import GoAtlas.Proofs.Check.TypedConstants
import GoAtlas.Proofs.Check.Undotted
import GoAtlas.Proofs.Check.UndottedConstants
import GoAtlas.Proofs.Check.Unrepeated
import GoAtlas.Proofs.Check.Values
import GoAtlas.Proofs.Check.Variadic
import GoAtlas.Proofs.Check.Visibility
import GoAtlas.Proofs.Check.Wording
import GoAtlas.Proofs.Check.Yields
import GoAtlas.Proofs.Claiming
import GoAtlas.Proofs.Comment
import GoAtlas.Proofs.Constant.Escapes
import GoAtlas.Proofs.Constant.Integers
import GoAtlas.Proofs.Constant.Kinds
import GoAtlas.Proofs.Constant.Literals
import GoAtlas.Proofs.Constant.Refusals
import GoAtlas.Proofs.Constant.Separators
import GoAtlas.Proofs.Constant.Spellings
import GoAtlas.Proofs.FileTree
import GoAtlas.Proofs.GoType
import GoAtlas.Proofs.Index
import GoAtlas.Proofs.Inquiry
import GoAtlas.Proofs.Lists
import GoAtlas.Proofs.Loading
import GoAtlas.Proofs.Merges
import GoAtlas.Proofs.PackageFiles
import GoAtlas.Proofs.Path
import GoAtlas.Proofs.Provenance
import GoAtlas.Proofs.Session.Attempts
import GoAtlas.Proofs.Session.Breaks
import GoAtlas.Proofs.Session.Calls
import GoAtlas.Proofs.Session.Cases
import GoAtlas.Proofs.Session.ClosedWorld
import GoAtlas.Proofs.Session.Closure
import GoAtlas.Proofs.Session.Consistency
import GoAtlas.Proofs.Session.ConstGroup
import GoAtlas.Proofs.Session.Depths
import GoAtlas.Proofs.Session.Embedding
import GoAtlas.Proofs.Session.EmbeddingOrder
import GoAtlas.Proofs.Session.Endings
import GoAtlas.Proofs.Session.Fates
import GoAtlas.Proofs.Session.FieldOrder
import GoAtlas.Proofs.Session.Flattening
import GoAtlas.Proofs.Session.Growth
import GoAtlas.Proofs.Session.Implementers
import GoAtlas.Proofs.Session.ImportCycles
import GoAtlas.Proofs.Session.MethodSets
import GoAtlas.Proofs.Session.Nesting
import GoAtlas.Proofs.Session.Operation
import GoAtlas.Proofs.Session.PackageLaws
import GoAtlas.Proofs.Session.Policy
import GoAtlas.Proofs.Session.Promotion
import GoAtlas.Proofs.Session.Queries
import GoAtlas.Proofs.Session.Reports
import GoAtlas.Proofs.Session.Shuffled
import GoAtlas.Proofs.Session.Soundness
import GoAtlas.Proofs.Session.Sources
import GoAtlas.Proofs.Session.Spelling
import GoAtlas.Proofs.Session.Stability
import GoAtlas.Proofs.Session.Telling
import GoAtlas.Proofs.Session.Unbounded
import GoAtlas.Proofs.Source.ExpressionNames
import GoAtlas.Proofs.Source.ForeignNames
import GoAtlas.Proofs.Source.Forward
import GoAtlas.Proofs.Source.ForwardFiles
import GoAtlas.Proofs.Source.Members
import GoAtlas.Proofs.Source.Names
import GoAtlas.Proofs.Source.Places
import GoAtlas.Proofs.Source.Relocation
import GoAtlas.Proofs.Source.TypePlaces
import GoAtlas.Proofs.Table
import GoAtlas.Proofs.Text.Utf8
import GoAtlas.Proofs.TypeName
import GoAtlas.Proofs.Walk.Aborts
import GoAtlas.Proofs.Walk.FanOut
import GoAtlas.Proofs.Walk.Positions
import GoAtlas.Proofs.Walk.SharedStack
import GoAtlas.Proofs.Walk.Together
import GoAtlas.Proofs.Walk.TourWalks
import GoAtlas.Proofs.Walk.Tours
import GoAtlas.Proofs.Walk.Traversal
import GoAtlas.Session
import GoAtlas.Session.ConstGroup
import GoAtlas.Session.Declaration
import GoAtlas.Session.MethodSet
import GoAtlas.Session.Query
import GoAtlas.Source.Cursor
import GoAtlas.Source.DeclGrammar
import GoAtlas.Source.ExprGrammar
import GoAtlas.Source.File
import GoAtlas.Source.Grammar
import GoAtlas.Source.Header
import GoAtlas.Source.Lexeme
import GoAtlas.Source.StatementGrammar
import GoAtlas.Source.Tree
import GoAtlas.Source.TypeGrammar
import GoAtlas.Table
import GoAtlas.Terminal
import GoAtlas.Text.Blank
import GoAtlas.Text.Identifier
import GoAtlas.Text.Printable
import GoAtlas.Text.Quoted
import GoAtlas.Text.Ranges
import GoAtlas.Text.Split
import GoAtlas.Text.Uppercase
import GoAtlas.Text.Utf8
import GoAtlas.Toml
import GoAtlas.Toml.Document
import GoAtlas.Toml.Quoted
import GoAtlas.Toml.Scalar
import GoAtlas.Toml.Scan
import GoAtlas.TypeName
import GoAtlas.Walk
import GoAtlas.Walk.Outline
import GoAtlas.Walk.Scripted

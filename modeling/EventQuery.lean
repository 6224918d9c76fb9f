import EventQuery.Analysis.Axis
import EventQuery.Analysis.Bind
import EventQuery.Analysis.Context
import EventQuery.Analysis.Optimize
import EventQuery.Analysis.Reduce
import EventQuery.Analysis.Stopped
import EventQuery.Analysis.Symbols
import EventQuery.Analysis.Typing
import EventQuery.Analysis.Validate
import EventQuery.Calendar.Date
import EventQuery.Calendar.Format
import EventQuery.Calendar.Instant
import EventQuery.Calendar.Places
import EventQuery.Calendar.Unit
import EventQuery.Calendar.Zone
import EventQuery.Cli.Arguments
import EventQuery.Cli.Invocation
import EventQuery.Cli.Run
import EventQuery.Constant.Basic
import EventQuery.Constant.Cast
import EventQuery.Constant.Json
import EventQuery.Constant.Operations
import EventQuery.Constant.Text
import EventQuery.DataType
import EventQuery.Diagnostic.Basic
import EventQuery.Diagnostic.Canvas
import EventQuery.Diagnostic.Report
import EventQuery.Diagnostic.Span
import EventQuery.Expression.Basic
import EventQuery.Expression.Children
import EventQuery.Expression.Json
import EventQuery.Expression.Operator
import EventQuery.Expression.Outline
import EventQuery.Expression.Text
import EventQuery.Expression.Traversal
import EventQuery.Function.Basic
import EventQuery.Json.Printer
import EventQuery.Json.Reader
import EventQuery.Json.Record
import EventQuery.Json.Value
import EventQuery.Main
import EventQuery.Number.Binary64
import EventQuery.Number.Layout
import EventQuery.Number.Power
import EventQuery.Number.Reader
import EventQuery.Number.Shortest
import EventQuery.Number.Width
import EventQuery.Pattern.Basic
import EventQuery.Pattern.Json
import EventQuery.Pattern.Outline
import EventQuery.Pattern.Settle
import EventQuery.Pattern.Text
import EventQuery.Proofs.ActivationTrees
import EventQuery.Proofs.Activations
import EventQuery.Proofs.Agreement
import EventQuery.Proofs.Anchors
import EventQuery.Proofs.BoundPasses
import EventQuery.Proofs.BoundPrograms
import EventQuery.Proofs.BoundTrees
import EventQuery.Proofs.BoundedReading
import EventQuery.Proofs.Buckets
import EventQuery.Proofs.CallReading
import EventQuery.Proofs.CallSoundness
import EventQuery.Proofs.CanonicalText
import EventQuery.Proofs.CaptureFlags
import EventQuery.Proofs.ChildPlaces
import EventQuery.Proofs.Clocks
import EventQuery.Proofs.CompileTimeValues
import EventQuery.Proofs.CompiledParts
import EventQuery.Proofs.CompiledText
import EventQuery.Proofs.ConstantOrder
import EventQuery.Proofs.Constants
import EventQuery.Proofs.Counts
import EventQuery.Proofs.CycleSearch
import EventQuery.Proofs.Dates
import EventQuery.Proofs.DecimalText
import EventQuery.Proofs.Declarations
import EventQuery.Proofs.DeclaredPoints
import EventQuery.Proofs.DoubleBits
import EventQuery.Proofs.DoubleOrder
import EventQuery.Proofs.EditDistance
import EventQuery.Proofs.ExpressionActivations
import EventQuery.Proofs.ExpressionTokens
import EventQuery.Proofs.Fading
import EventQuery.Proofs.FadingRules
import EventQuery.Proofs.FoldingOrder
import EventQuery.Proofs.GrammarLevels
import EventQuery.Proofs.Heights
import EventQuery.Proofs.JsonRecords
import EventQuery.Proofs.JsonText
import EventQuery.Proofs.KnownPasses
import EventQuery.Proofs.KnownTypes
import EventQuery.Proofs.KnownValues
import EventQuery.Proofs.Levels
import EventQuery.Proofs.ListedNames
import EventQuery.Proofs.Literals
import EventQuery.Proofs.Meaning
import EventQuery.Proofs.Names
import EventQuery.Proofs.Nesting
import EventQuery.Proofs.NestingLimit
import EventQuery.Proofs.NeverUnresolved
import EventQuery.Proofs.NormalForm
import EventQuery.Proofs.Numerals
import EventQuery.Proofs.OrdinalFields
import EventQuery.Proofs.Outcome
import EventQuery.Proofs.Parentheses
import EventQuery.Proofs.Passages
import EventQuery.Proofs.PatternActivations
import EventQuery.Proofs.PatternGrammar
import EventQuery.Proofs.PatternPhrases
import EventQuery.Proofs.PatternRoundTrip
import EventQuery.Proofs.PatternTokens
import EventQuery.Proofs.Placement
import EventQuery.Proofs.PlainNodes
import EventQuery.Proofs.PointPreservation
import EventQuery.Proofs.Points
import EventQuery.Proofs.Precedence
import EventQuery.Proofs.Production
import EventQuery.Proofs.Reduction
import EventQuery.Proofs.ReferenceCycles
import EventQuery.Proofs.RequiredConstants
import EventQuery.Proofs.Rereading
import EventQuery.Proofs.Resolution
import EventQuery.Proofs.Rewriting
import EventQuery.Proofs.RoundTrip
import EventQuery.Proofs.Rounding
import EventQuery.Proofs.Scanning
import EventQuery.Proofs.SchemaNames
import EventQuery.Proofs.Scopes
import EventQuery.Proofs.ShortestDecimal
import EventQuery.Proofs.Skeletons
import EventQuery.Proofs.Slots
import EventQuery.Proofs.Soundness
import EventQuery.Proofs.SourceSpans
import EventQuery.Proofs.Spelling
import EventQuery.Proofs.SplitBuckets
import EventQuery.Proofs.Stages
import EventQuery.Proofs.StatementOrder
import EventQuery.Proofs.StepNumbers
import EventQuery.Proofs.StepTiming
import EventQuery.Proofs.StringTokens
import EventQuery.Proofs.StructuredExpressions
import EventQuery.Proofs.StructuredStatements
import EventQuery.Proofs.Timestamps
import EventQuery.Proofs.Tree
import EventQuery.Proofs.Truncation
import EventQuery.Proofs.TypePreservation
import EventQuery.Proofs.TypingRules
import EventQuery.Proofs.Validation
import EventQuery.Proofs.WholeDoubles
import EventQuery.Reading.Cursor
import EventQuery.Reading.ExpressionReader
import EventQuery.Reading.PatternReader
import EventQuery.Reading.Token
import EventQuery.Schema.Basic
import EventQuery.Schema.Json
import EventQuery.Schema.Path
import EventQuery.Session
import EventQuery.Statement.Basic
import EventQuery.Statement.Bind
import EventQuery.Statement.Json
import EventQuery.Statement.Optimize
import EventQuery.Statement.Outline
import EventQuery.Statement.Text
import EventQuery.Statement.Traversal
import EventQuery.Statement.Validate
import EventQuery.Text.Blank
import EventQuery.Text.Distance
import EventQuery.Text.Printable
import EventQuery.Text.Quoted

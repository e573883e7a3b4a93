import SqlTemplate.Accessor
import SqlTemplate.Backend
import SqlTemplate.Bindings
import SqlTemplate.Decimal.Binary
import SqlTemplate.Decimal.Remainder
import SqlTemplate.Decimal.Shortest
import SqlTemplate.Engine
import SqlTemplate.Expression.Evaluate
import SqlTemplate.Expression.Filter
import SqlTemplate.Expression.Operator
import SqlTemplate.Expression.Parser
import SqlTemplate.Expression.Syntax
import SqlTemplate.Expression.Token
import SqlTemplate.Marker
import SqlTemplate.ParamType
import SqlTemplate.Path
import SqlTemplate.Pattern.Atom
import SqlTemplate.Pattern.Check
import SqlTemplate.Pattern.Common
import SqlTemplate.Pattern.Dialect
import SqlTemplate.Pattern.Match
import SqlTemplate.Placeholder
import SqlTemplate.Placeholder.Offsets
import SqlTemplate.Query
import SqlTemplate.RenderError
import SqlTemplate.Scanner
import SqlTemplate.Scope
import SqlTemplate.Settings
import SqlTemplate.Settings.File
import SqlTemplate.Sql
import SqlTemplate.Statement
import SqlTemplate.Template
import SqlTemplate.Text.Blank
import SqlTemplate.Text.CaseTable
import SqlTemplate.Text.Cased
import SqlTemplate.Text.Cursor
import SqlTemplate.Text.Natural
import SqlTemplate.Text.Pieces
import SqlTemplate.Text.Quoted
import SqlTemplate.Text.Unprinted
import SqlTemplate.Text.Utf8
import SqlTemplate.Token
import SqlTemplate.Toml.Document
import SqlTemplate.Toml.Number
import SqlTemplate.Toml.Quoted
import SqlTemplate.Toml.Value
import SqlTemplate.Value.Access
import SqlTemplate.Value.Basic
import SqlTemplate.Value.Display
import SqlTemplate.Value.Number
import SqlTemplate.Value.Order
import SqlTemplate.Proofs.Entries
import SqlTemplate.Proofs.Layers
import SqlTemplate.Proofs.Run
import SqlTemplate.Proofs.Asking
import SqlTemplate.Proofs.Hygiene
import SqlTemplate.Proofs.Tokens
import SqlTemplate.Proofs.Separation
import SqlTemplate.Proofs.Finalize
import SqlTemplate.Proofs.Static
import SqlTemplate.Proofs.PathContent
import SqlTemplate.Proofs.PathReading
import SqlTemplate.Proofs.Seams
import SqlTemplate.Proofs.Renaming
import SqlTemplate.Proofs.Fragments
import SqlTemplate.Proofs.DeferredBinding
import SqlTemplate.Proofs.Substitution
import SqlTemplate.Proofs.Lockstep
import SqlTemplate.Proofs.Computed
import SqlTemplate.Proofs.LexicalScope
import SqlTemplate.Proofs.TokenLoop
import SqlTemplate.Proofs.TokenGrammar
import SqlTemplate.Proofs.Alignment
import SqlTemplate.Proofs.Expansion
import SqlTemplate.Proofs.PlaceholderGrammar
import SqlTemplate.Proofs.PlaceholderMarkers
import SqlTemplate.Proofs.DeclaredTypes
import SqlTemplate.Proofs.History
import SqlTemplate.Proofs.ParameterAlias
import SqlTemplate.Proofs.Insertion
import SqlTemplate.Proofs.Distribution
import SqlTemplate.Proofs.Declined
import SqlTemplate.Proofs.Offsets
import SqlTemplate.Proofs.Turns
import SqlTemplate.Proofs.Failure
import SqlTemplate.Proofs.Like
import SqlTemplate.Proofs.Quoting
import SqlTemplate.Proofs.TracedText
import SqlTemplate.Proofs.InList
import SqlTemplate.Proofs.PatternReading
import SqlTemplate.Proofs.PatternMeaning
import SqlTemplate.Proofs.CommonDialect
import SqlTemplate.Proofs.Validation
import SqlTemplate.Proofs.PathText
import SqlTemplate.Proofs.PathComposition
import SqlTemplate.Proofs.RootNames
import SqlTemplate.Proofs.PlaceholderOffsets
import SqlTemplate.Proofs.Arguments

import SqlScribe.Argument
import SqlScribe.Argument.Rebuild
import SqlScribe.Calendar
import SqlScribe.Calendar.Reader
import SqlScribe.Data
import SqlScribe.Data.Display
import SqlScribe.Data.Order
import SqlScribe.Data.Tagged
import SqlScribe.Dialect
import SqlScribe.Dialect.Encoding
import SqlScribe.Dialect.Identifier
import SqlScribe.Dialect.Reserved
import SqlScribe.Draft.Change
import SqlScribe.Draft.Select
import SqlScribe.Environment
import SqlScribe.Expr.Combine
import SqlScribe.Expr.Make
import SqlScribe.Expr.Rebuild
import SqlScribe.Fragment
import SqlScribe.FunctionName
import SqlScribe.Json.Reader
import SqlScribe.Json.Writer
import SqlScribe.JsonPath
import SqlScribe.LikePattern
import SqlScribe.Log
import SqlScribe.LogicalType
import SqlScribe.Malformed
import SqlScribe.Number.Decimal
import SqlScribe.Number.Double
import SqlScribe.Number.DoubleReader
import SqlScribe.Number.Numeral
import SqlScribe.Number.Shortest
import SqlScribe.Operator
import SqlScribe.PreparedQuery
import SqlScribe.Profile
import SqlScribe.Proofs.Accepted
import SqlScribe.Proofs.BareName
import SqlScribe.Proofs.ClauseOrder
import SqlScribe.Proofs.Collect
import SqlScribe.Proofs.Conditions
import SqlScribe.Proofs.Drafting
import SqlScribe.Proofs.EmptyProjection
import SqlScribe.Proofs.Encoding
import SqlScribe.Proofs.Erasure
import SqlScribe.Proofs.Exchange
import SqlScribe.Proofs.ExchangeNodes
import SqlScribe.Proofs.Filling
import SqlScribe.Proofs.Fits
import SqlScribe.Proofs.Formula
import SqlScribe.Proofs.Grounded
import SqlScribe.Proofs.Grouping
import SqlScribe.Proofs.Incoming
import SqlScribe.Proofs.JsonCanonical
import SqlScribe.Proofs.JsonDocument
import SqlScribe.Proofs.JsonReading
import SqlScribe.Proofs.KeyOrder
import SqlScribe.Proofs.KeyPath
import SqlScribe.Proofs.Layout
import SqlScribe.Proofs.LikeMatching
import SqlScribe.Proofs.Looks
import SqlScribe.Proofs.Mapped
import SqlScribe.Proofs.Merging
import SqlScribe.Proofs.NameOrder
import SqlScribe.Proofs.NumberValue
import SqlScribe.Proofs.Order
import SqlScribe.Proofs.Outcome
import SqlScribe.Proofs.Paging
import SqlScribe.Proofs.Paired
import SqlScribe.Proofs.PairedClauses
import SqlScribe.Proofs.PairedLayout
import SqlScribe.Proofs.PairedRewriting
import SqlScribe.Proofs.PairedRows
import SqlScribe.Proofs.PairedSpecial
import SqlScribe.Proofs.PairedStatement
import SqlScribe.Proofs.PairedWalk
import SqlScribe.Proofs.Pairing
import SqlScribe.Proofs.Parts
import SqlScribe.Proofs.PartsLayout
import SqlScribe.Proofs.PartsStatement
import SqlScribe.Proofs.PartsWalk
import SqlScribe.Proofs.Pass
import SqlScribe.Proofs.PassLayout
import SqlScribe.Proofs.PassNodes
import SqlScribe.Proofs.PassRebuilding
import SqlScribe.Proofs.PassStatement
import SqlScribe.Proofs.PassWalk
import SqlScribe.Proofs.Piece
import SqlScribe.Proofs.Place
import SqlScribe.Proofs.ProfileFlaw
import SqlScribe.Proofs.QuotedName
import SqlScribe.Proofs.Quoting
import SqlScribe.Proofs.ReadBack
import SqlScribe.Proofs.Reading
import SqlScribe.Proofs.Rebuilding
import SqlScribe.Proofs.Redirect
import SqlScribe.Proofs.Refusal
import SqlScribe.Proofs.Remaking
import SqlScribe.Proofs.Rewriting
import SqlScribe.Proofs.Rounding
import SqlScribe.Proofs.RowEquality
import SqlScribe.Proofs.Scopes
import SqlScribe.Proofs.Secrecy
import SqlScribe.Proofs.SharedText
import SqlScribe.Proofs.Skeleton
import SqlScribe.Proofs.SortedOrder
import SqlScribe.Proofs.Sorting
import SqlScribe.Proofs.SpelledStatement
import SqlScribe.Proofs.SpelledTruths
import SqlScribe.Proofs.Starred
import SqlScribe.Proofs.Statement
import SqlScribe.Proofs.Strayed
import SqlScribe.Proofs.StrayedStatement
import SqlScribe.Proofs.StrayedWalk
import SqlScribe.Proofs.Substitution
import SqlScribe.Proofs.TemplateParts
import SqlScribe.Proofs.Throughout
import SqlScribe.Proofs.Traversal
import SqlScribe.Proofs.Tree
import SqlScribe.Proofs.Typed
import SqlScribe.Proofs.Unambiguous
import SqlScribe.Proofs.Walk
import SqlScribe.Proofs.WrittenNumber
import SqlScribe.Proofs.WrittenValue
import SqlScribe.Query
import SqlScribe.Render.Change
import SqlScribe.Render.Layout
import SqlScribe.Render.Name
import SqlScribe.Render.Query
import SqlScribe.RenderError
import SqlScribe.Resolution
import SqlScribe.Sorting
import SqlScribe.Sorting.Merge
import SqlScribe.Sorting.Runs
import SqlScribe.Sorting.Search
import SqlScribe.Statement
import SqlScribe.Statement.Make
import SqlScribe.Summary
import SqlScribe.Template
import SqlScribe.Text.Blank
import SqlScribe.Text.CaseRun
import SqlScribe.Text.DecimalDigit
import SqlScribe.Text.Digits
import SqlScribe.Text.LowerCase
import SqlScribe.Text.Printable
import SqlScribe.Text.Quoted
import SqlScribe.Text.UpperCase
import SqlScribe.Uuid
import SqlScribe.Value
import SqlScribe.Value.Conversion
import SqlScribe.Value.Order
import SqlScribe.View

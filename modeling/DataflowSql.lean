import DataflowSql.CommandLine.Arguments
import DataflowSql.CommandLine.Run
import DataflowSql.Compile.Columns
import DataflowSql.Compile.Configured
import DataflowSql.Compile.Ordering
import DataflowSql.Compile.Query
import DataflowSql.Compile.Splice
import DataflowSql.Config
import DataflowSql.Dialect
import DataflowSql.Dialect.Functions
import DataflowSql.Dialect.Like
import DataflowSql.Dialect.Quoting
import DataflowSql.Dialect.TypeName
import DataflowSql.Document.Nodes
import DataflowSql.Document.Read
import DataflowSql.Document.Shape
import DataflowSql.Document.Tables
import DataflowSql.Error
import DataflowSql.Graph
import DataflowSql.Graph.Node
import DataflowSql.Json
import DataflowSql.Json.Number
import DataflowSql.Json.Printer
import DataflowSql.Json.Reader
import DataflowSql.Main
import DataflowSql.Number.Double
import DataflowSql.Number.Numeral
import DataflowSql.Number.Power
import DataflowSql.Number.Shortest
import DataflowSql.Number.Word
import DataflowSql.Operation
import DataflowSql.Operation.Append
import DataflowSql.Operation.ChartProjection
import DataflowSql.Operation.Extract
import DataflowSql.Operation.Filter
import DataflowSql.Operation.Join
import DataflowSql.Operation.Select
import DataflowSql.Operation.Sorting
import DataflowSql.Operation.Summarize
import DataflowSql.Operation.TableSource
import DataflowSql.Outcome
import DataflowSql.Proofs.Acyclic
import DataflowSql.Proofs.Layout
import DataflowSql.Proofs.Node
import DataflowSql.Proofs.Outcome
import DataflowSql.Schema.Catalog
import DataflowSql.Schema.Column
import DataflowSql.Schema.SortKey
import DataflowSql.Sql.Expr
import DataflowSql.Sql.Name
import DataflowSql.Sql.Predicate
import DataflowSql.Sql.Query
import DataflowSql.Statement
import DataflowSql.Statement.Order
import DataflowSql.Statement.Page
import DataflowSql.Text.Blank
import DataflowSql.Text.Escaped
import DataflowSql.Text.Escaped.Table
import DataflowSql.Text.LowerCase
import DataflowSql.Text.LowerCase.Table
import DataflowSql.Proofs.Dependencies
import DataflowSql.Proofs.Order
import DataflowSql.Proofs.Spelling
import DataflowSql.Proofs.Scope
import DataflowSql.Proofs.Lexing
import DataflowSql.Proofs.Phrase
import DataflowSql.Proofs.Expression
import DataflowSql.Proofs.Readable
import DataflowSql.Proofs.Strategy
import DataflowSql.Proofs.Inputs
import DataflowSql.Proofs.OutputColumns
import DataflowSql.Proofs.Splicing
import DataflowSql.Proofs.Names
import DataflowSql.Proofs.Ranges
import DataflowSql.Proofs.Qualifiers
import DataflowSql.Proofs.RowOrder
import DataflowSql.Proofs.Locality
import DataflowSql.Proofs.Failures
import DataflowSql.Proofs.Configured
import DataflowSql.Proofs.Walk
import DataflowSql.Proofs.Leaves
import DataflowSql.Proofs.Genuine
import DataflowSql.Proofs.Spare
import DataflowSql.Proofs.Matching
import DataflowSql.Proofs.Picks
import DataflowSql.Proofs.Paging
import DataflowSql.Proofs.Written
import DataflowSql.Proofs.SelectLists
import DataflowSql.Proofs.Wildcards
import DataflowSql.Proofs.Literals
import DataflowSql.Proofs.Reckoning
import DataflowSql.Proofs.Positions
import DataflowSql.Proofs.Rows
import DataflowSql.Proofs.OuterJoin
import DataflowSql.Proofs.Summaries
import DataflowSql.Proofs.Checks
import DataflowSql.Proofs.Wiring
import DataflowSql.Proofs.Fields
import DataflowSql.Proofs.NodeDocuments
import DataflowSql.Proofs.References
import DataflowSql.Proofs.CatalogDocuments
import DataflowSql.Proofs.Decimals
import DataflowSql.Proofs.DoubleText
import DataflowSql.Proofs.JsonNumbers
import DataflowSql.Proofs.UnquotedLiterals
import DataflowSql.Proofs.LowerCase
import DataflowSql.Proofs.TypeNames

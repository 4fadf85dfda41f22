import DataflowSql.Text.Escaped

/-! What can go wrong while a graph is wired or compiled. Every cause that concerns one node names
it. -/
namespace DataflowSql

/-- Settings a node may turn out to lack. -/
inductive Setting where
  | table
  | includedColumnIndexes
  | filterColumnIndex
  | operator
  | filterValue
  | table1Column
  | table2Column
  | aggregateColumnIndexes
  | aggregateFunctions
  | inputColumnIndex
  | startPosition
  | startSearch
  | endPosition
  | endLength
  | endSearch
  | dataSeriesColumnIndexes
deriving DecidableEq, Repr

/-- The name of a setting in a document. -/
def Setting.key : Setting → String
  | .table => "Table"
  | .includedColumnIndexes => "IncludedColumnIndexes"
  | .filterColumnIndex => "FilterColumnIndex"
  | .operator => "Operator"
  | .filterValue => "FilterValue"
  | .table1Column => "Table1Column"
  | .table2Column => "Table2Column"
  | .aggregateColumnIndexes => "AggregateColumnIndexes"
  | .aggregateFunctions => "AggregateFunctions"
  | .inputColumnIndex => "InputColumnIndex"
  | .startPosition => "StartPosition"
  | .startSearch => "StartSearch"
  | .endPosition => "EndPosition"
  | .endLength => "EndLength"
  | .endSearch => "EndSearch"
  | .dataSeriesColumnIndexes => "DataSeriesColumnIndexes"

/-- What a value was expected to be. -/
inductive LiteralFault where
  | notTruthValue
  | notNumber
  | notDayCount
  | belowOne
deriving DecidableEq, Repr

def LiteralFault.reason : LiteralFault → String
  | .notTruthValue => "expected true or false"
  | .notNumber => "expected a number"
  | .notDayCount => "expected a positive whole number of days"
  | .belowOne => "positions and lengths start at 1"

inductive CompileError where
  | duplicateNodeId (id : String)
  | unknownNode (id : String)
  | unknownInput (node input : String)
  | missingInput (node : String) (index declared : Nat)
  | columnIndexOutOfRange (node : String) (index len : Nat)
  | missingSetting (node : String) (setting : Setting)
  | unknownTable (node table : String)
  | invalidLiteral (node value : String) (fault : LiteralFault)
  | pageOutOfRange (offset limit : UInt64)
  /-- The inputs of a node lead back to it, so no query can be written for it. -/
  | endlessInput (node input : String)
deriving DecidableEq, Repr

namespace CompileError

def message : CompileError → String
  | .duplicateNodeId id => "duplicate node id '" ++ id ++ "'"
  | .unknownNode id => "unknown node '" ++ id ++ "'"
  | .unknownInput node input =>
    "node '" ++ node ++ "' references input '" ++ input ++ "' which is not in the graph"
  | .missingInput node index declared =>
    "node '" ++ node ++ "' needs input #" ++ toString index ++ " but declares only " ++
      toString declared
  | .columnIndexOutOfRange node index len =>
    "node '" ++ node ++ "' references column index " ++ toString index ++ " but only " ++
      toString len ++ " columns are available"
  | .missingSetting node setting =>
    "node '" ++ node ++ "' is missing required setting '" ++ setting.key ++ "'"
  | .unknownTable node table =>
    "node '" ++ node ++ "' reads table '" ++ table ++ "' which is not in the schema catalog"
  | .invalidLiteral node value fault =>
    "node '" ++ node ++ "' has invalid value " ++ Text.escaped value ++ ": " ++ fault.reason
  | .pageOutOfRange offset limit =>
    "page at offset " ++ toString offset ++ " with limit " ++ toString limit ++
      " is past the last addressable row"
  | .endlessInput node input =>
    "node '" ++ node ++ "' reads itself through input '" ++ input ++ "'"

end CompileError

end DataflowSql

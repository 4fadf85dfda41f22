import DataflowSql.Operation.Append
import DataflowSql.Operation.ChartProjection
import DataflowSql.Operation.Extract
import DataflowSql.Operation.Filter
import DataflowSql.Operation.Join
import DataflowSql.Operation.Select
import DataflowSql.Operation.Sorting
import DataflowSql.Operation.Summarize
import DataflowSql.Operation.TableSource

/-! The nine operations. -/
namespace DataflowSql

inductive Operation where
  | tableSource (settings : TableSource)
  | select (settings : Select)
  | filter (settings : Filter)
  | sort (settings : Sorting)
  | join (settings : Join)
  | append (settings : Append)
  | summarize (settings : Summarize)
  | extract (settings : Extract)
  | chartProjection (settings : ChartProjection)
deriving DecidableEq, Repr

namespace Operation

/-- The name of the operation in a document. -/
def kind : Operation → String
  | .tableSource _ => "TableSource"
  | .select _ => "Select"
  | .filter _ => "Filter"
  | .sort _ => "Sort"
  | .join _ => "Join"
  | .append _ => "Append"
  | .summarize _ => "Summarize"
  | .extract _ => "Extract"
  | .chartProjection _ => "ChartProjection"

/-- A consumer may take over the source of such a node instead of reading its rows as a whole. -/
def isSpliceable : Operation → Bool
  | .tableSource _ => true
  | .join j => j.joinType.shape?.isSome
  | _ => false

end Operation

/-- A node as a document declares it. -/
structure NodeSpec where
  id : String
  inputs : List String
  operation : Operation
deriving DecidableEq, Repr

end DataflowSql

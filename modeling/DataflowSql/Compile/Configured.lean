import DataflowSql.Compile.Columns

/-! Whether a node's settings are complete. The check asks for less than the query does: it looks
at the node and the columns of its inputs only. -/
namespace DataflowSql.Node

def inputProjection (d : Dialect) (n : Node) (index : Nat) : Outcome Projection := do
  (← n.input index).projection d

/-- An input with a column at this index. -/
def hasColumn (d : Dialect) (n : Node) (input index : Nat) : Outcome Bool :=
  Outcome.succeeds do
    let p ← n.inputProjection d input
    p.column n.id index

def isConfigured (d : Dialect) (n : Node) : Outcome Bool :=
  match n.operation with
  | .tableSource s => return s.isConfigured n.schema
  | .select s => return n.hasInputs 1 && !(s.includedColumnIndexes.getD []).isEmpty
  | .filter f =>
    match f.filterColumnIndex, f.operator with
    | some index, some operator =>
      if operator.needsValue && f.filterValue.isNone then return false
      else if n.hasInputs 1 then n.hasColumn d 0 index
      else return false
    | _, _ => return false
  | .sort s => return n.hasInputs 1 && !s.sortColumns.isEmpty
  | .join j =>
    if !n.hasInputs 2 then return false
    else if j.joinType = .cross then return true
    else match j.table1Column, j.table2Column with
      | some l, some r => do
        if ← n.hasColumn d 0 l then n.hasColumn d 1 r else return false
      | _, _ => return false
  | .append _ => return n.hasInputs 1
  | .summarize s =>
    if n.hasInputs 1 && !(s.groupByColumnIndexes.isEmpty && s.aggregateFunctions.isEmpty) then
      Outcome.succeeds do s.outputs d n.id (← n.inputProjection d 0)
    else return false
  | .extract e =>
    if n.hasInputs 1 then Outcome.succeeds (e.slice d n.id fun _ => n.inputProjection d 0)
    else return false
  | .chartProjection c =>
    if n.hasInputs 1 then
      Outcome.succeeds do c.picks n.id (← n.inputProjection d 0)
    else return false

end DataflowSql.Node

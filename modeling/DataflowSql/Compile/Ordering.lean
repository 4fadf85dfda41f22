import DataflowSql.Compile.Columns

/-! The order of a node's rows. A sort sets it, operations that keep rows or pick columns hand it
on, and all others start afresh. -/
namespace DataflowSql.Node

def sortKeyStep (d : Dialect) (n : Node) (slots : List (Slot (Outcome SortKey))) :
    Outcome SortKey :=
  let inputProjection (_ : Unit) : Outcome Projection := do
    (← Slot.reachAt n.id slots 0).node.projection d
  match n.operation with
  | .select s => do
    let r ← Slot.reachAt n.id slots 0
    let p ← r.node.projection d
    let key ← r.answer ()
    return key.remap ((s.picks p.length).map (·.index))
  | .filter _ => Slot.answerAt n.id slots 0
  | .sort s => s.key n.id inputProjection
  | .extract _ => Slot.answerAt n.id slots 0
  | .chartProjection c => do
    let r ← Slot.reachAt n.id slots 0
    if ← c.followsAxis inputProjection then return SortKey.standard
    let key ← r.answer ()
    let picks ← c.picks n.id (← inputProjection ())
    return key.remap picks
  | .tableSource _ => Outcome.ok SortKey.standard
  | .join _ => Outcome.ok SortKey.standard
  | .append _ => Outcome.ok SortKey.standard
  | .summarize _ => Outcome.ok SortKey.standard

def sortKey (d : Dialect) : Node → Outcome SortKey := fold (sortKeyStep d)

end DataflowSql.Node

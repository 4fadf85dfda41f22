import DataflowSql.Graph.Node

/-! The output columns of a node. -/
namespace DataflowSql.Node

/-- Columns from those of the inputs. Errors come in the order the inputs are looked at, and an
input is asked once. -/
def projectionStep (d : Dialect) (n : Node) (slots : List (Slot (Outcome Projection))) :
    Outcome Projection :=
  let first (_ : Unit) : Outcome Projection := Slot.answerAt n.id slots 0
  match n.operation with
  | .tableSource _ => Outcome.ok (TableSource.projection d n.schema)
  | .select s => do return s.projection (← first ())
  | .filter _ => first ()
  | .sort _ => first ()
  | .join _ => do
    let left ← Slot.reachAt n.id slots 0
    let right ← Slot.reachAt n.id slots 1
    let ls ← left.answer ()
    let rs ← right.answer ()
    return ls ++ rs
  | .append a => do
    let inputs ← slots.mapM (Slot.reach n.id)
    let projections ← inputs.mapM fun r => r.answer ()
    match projections with
    | [] => Outcome.fail (.missingInput n.id 0 0)
    | p :: ps => return a.projection p ps
  | .summarize s => do
    let outputs ← s.outputs d n.id (← first ())
    return outputs.all.map (·.column)
  | .extract e => do e.projection d n.id (← first ())
  | .chartProjection c => do c.projection n.id (← first ())

def projection (d : Dialect) : Node → Outcome Projection := fold (projectionStep d)

end DataflowSql.Node

import DataflowSql.Compile.Columns

/-! What a consumer that takes over the source of a node refers to: the ranges that source
introduces, and the expression behind each output column. A node that cannot be taken over is read
under its own name. -/
namespace DataflowSql.Node

open Sql

def rangesStep (n : Node) (slots : List (Slot (Outcome (List String)))) : Outcome (List String) :=
  match n.operation with
  | .tableSource _ => Outcome.ok [tableRange n.id]
  | .join j =>
    if j.joinType.shape?.isSome then do
      let left ← Slot.answerAt n.id slots 0
      let right ← Slot.answerAt n.id slots 1
      match Join.rename? n.id left right with
      | some range => return left ++ [range]
      | none => return left ++ right
    else Outcome.ok [n.name]
  | _ => Outcome.ok [n.name]

/-- The ranges a node brings into the source of its consumer, in order. -/
def ranges : Node → Outcome (List String) := fold rangesStep

/-- The range under which a join reads its second input as a whole, if it has to. -/
def renameRight? (id : String) (left right : Node) : Outcome (Option String) := do
  let ls ← left.ranges
  let rs ← right.ranges
  return Join.rename? id ls rs

/-- A column of a join's second input, given how that input would write it itself. -/
def rightColumn (id : String) (left right : Node) (own : Nat → Outcome (Expr ColumnRef))
    (index : Nat) : Outcome (Expr ColumnRef) := do
  match ← renameRight? id left right with
  | some range => return .column (.ranged range index)
  | none => own index

/-- Output column `index` of a join: the columns of the first input stand before those of the
second. -/
def joinColumn (d : Dialect) (id : String) (left right : Node)
    (leftColumn ownColumn : Nat → Outcome (Expr ColumnRef)) (index : Nat) :
    Outcome (Expr ColumnRef) := do
  let ls ← left.projection d
  if index < ls.length then leftColumn index
  else do
    let rs ← right.projection d
    if index - ls.length < rs.length then rightColumn id left right ownColumn (index - ls.length)
    else Outcome.fail (.columnIndexOutOfRange id index (ls.length + rs.length))

def columnStep (d : Dialect) (n : Node) (slots : List (Slot (Nat → Outcome (Expr ColumnRef))))
    (index : Nat) : Outcome (Expr ColumnRef) :=
  let whole := Outcome.ok (.column (.ranged n.name index))
  match n.operation with
  | .tableSource _ => TableSource.rawColumn d n.id n.schema index
  | .join j =>
    if j.joinType.shape?.isSome then do
      let left ← Slot.reachAt n.id slots 0
      let right ← Slot.reachAt n.id slots 1
      joinColumn d n.id left.node right.node (left.answer ()) (right.answer ()) index
    else whole
  | _ => whole

/-- The expression for an output column in a consumer of the node. -/
def column (d : Dialect) : Node → Nat → Outcome (Expr ColumnRef) := fold (columnStep d)

end DataflowSql.Node

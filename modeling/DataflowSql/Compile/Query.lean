import DataflowSql.Compile.Splice

/-! The query that defines a node over its inputs. -/
namespace DataflowSql.Node

open Sql

/-- How a consumer reads a node: by taking over its source where that is possible, or as a whole,
perhaps under another range. -/
inductive Mode where
  | spliced
  | whole (range : Option String)
deriving DecidableEq, Repr

/-- What a node contributes to the source of a consumer. -/
abbrev Reading := Mode → Outcome (Source Node)

def checkIndex (d : Dialect) (id : String) (side : Node) (index : Nat) : Outcome Unit := do
  let p ← side.projection d
  if p.length ≤ index then Outcome.fail (.columnIndexOutOfRange id index p.length)

/-- The second operand of a join. -/
def rightSource (id : String) (left right : Reached Reading) : Outcome (Source Node) := do
  match ← renameRight? id left.node right.node with
  | some range => right.answer () (.whole (some range))
  | none => right.answer () .spliced

/-- The source of a join. Both operands are written before its settings are looked at. -/
def joinSource (d : Dialect) (n : Node) (j : Join) (shape : JoinShape)
    (slots : List (Slot Reading)) : Outcome (Source Node) := do
  let left ← Slot.reachAt n.id slots 0
  let right ← Slot.reachAt n.id slots 1
  let leftSource ← left.answer () .spliced
  let rightSource ← rightSource n.id left right
  match shape with
  | .cross => return .join leftSource .cross rightSource
  | .keyed kind =>
    let i ← Outcome.ofOption (.missingSetting n.id .table1Column) j.table1Column
    let k ← Outcome.ofOption (.missingSetting n.id .table2Column) j.table2Column
    checkIndex d n.id left.node i
    checkIndex d n.id right.node k
    let x ← left.node.column d i
    let y ← rightColumn n.id left.node right.node (right.node.column d) k
    return .join leftSource (.on kind x y) rightSource

/-- All output columns of a join over one of its forms. -/
def joinQuery (d : Dialect) (n : Node) (j : Join) (shape : JoinShape)
    (slots : List (Slot Reading)) : Outcome (Query Node) := do
  let p ← n.projection d
  let left ← Slot.reachAt n.id slots 0
  let right ← Slot.reachAt n.id slots 1
  let exprs ← (List.range p.length).mapM
    (joinColumn d n.id left.node right.node (left.node.column d) (right.node.column d))
  let source ← joinSource d n j shape slots
  return .plain exprs source

/-- Queries below each other. -/
def stack (first : Query Node) (rest : List (Query Node)) : Query Node :=
  rest.foldl Query.unionAll first

def queryStep (d : Dialect) (n : Node) (slots : List (Slot Reading)) : Outcome (Query Node) :=
  match n.operation with
  | .tableSource s => s.query d n.id n.schema
  | .select s => do
    let input ← Slot.reachAt n.id slots 0
    let p ← input.node.projection d
    let picks := s.picks p.length
    if picks.isEmpty then Outcome.fail (.missingSetting n.id .includedColumnIndexes)
    let exprs ← picks.mapM fun pick => input.node.column d pick.index
    let source ← input.answer () .spliced
    return .plain exprs source
  | .filter f => do
    let input ← Slot.reachAt n.id slots 0
    let source ← input.answer () (.whole none)
    let condition ← f.predicate d n.id fun _ => input.node.projection d
    return .select true [] source (some condition) []
  | .sort _ => do
    let input ← Slot.reachAt n.id slots 0
    let source ← input.answer () (.whole none)
    return .select true [] source none []
  | .join j =>
    match j.joinType.shape? with
    | some shape => joinQuery d n j shape slots
    | none => do
      let left ← joinQuery d n j (.keyed .leftOuter) slots
      let right ← joinQuery d n j (.keyed .rightOuter) slots
      return .union left right
  | .append _ => do
    let out ← n.projection d
    let inputs ← slots.mapM (Slot.reach n.id)
    let branches ← inputs.mapM fun input => do
      let available ← input.node.projection d
      let source ← input.answer () (.whole none)
      return Query.plain (Append.branch out available) source
    match branches with
    | [] => Outcome.fail (.missingInput n.id 0 0)
    | b :: bs => return stack b bs
  | .summarize s => do
    let input ← Slot.reachAt n.id slots 0
    let outputs ← s.outputs d n.id (← input.node.projection d)
    if outputs.all.isEmpty then Outcome.fail (.missingSetting n.id .aggregateFunctions)
    let source ← input.answer () (.whole none)
    return .select false (Item.number (outputs.all.map (·.expr))) source none
      (outputs.groups.map (·.expr))
  | .extract e => do
    let input ← Slot.reachAt n.id slots 0
    let p ← input.node.projection d
    let slice ← e.slice d n.id fun _ => input.node.projection d
    let source ← input.answer () (.whole none)
    return .select true [⟨slice, p.length⟩] source none []
  | .chartProjection c => do
    let input ← Slot.reachAt n.id slots 0
    let picks ← c.picks n.id (← input.node.projection d)
    let source ← input.answer () (.whole none)
    return .plain (picks.map fun i => .column (.output i)) source

/-- A node read as a whole: by name, or with its query written in place. -/
def wholeStep (d : Dialect) (s : Strategy) (n : Node) (slots : List (Slot Reading))
    (range : Option String) : Outcome (Source Node) :=
  match s with
  | .commonTableExpressions => Outcome.ok (.named n range)
  | .inline => do
    let q ← queryStep d n slots
    return .nested n q (range.getD n.name)

def readStep (d : Dialect) (s : Strategy) (n : Node) (slots : List (Slot Reading)) : Reading
  | .whole range => wholeStep d s n slots range
  | .spliced =>
    match n.operation with
    | .tableSource t => t.source n.id n.schema
    | .join j =>
      match j.joinType.shape? with
      | some shape => joinSource d n j shape slots
      | none => wholeStep d s n slots none
    | _ => wholeStep d s n slots none

/-- What a consumer writes to read the node. -/
def read (d : Dialect) (s : Strategy) : Node → Reading := fold (readStep d s)

/-- The inputs of a node, ready to be read. -/
def readers (d : Dialect) (s : Strategy) (n : Node) : List (Slot Reading) :=
  slotsOf (readStep d s) n.inputs

/-- The query that defines the node's rows. -/
def query (d : Dialect) (s : Strategy) (n : Node) : Outcome (Query Node) :=
  queryStep d n (n.readers d s)

/-- The nodes a node's query is taken to name. -/
def dependencies (d : Dialect) (s : Strategy) (n : Node) : Outcome (List Node) :=
  let slots := n.readers d s
  match n.operation with
  | .tableSource _ => Outcome.ok []
  | .select _ => do
    let input ← Slot.reachAt n.id slots 0
    return (← input.answer () .spliced).reads
  | .join _ => do
    let left ← Slot.reachAt n.id slots 0
    let leftSource ← left.answer () .spliced
    let right ← Slot.reachAt n.id slots 1
    let rightSource ← rightSource n.id left right
    return leftSource.reads ++ rightSource.reads
  | _ => n.allInputs

end DataflowSql.Node

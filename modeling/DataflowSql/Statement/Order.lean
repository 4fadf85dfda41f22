import DataflowSql.Compile.Query

/-! The order in which the nodes behind a target are defined: each once, and before every node that
names it. -/
namespace DataflowSql.Node

/-- Puts a block in front of a list, which loses the nodes the block holds. -/
def moveToFront (block rest : List Node) : List Node :=
  block ++ rest.filter fun n => !block.any fun m => m.id = n.id

/-- The blocks worked out so far, by node id. -/
abbrev Blocks := List (String × List Node)

/-- Moves the block of each node to the front, one after the other. -/
def prepend (block : Node → Blocks → Outcome (List Node × Blocks)) (nodes order : List Node)
    (known : Blocks) : Outcome (List Node × Blocks) :=
  match nodes with
  | [] => Outcome.ok (order, known)
  | n :: ns => do
    let (b, known) ← block n known
    prepend block ns (moveToFront b order) known

/-- A node and all it depends on, in the order they lead the list once the node has been moved to
its front. The block of a node is always the same, so it is worked out once. At most `depth` nodes
may depend on one another in a row. -/
def frontBlock (d : Dialect) (s : Strategy) : (depth : Nat) → Node → Blocks →
    Outcome (List Node × Blocks)
  | 0, n, _ => Outcome.fail (.endlessInput n.id n.id)
  | depth + 1, n, known =>
    match known.lookup n.id with
    | some b => Outcome.ok (b, known)
    | none => do
      let deps ← n.dependencies d s
      let (b, known) ← prepend (frontBlock d s depth) deps [n] known
      return (b, (n.id, b) :: known)

/-- All that the target depends on. -/
def dependencyOrder (d : Dialect) (s : Strategy) (depth : Nat) (target : Node) :
    Outcome (List Node) := do
  let deps ← target.dependencies d s
  let (order, _) ← prepend (frontBlock d s depth) deps [] []
  return order

end DataflowSql.Node

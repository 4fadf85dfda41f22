import DataflowSql.Operation

/-! Nodes together with all they read. What a node means depends on its inputs alone, so a node is
a tree; nodes that share an input share it in memory only. -/
namespace DataflowSql

mutual

/-- A node, with the catalog table it reads if it is a table source and one was found. -/
inductive Node where
  | mk (id : String) (operation : Operation) (schema : Option TableSchema) (inputs : List Input)

/-- A declared input: a node of the graph, an id that no node has, or a node whose own inputs go on
without end. -/
inductive Input where
  | found (node : Node)
  | absent (id : String)
  | endless (id : String)

end

namespace Node

def id : Node → String
  | .mk id _ _ _ => id

def operation : Node → Operation
  | .mk _ operation _ _ => operation

def schema : Node → Option TableSchema
  | .mk _ _ schema _ => schema

def inputs : Node → List Input
  | .mk _ _ _ inputs => inputs

/-- The name of the node's rows. -/
def name (n : Node) : String := Sql.nodeName n.id

def isSpliceable (n : Node) : Bool := n.operation.isSpliceable

end Node

namespace Input

def id : Input → String
  | .found n => n.id
  | .absent id => id
  | .endless id => id

/-- The graph has a node of this id. -/
def isResolved : Input → Bool
  | .absent _ => false
  | _ => true

end Input

/-- A node that can be read, and the answer it gives when asked. -/
structure Reached (β : Type) where
  node : Node
  answer : Unit → β

/-- An input, as seen by a question that is passed down the graph. -/
inductive Slot (β : Type) where
  | reached (input : Reached β)
  | absent (id : String)
  | endless (id : String)

mutual

/-- Answers a question about a node from the answers of its inputs. Only those that are asked for
are worked out. -/
def Node.fold {β : Type} (step : Node → List (Slot β) → β) : Node → β
  | .mk id operation schema inputs => step (.mk id operation schema inputs) (slotsOf step inputs)

def Input.slot {β : Type} (step : Node → List (Slot β) → β) : Input → Slot β
  | .found n => .reached ⟨n, fun _ => Node.fold step n⟩
  | .absent id => .absent id
  | .endless id => .endless id

def slotsOf {β : Type} (step : Node → List (Slot β) → β) : List Input → List (Slot β)
  | [] => []
  | i :: is => Input.slot step i :: slotsOf step is

end

namespace Slot

variable {β : Type}

/-- The input behind a slot; an error names the node that reads it. -/
def reach (node : String) : Slot β → Outcome (Reached β)
  | .reached r => Outcome.ok r
  | .absent id => Outcome.fail (.unknownInput node id)
  | .endless id => Outcome.fail (.endlessInput node id)

/-- The input at a position, which must be declared and present. -/
def reachAt (node : String) (slots : List (Slot β)) (index : Nat) : Outcome (Reached β) := do
  let slot ← Outcome.ofOption (.missingInput node index slots.length) slots[index]?
  slot.reach node

/-- The answer of the input at a position. -/
def answerAt {α : Type} (node : String) (slots : List (Slot (Outcome α))) (index : Nat) :
    Outcome α := do
  let r ← reachAt node slots index
  r.answer ()

end Slot

namespace Node

/-- The inputs of a node, with nothing to answer. -/
def slots (n : Node) : List (Slot Unit) := slotsOf (fun _ _ => ()) n.inputs

def input (n : Node) (index : Nat) : Outcome Node := do
  let r ← Slot.reachAt n.id n.slots index
  return r.node

/-- All inputs in order; every one must be present. -/
def allInputs (n : Node) : Outcome (List Node) :=
  n.slots.mapM fun p => do
    let r ← p.reach n.id
    return r.node

/-- At least this many inputs are declared, and all of them are present. -/
def hasInputs (n : Node) (least : Nat) : Bool :=
  least ≤ n.inputs.length && n.inputs.all Input.isResolved

end Node

end DataflowSql

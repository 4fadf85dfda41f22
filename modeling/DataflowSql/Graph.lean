import DataflowSql.Graph.Node

/-! Graphs: nodes wired by id. Inputs may be declared before or after the nodes that read them; an
id that no node has is kept and only matters to who reads it. -/
namespace DataflowSql

/-- A declared input and the position of the node it names. -/
structure Link where
  id : String
  target : Option Nat
deriving DecidableEq, Repr

/-- A node as wired, its inputs still by position. -/
structure Entry where
  id : String
  operation : Operation
  schema : Option TableSchema
  inputs : List Link
deriving DecidableEq, Repr

structure Graph where
  dialect : Dialect
  strategy : Strategy
  entries : List Entry
deriving DecidableEq, Repr

/-- What wiring a graph notes. -/
inductive BuildNote where
  | absentInput (node input : String)
  | unknownTable (node table : String)
  | built (nodes : Nat) (dialect : Dialect)
deriving DecidableEq, Repr

namespace BuildNote

/-- Whether the caller should hear about it even if nobody asks for details. -/
def isWarning : BuildNote → Bool
  | .unknownTable _ _ => true
  | _ => false

def message : BuildNote → String
  | .absentInput node input => "node '" ++ node ++ "': input '" ++ input ++ "' is not in the graph"
  | .unknownTable node table =>
    "query-graph: node '" ++ node ++ "': table " ++ Text.escaped table ++
      " not found in the schema catalog"
  | .built nodes dialect =>
    "built graph of " ++ toString nodes ++ " nodes for " ++ dialect.title

end BuildNote

namespace Entry

/-- The node of an entry over nodes that are there already. -/
def node (e : Entry) (below : Array Node) : Node :=
  .mk e.id e.operation e.schema (e.inputs.map fun l =>
    match l.target with
    | none => .absent l.id
    | some k => match below[k]? with
      | none => .endless l.id
      | some n => .found n)

end Entry

/-- The nodes of all entries, with everything up to `depth` steps below them. -/
def unfoldTo (entries : List Entry) : (depth : Nat) → List Node
  | 0 => entries.map fun e => e.node #[]
  | depth + 1 =>
    let below := (unfoldTo entries depth).toArray
    entries.map fun e => e.node below

namespace Graph

/-- The nodes in the order they were declared. Without a cycle no chain of inputs is longer than
the list, so nothing is cut off. -/
def nodes (g : Graph) : List Node := unfoldTo g.entries g.entries.length

def size (g : Graph) : Nat := g.entries.length

def withStrategy (g : Graph) (s : Strategy) : Graph := { g with strategy := s }

def node (g : Graph) (id : String) : Outcome Node :=
  Outcome.ofOption (.unknownNode id) (g.nodes.find? fun n => n.id = id)

/-- The first id that stands in the list a second time. -/
def repeatedId? (seen : List String) : List String → Option String
  | [] => none
  | id :: ids => if id ∈ seen then some id else repeatedId? (id :: seen) ids

def link (ids : List String) (id : String) : Link := ⟨id, ids.idxOf? id⟩

/-- The table a node reads, if it is a table source and its table is known. -/
def schemaOf (catalog : Catalog) : Operation → Option TableSchema
  | .tableSource s => s.table.bind catalog.find?
  | _ => none

def entry (ids : List String) (catalog : Catalog) (s : NodeSpec) : Entry :=
  ⟨s.id, s.operation, schemaOf catalog s.operation, s.inputs.map (link ids)⟩

def notes (e : Entry) : List BuildNote :=
  let absent := (e.inputs.filter fun l => l.target.isNone).map fun l => .absentInput e.id l.id
  match e.operation, e.schema with
  | .tableSource s, none => absent ++ [.unknownTable e.id (s.table.getD "")]
  | _, _ => absent

/-- Wires nodes, whose ids must differ, against a catalog. -/
def build (specs : List NodeSpec) (catalog : Catalog) (d : Dialect) :
    Except CompileError (Graph × List BuildNote) :=
  let ids := specs.map (·.id)
  match repeatedId? [] ids with
  | some id => .error (.duplicateNodeId id)
  | none =>
    let entries := specs.map (entry ids catalog)
    .ok (⟨d, d.defaultStrategy, entries⟩, entries.flatMap notes ++ [.built entries.length d])

end Graph

end DataflowSql

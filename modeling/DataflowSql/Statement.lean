import DataflowSql.Compile.Ordering
import DataflowSql.Graph
import DataflowSql.Statement.Order
import DataflowSql.Statement.Page

/-! Complete statements: the rows of a target, or their number. -/
namespace DataflowSql

open Sql

/-- An entry of the leading `WITH` clause: the rows of a node, or those rows numbered in order. -/
inductive Definition where
  | rows (node : Node) (query : Query Node)
  | numbered (node : Node) (key : SortKey)

def Definition.name : Definition → String
  | .rows n _ => n.name
  | .numbered n _ => pagedName n.id

def Definition.body (d : Dialect) : Definition → String
  | .rows _ q => q.sql d Node.name
  | .numbered n key =>
    "SELECT *, ROW_NUMBER() OVER (ORDER BY " ++ key.text ++ ") AS ROW_NUM FROM " ++ n.name

def Definition.sql (d : Dialect) (e : Definition) : String :=
  e.name ++ " AS (" ++ e.body d ++ ")"

/-- What follows the definitions. -/
inductive Body where
  /-- Rows of a query written in place. -/
  | nested (columns : Nat) (query : Query Node) (key : SortKey) (page : Option Page)
  /-- Rows of a definition. -/
  | listed (columns : Nat) (name : String) (key : SortKey)
  /-- Numbered rows of a definition, from `first` to `last`. -/
  | windowed (columns : Nat) (name : String) (first last : Nat) (key : SortKey)
  | count (query : Query Node) (name : String)

/-- All output columns of a node with this many. -/
def columnList (columns : Nat) : String := ", ".intercalate ((List.range columns).map columnName)

def Body.sql (d : Dialect) : Body → String
  | .nested columns query key page =>
    "SELECT " ++ columnList columns ++ " FROM (" ++ query.sql d Node.name ++
      ") AS results ORDER BY " ++ key.text ++
      (match page with
        | none => ""
        | some p => " " ++ p.clause d)
  | .listed columns name key =>
    "SELECT " ++ columnList columns ++ " FROM " ++ name ++ " ORDER BY " ++ key.text
  | .windowed columns name first last key =>
    "SELECT " ++ columnList columns ++ " FROM " ++ name ++ " WHERE ROW_NUM BETWEEN " ++
      toString first ++ " AND " ++ toString last ++ " ORDER BY " ++ key.text
  | .count query name => "SELECT COUNT(*) FROM (" ++ query.sql d Node.name ++ ") AS " ++ name

structure Statement where
  definitions : List Definition
  body : Body

def Statement.sql (d : Dialect) (s : Statement) : String :=
  if s.definitions.isEmpty then s.body.sql d
  else
    "WITH " ++ ", ".intercalate (s.definitions.map (Definition.sql d)) ++ " " ++ s.body.sql d

namespace Node

/-- The order of the rows, which may only use columns there are. -/
def checkedSortKey (d : Dialect) (n : Node) (length : Nat) : Outcome SortKey := do
  let key ← n.sortKey d
  match key.find? fun c => length ≤ c.index with
  | some c => Outcome.fail (.columnIndexOutOfRange n.id c.index length)
  | none => return key

def definitions (d : Dialect) (nodes : List Node) : Outcome (List Definition) :=
  nodes.mapM fun n => do
    let q ← n.query d .commonTableExpressions
    return .rows n q

/-- The rows of a target. At most `depth` nodes may depend on one another in a row. -/
def fetch (d : Dialect) (s : Strategy) (depth : Nat) (target : Node) (page : Option Page) :
    Outcome Statement := do
  let p ← target.projection d
  let key ← target.checkedSortKey d p.length
  match s with
  | .inline =>
    let q ← target.query d s
    return ⟨[], .nested p.length q key page⟩
  | .commonTableExpressions =>
    let order ← target.dependencyOrder d s depth
    let rows ← definitions d (order ++ [target])
    match page with
    | none => return ⟨rows, .listed p.length target.name key⟩
    | some page =>
      let (first, last) ← Outcome.ofOption (.pageOutOfRange page.offset page.limit) page.window?
      return ⟨rows ++ [.numbered target key],
        .windowed p.length (pagedName target.id) first last key⟩

/-- The number of a target's rows. -/
def count (d : Dialect) (s : Strategy) (depth : Nat) (target : Node) : Outcome Statement := do
  let q ← target.query d s
  match s with
  | .inline => return ⟨[], .count q target.name⟩
  | .commonTableExpressions =>
    let order ← target.dependencyOrder d s depth
    let rows ← definitions d order
    return ⟨rows, .count q target.name⟩

end Node

namespace Graph

/-- Statement for the rows of the node `id`. -/
def fetchStatement (g : Graph) (id : String) (page : Option Page) : Outcome String := do
  let target ← g.node id
  let statement ← target.fetch g.dialect g.strategy g.size page
  return statement.sql g.dialect

/-- Statement for the number of rows of the node `id`. -/
def countStatement (g : Graph) (id : String) : Outcome String := do
  let target ← g.node id
  let statement ← target.count g.dialect g.strategy g.size
  return statement.sql g.dialect

end Graph

end DataflowSql
